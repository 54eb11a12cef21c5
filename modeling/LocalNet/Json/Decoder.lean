import LocalNet.Json.Reader

/-!
Decoding into typed data, by two routes that accept the same documents: from text, where a fault
has a position, and from a value that was read before.
-/

namespace LocalNet.Json

structure Decoder (α : Type) where
  /-- Reads from text, with `depth` more brackets allowed. -/
  read : (depth : Nat) → Cursor → Reading α
  ofValue : Value → Except Mismatch α

def Number.found : Number → Found
  | .integer value => .integer value
  | .real bits => .real bits

def Value.found : Value → Found
  | .null => .null
  | .boolean value => .boolean value
  | .number value => value.found
  | .text value => .text value
  | .array _ => .sequence
  | .object _ => .object

def refuseHere {α : Type} (cursor : Cursor) (reason : Mismatch) : Reading α :=
  cursor.failHere (.mismatch reason)

/-- Names what stands at a place where `expected` should. A scalar is read first, so that its own
faults win. -/
def refuseKind {α : Type} (expected : String) (cursor : Cursor) : Reading α :=
  let wrong := fun (found : Found) (place : Cursor) =>
    refuseHere place (.wrongKind found expected)
  match cursor.peek with
  | none => cursor.failAhead (.grammar .expectedValue)
  | some byte =>
    if byte = 0x6E then
      (cursor.advance.keyword [0x75, 0x6C, 0x6C]).andThen fun _ place => wrong .null place
    else if byte = 0x74 then
      (cursor.advance.keyword [0x72, 0x75, 0x65]).andThen fun _ place =>
        wrong (.boolean true) place
    else if byte = 0x66 then
      (cursor.advance.keyword [0x61, 0x6C, 0x73, 0x65]).andThen fun _ place =>
        wrong (.boolean false) place
    else if byte = 0x2D then
      (readNumber true cursor.advance).andThen fun number place => wrong number.found place
    else if Cursor.isDigit byte then
      (readNumber false cursor).andThen fun number place => wrong number.found place
    else if byte = 0x22 then
      (readTextLiteral cursor.advance).andThen fun text place => wrong (.text text) place
    else if byte = 0x5B then wrong .sequence cursor
    else if byte = 0x7B then wrong .object cursor
    else cursor.failAhead (.grammar .expectedValue)

def atValue {α : Type} (before : Cursor) (reader : UInt8 → Cursor → Reading α) : Reading α :=
  let cursor := before.skipBlanks
  match cursor.peek with
  | none => cursor.failAhead (.ended .value)
  | some byte => reader byte cursor

namespace Decoder

def map {α β : Type} (change : α → β) (decoder : Decoder α) : Decoder β where
  read depth cursor := (decoder.read depth cursor).map change
  ofValue value := (decoder.ofValue value).map change

def kept : Decoder Value where
  read := readValue
  ofValue := .ok

def boolean : Decoder Bool where
  read _ before := atValue before fun byte cursor =>
    if byte = 0x74 then (cursor.advance.keyword [0x72, 0x75, 0x65]).map fun _ => true
    else if byte = 0x66 then
      (cursor.advance.keyword [0x61, 0x6C, 0x73, 0x65]).map fun _ => false
    else refuseKind "a boolean" cursor
  ofValue
    | .boolean value => .ok value
    | other => .error (.wrongKind other.found "a boolean")

def text (expected : String) : Decoder String where
  read _ before := atValue before fun byte cursor =>
    if byte = 0x22 then readTextLiteral cursor.advance else refuseKind expected cursor
  ofValue
    | .text value => .ok value
    | other => .error (.wrongKind other.found expected)

def integerOf (least greatest : Int) (expected : String) : Number → Except Mismatch Int
  | .integer value =>
    if least ≤ value && value ≤ greatest then .ok value
    else .error (.wrongValue (.integer value) expected)
  | .real bits => .error (.wrongKind (.real bits) expected)

def integer (least greatest : Int) (expected : String) : Decoder Int where
  read _ before := atValue before fun byte cursor =>
    let judged := fun (number : Number) (place : Cursor) =>
      match integerOf least greatest expected number with
      | .ok value => .ok (value, place)
      | .error reason => refuseHere place reason
    if byte = 0x2D then (readNumber true cursor.advance).andThen judged
    else if Cursor.isDigit byte then (readNumber false cursor).andThen judged
    else refuseKind expected cursor
  ofValue
    | .number value => integerOf least greatest expected value
    | other => .error (.wrongKind other.found expected)

def word64 : Decoder UInt64 :=
  (integer 0 (Nat.pow 2 64 - 1) "u64").map fun value => UInt64.ofNat value.toNat

def word32 : Decoder UInt32 :=
  (integer 0 (Nat.pow 2 32 - 1) "u32").map fun value => UInt32.ofNat value.toNat

def byte : Decoder UInt8 :=
  (integer 0 255 "u8").map fun value => UInt8.ofNat value.toNat

def signed64 : Decoder Int :=
  integer (-Nat.pow 2 63) (Nat.pow 2 63 - 1) "i64"

def mapEach {α : Type} (decode : Value → Except Mismatch α) :
    List Value → Except Mismatch (List α)
  | [] => .ok []
  | value :: rest =>
    match decode value with
    | .error reason => .error reason
    | .ok first => (mapEach decode rest).map (first :: ·)

def readList {α : Type} (item : Decoder α) (depth : Nat) (cursor : Cursor) :
    Reading (List α) :=
  match depth with
  | 0 => cursor.failAhead (.grammar .nestedTooDeep)
  | depth + 1 => readElements (item.read depth) (cursor.rest.length + 1) true [] cursor.advance

def list {α : Type} (item : Decoder α) : Decoder (List α) where
  read depth before := atValue before fun byte cursor =>
    if byte = 0x5B then readList item depth cursor else refuseKind "a sequence" cursor
  ofValue
    | .array elements => mapEach item.ofValue elements
    | other => .error (.wrongKind other.found "a sequence")

/-- Bytes are listed as integers or spelled by a string. -/
def bytes : Decoder Bytes where
  read depth before := atValue before fun first cursor =>
    if first = 0x22 then readByteLiteral cursor.advance
    else if first = 0x5B then readList byte depth cursor
    else refuseKind "byte array" cursor
  ofValue
    | .text value => .ok (Bytes.ofText value)
    | .array elements => mapEach byte.ofValue elements
    | other => .error (.wrongKind other.found "byte array")

def optional {α : Type} (decoder : Decoder α) : Decoder (Option α) where
  read depth before :=
    let cursor := before.skipBlanks
    if cursor.peek = some 0x6E then
      (cursor.advance.keyword [0x75, 0x6C, 0x6C]).map fun _ => none
    else (decoder.read depth cursor).map some
  ofValue
    | .null => .ok none
    | other => (decoder.ofValue other).map some

def fromText {α : Type} (decoder : Decoder α) (document : Bytes) : Except Failure α :=
  finish (decoder.read maximalDepth (Cursor.start document))

end Decoder

end LocalNet.Json
