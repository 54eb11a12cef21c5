import LocalNet.Http.Chunk

/-!
Responses as they stand on a connection. The head says how far the body goes: up to a length, in
chunks, or to the end of the connection.
-/

namespace LocalNet.Http

structure Response where
  status : Nat
  /-- Where the answer is to be had instead, if the head says so. -/
  location : Option Bytes
  /-- Absent if the connection ended before the body did, or its chunks are malformed. -/
  body : Option Bytes
  deriving DecidableEq, Repr

namespace Response

def digitsValue (digits : Bytes) : Nat :=
  digits.foldl (fun value digit => value * 10 + (digit.toNat - 0x30)) 0

def leastStatus : Nat := 100

def statusLine? (line : Bytes) : Option (Nat × Nat) :=
  match line with
  | 0x48 :: 0x54 :: 0x54 :: 0x50 :: 0x2F :: 0x31 :: 0x2E :: minor :: 0x20 ::
      a :: b :: c :: reason =>
    if (minor = 0x30 || minor = 0x31) && isDigit a && isDigit b && isDigit c
        && leastStatus ≤ digitsValue [a, b, c]
        && (reason.isEmpty || reason.head? = some 0x20) && reason.all isTextByte then
      some (minor.toNat - 0x30, digitsValue [a, b, c])
    else none
  | _ => none

inductive Framing where
  | empty
  | length (size : Nat)
  | chunks
  | untilClose
  deriving DecidableEq, Repr

def splitCommas : Bytes → List Bytes
  | [] => [[]]
  | byte :: rest =>
    if byte = 0x2C then [] :: splitCommas rest
    else
      match splitCommas rest with
      | [] => [[byte]]
      | part :: others => (byte :: part) :: others

def listed (value : Bytes) : List Bytes :=
  (splitCommas value).map trimBlanks

def maximalLength : Nat := Nat.pow 2 64 - 3

def isLength (length : Nat) (text : Bytes) : Bool :=
  !text.isEmpty && text.all isDigit && digitsValue text = length

/-- One length, however often it is repeated. -/
def length? (values : List Bytes) : Option Nat :=
  match values.flatMap listed with
  | [] => none
  | first :: others =>
    let length := digitsValue first
    if first.isEmpty || !first.all isDigit || maximalLength < length then none
    else if others.all (isLength length) then some length
    else none

/-- Whether a body comes in chunks: the last coding of the last line says so, without regard to
case, if the line is plain text. -/
def isChunked (codings : List Bytes) : Bool :=
  let last := codings.getLast?.getD []
  last.all isPlainByte &&
    ((listed last).getLast?.getD []).map lower = Bytes.ofText "chunked"

def framing? (minor status : Nat) (headers : List Header) : Option Framing :=
  let codings := Header.valuesOf headers "transfer-encoding"
  let lengths := Header.valuesOf headers "content-length"
  if status = 204 || status = 304 || status < 200 then some .empty
  else if !codings.isEmpty then
    if minor = 0 then none
    else if isChunked codings then some .chunks
    else some .untilClose
  else if lengths.isEmpty then some .untilClose
  else (length? lengths).map .length

def body? (framing : Framing) (bytes : Bytes) : Option Bytes :=
  match framing with
  | .empty => some []
  | .length size => if size ≤ bytes.length then some (bytes.take size) else none
  | .chunks => Chunk.body? bytes
  | .untilClose => some bytes

def skipEmptyLines : Bytes → Bytes
  | 0x0D :: 0x0A :: rest => skipEmptyLines rest
  | 0x0A :: rest => skipEmptyLines rest
  | bytes => bytes

/-- Reads the one response that a connection carried before it closed; there is none without a
whole head. Interim responses come before the one that counts. -/
def parse : (fuel : Nat) → Bytes → Option Response
  | 0, _ => none
  | fuel + 1, bytes =>
    match takeLine (skipEmptyLines bytes) with
    | none => none
    | some (line, rest) =>
      match statusLine? line, Header.read? Header.limit rest with
      | some (minor, status), some (headers, after) =>
        if status < 200 && status ≠ 101 then parse fuel after
        else
          (framing? minor status headers).map fun framing =>
            { status := status
              location := (Header.valuesOf headers "location").head?
              body := body? framing after }
      | _, _ => none

def ofConnection (bytes : Bytes) : Option Response :=
  parse (bytes.length + 1) bytes

def render (status : Nat) (body : Bytes) : Bytes :=
  Bytes.ofText ("HTTP/1.1 " ++ toString status ++ "\r\ncontent-length: " ++
    toString body.length ++ "\r\n\r\n") ++ body

end Response

end LocalNet.Http
