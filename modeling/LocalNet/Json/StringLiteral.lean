import LocalNet.Json.Cursor

/-!
String literals. A text literal must spell well-formed UTF-8 without bare controls and with its
surrogates in pairs; a byte literal keeps any byte and writes a surrogate that stands alone as
three bytes; a skipped literal is only looked through for its end.
-/

namespace LocalNet.Json

inductive LiteralKind where
  | text
  | bytes
  deriving DecidableEq, Repr

def hexValue? (byte : UInt8) : Option Nat :=
  if 0x30 ≤ byte && byte ≤ 0x39 then some (byte.toNat - 0x30)
  else if 0x41 ≤ byte && byte ≤ 0x46 then some (byte.toNat - 0x37)
  else if 0x61 ≤ byte && byte ≤ 0x66 then some (byte.toNat - 0x57)
  else none

def readHexDigits (cursor : Cursor) (value : Nat) : (count : Nat) → Reading Nat
  | 0 => .ok (value, cursor)
  | count + 1 =>
    match cursor.peek.bind hexValue? with
    | some digit => readHexDigits cursor.advance (value * 16 + digit) count
    | none => cursor.advance.failHere (.grammar .invalidEscape)

/-- Fewer than four bytes to the end leave nothing to read. -/
def readHexEscape (cursor : Cursor) : Reading Nat :=
  if cursor.rest.length < 4 then
    (cursor.advanceBy cursor.rest.length).failHere (.ended .string)
  else readHexDigits cursor 0 4

/-- Three bytes in the pattern of UTF-8, for a code unit that is no character. -/
def loneUnit (unit : Nat) : Bytes :=
  [UInt8.ofNat (0xE0 + unit / 4096), UInt8.ofNat (0x80 + unit / 64 % 64),
    UInt8.ofNat (0x80 + unit % 64)]

def characterBytes (code : Nat) : Bytes :=
  String.utf8EncodeChar (Char.ofNat code)

def simpleEscape? (byte : UInt8) : Option UInt8 :=
  if byte = 0x22 || byte = 0x5C || byte = 0x2F then some byte
  else if byte = 0x62 then some 0x08
  else if byte = 0x66 then some 0x0C
  else if byte = 0x6E then some 0x0A
  else if byte = 0x72 then some 0x0D
  else if byte = 0x74 then some 0x09
  else none

def readSimpleEscape (cursor : Cursor) : Reading Bytes :=
  match cursor.peek with
  | none => cursor.failHere (.ended .string)
  | some byte =>
    match simpleEscape? byte with
    | some meant => .ok ([meant], cursor.advance)
    | none => cursor.advance.failHere (.grammar .invalidEscape)

def isLeadingUnit (unit : Nat) : Bool :=
  0xD800 ≤ unit && unit ≤ 0xDBFF

def isTrailingUnit (unit : Nat) : Bool :=
  0xDC00 ≤ unit && unit ≤ 0xDFFF

/-- Goes on after a leading surrogate, which a text needs to be followed by a trailing one. -/
def readTrailingUnit (kind : LiteralKind) (leading : Nat) (cursor : Cursor) : Reading Bytes :=
  match cursor.peek with
  | none => cursor.failHere (.ended .string)
  | some byte =>
    if byte = 0x5C then
      let inner := cursor.advance
      match inner.peek with
      | none => inner.failHere (.ended .string)
      | some marker =>
        if marker = 0x75 then
          (readHexEscape inner.advance).andThen fun trailing following =>
            if isTrailingUnit trailing then
              .ok (characterBytes ((leading - 0xD800) * 0x400 + (trailing - 0xDC00) + 0x10000),
                following)
            else following.failHere (.grammar .loneSurrogate)
        else match kind with
          | .text => inner.advance.failHere (.grammar .unfinishedHexEscape)
          | .bytes => (readSimpleEscape inner).map (loneUnit leading ++ ·)
    else match kind with
      | .text => cursor.advance.failHere (.grammar .unfinishedHexEscape)
      | .bytes => .ok (loneUnit leading, cursor)

def readEscape (kind : LiteralKind) (cursor : Cursor) : Reading Bytes :=
  if cursor.peek = some 0x75 then
    (readHexEscape cursor.advance).andThen fun unit following =>
      if isTrailingUnit unit then
        match kind with
        | .text => following.failHere (.grammar .loneSurrogate)
        | .bytes => .ok (loneUnit unit, following)
      else if isLeadingUnit unit then readTrailingUnit kind unit following
      else .ok (characterBytes unit, following)
  else readSimpleEscape cursor

/-- Reads up to the closing quote, the last byte read standing first in `backwards`. Every step
reads at least one byte, so a fuel above the number of bytes left is enough. -/
def readLiteralBody (kind : LiteralKind) :
    (fuel : Nat) → (backwards : Bytes) → Cursor → Reading Bytes
  | 0, _, cursor => cursor.failHere (.ended .string)
  | fuel + 1, backwards, cursor =>
    match cursor.peek with
    | none => cursor.failHere (.ended .string)
    | some byte =>
      if byte = 0x22 then .ok (backwards.reverse, cursor.advance)
      else if byte = 0x5C then
        (readEscape kind cursor.advance).andThen fun meant following =>
          readLiteralBody kind fuel (meant.reverse ++ backwards) following
      else if byte < 0x20 && kind = .text then
        cursor.advance.failHere (.grammar .controlCharacter)
      else readLiteralBody kind fuel (byte :: backwards) cursor.advance

def readByteLiteral (cursor : Cursor) : Reading Bytes :=
  readLiteralBody .bytes (cursor.rest.length + 1) [] cursor

def readTextLiteral (cursor : Cursor) : Reading String :=
  (readLiteralBody .text (cursor.rest.length + 1) [] cursor).andThen fun bytes following =>
    match Bytes.toText? bytes with
    | some text => .ok (text, following)
    | none => following.failHere (.grammar .invalidUnicode)

def skipEscape (cursor : Cursor) : Reading Unit :=
  if cursor.peek = some 0x75 then (readHexEscape cursor.advance).map fun _ => ()
  else (readSimpleEscape cursor).map fun _ => ()

def skipLiteralBody : (fuel : Nat) → Cursor → Reading Unit
  | 0, cursor => cursor.failHere (.ended .string)
  | fuel + 1, cursor =>
    match cursor.peek with
    | none => cursor.failHere (.ended .string)
    | some byte =>
      if byte = 0x22 then .ok ((), cursor.advance)
      else if byte = 0x5C then
        (skipEscape cursor.advance).andThen fun _ following => skipLiteralBody fuel following
      else if byte < 0x20 then cursor.failHere (.grammar .controlCharacter)
      else skipLiteralBody fuel cursor.advance

def skipLiteral (cursor : Cursor) : Reading Unit :=
  skipLiteralBody (cursor.rest.length + 1) cursor

end LocalNet.Json
