import LocalNet.Bytes

/-!
Data in the distinguished encoding: items of a tag, a length and a content. Lengths are written
with the fewest bytes, and at most two of them.
-/

namespace LocalNet.Der

def integerTag : UInt8 := 0x02

def booleanTag : UInt8 := 0x01

def bitStringTag : UInt8 := 0x03

def octetStringTag : UInt8 := 0x04

def identifierTag : UInt8 := 0x06

def sequenceTag : UInt8 := 0x30

/-- The tag of the `number`-th optional part that is itself made of items. -/
def partTag (number : UInt8) : UInt8 := 0xA0 + number

structure Item where
  tag : UInt8
  content : Bytes
  deriving DecidableEq, Repr

def readLength? : Bytes → Option (Nat × Bytes)
  | [] => none
  | first :: rest =>
    if first < 0x80 then some (first.toNat, rest)
    else if first = 0x81 then
      match rest with
      | length :: rest => if 0x80 ≤ length then some (length.toNat, rest) else none
      | [] => none
    else if first = 0x82 then
      match rest with
      | high :: low :: rest =>
        if high ≠ 0 then some (high.toNat * 256 + low.toNat, rest) else none
      | _ => none
    else none

/-- The first item, whose length stays below `limit`, and what follows it. -/
def readItem? (limit : Nat) : Bytes → Option (Item × Bytes)
  | [] => none
  | tag :: rest =>
    if tag &&& 0x1F = 0x1F then none
    else
      match readLength? rest with
      | some (length, rest) =>
        if length < limit && length ≤ rest.length then
          some (⟨tag, rest.take length⟩, rest.drop length)
        else none
      | none => none

def expect? (limit : Nat) (tag : UInt8) (input : Bytes) : Option (Bytes × Bytes) :=
  match readItem? limit input with
  | some (item, rest) => if item.tag = tag then some (item.content, rest) else none
  | none => none

/-- The bytes of an integer that is not negative, without a leading zero. -/
def magnitude? : Bytes → Option Bytes
  | [] => none
  | [only] => if only < 0x80 then some [only] else none
  | first :: second :: rest =>
    if first = 0 then if 0x80 ≤ second then some (second :: rest) else none
    else if first < 0x80 then some (first :: second :: rest)
    else none

def expectMagnitude? (limit : Nat) (input : Bytes) : Option (Bytes × Bytes) :=
  match expect? limit integerTag input with
  | some (content, rest) => (magnitude? content).map fun bytes => (bytes, rest)
  | none => none

def expectSmall? (limit : Nat) (input : Bytes) : Option (UInt8 × Bytes) :=
  match expectMagnitude? limit input with
  | some ([byte], rest) => some (byte, rest)
  | _ => none

/-- The bytes of a bit string that fills its last byte. -/
def wholeBits? : Bytes → Option Bytes
  | 0 :: bits => some bits
  | _ => none

def encodeLength (length : Nat) : Bytes :=
  if length < 0x80 then Bytes.ofNat 1 length
  else if length < 0x100 then 0x81 :: Bytes.ofNat 1 length
  else 0x82 :: Bytes.ofNat 2 length

def encode (tag : UInt8) (content : Bytes) : Bytes :=
  tag :: encodeLength content.length ++ content

/-- An integer with the sign bit clear. -/
def encodeMagnitude (bytes : Bytes) : Bytes :=
  match bytes with
  | first :: _ => encode integerTag (if 0x80 ≤ first then 0 :: bytes else bytes)
  | [] => encode integerTag [0]

end LocalNet.Der
