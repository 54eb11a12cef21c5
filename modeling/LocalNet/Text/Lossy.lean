import LocalNet.Bytes

/-!
Reading bytes as text when some of them may not be UTF-8: each longest broken start of a
character is shown as one replacement character.
-/

namespace LocalNet.Text

def continuesCharacter (byte : UInt8) : Bool :=
  0x80 ≤ byte && byte ≤ 0xBF

/-- The bytes that may follow a first byte, which exclude overlong forms, surrogates and code
points above the last one. -/
def secondByteFits (lead second : UInt8) : Bool :=
  if lead == 0xE0 then 0xA0 ≤ second && second ≤ 0xBF
  else if lead == 0xED then 0x80 ≤ second && second ≤ 0x9F
  else if lead == 0xF0 then 0x90 ≤ second && second ≤ 0xBF
  else if lead == 0xF4 then 0x80 ≤ second && second ≤ 0x8F
  else continuesCharacter second

def sequenceLength (lead : UInt8) : Nat :=
  if lead < 0x80 then 1
  else if lead < 0xC2 then 0
  else if lead < 0xE0 then 2
  else if lead < 0xF0 then 3
  else if lead < 0xF5 then 4
  else 0

/-- How many bytes belong to the character, whole or broken off, that starts with `lead`. -/
def characterExtent (lead : UInt8) (following : Bytes) : Nat :=
  match sequenceLength lead, following with
  | 0, _ => 1
  | 1, _ => 1
  | _, [] => 1
  | count, second :: rest =>
    if secondByteFits lead second then
      2 + ((rest.take (count - 2)).takeWhile continuesCharacter).length
    else 1

def replacement : Char := '\uFFFD'

def lossyCharacters : (fuel : Nat) → Bytes → List Char
  | 0, _ => []
  | _, [] => []
  | fuel + 1, lead :: following =>
    let extent := characterExtent lead following
    let shown := match Bytes.toText? ((lead :: following).take extent) with
      | some text => text.toList
      | none => [replacement]
    shown ++ lossyCharacters fuel ((lead :: following).drop extent)

def lossy (bytes : Bytes) : String :=
  String.ofList (lossyCharacters bytes.length bytes)

end LocalNet.Text
