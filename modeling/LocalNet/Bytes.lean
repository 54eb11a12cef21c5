/-!
Byte strings, and their readings as text and as hexadecimal digits.
-/

namespace LocalNet

abbrev Bytes := List UInt8

namespace Bytes

def ofText (text : String) : Bytes :=
  text.toUTF8.data.toList

/-- Only well-formed UTF-8 spells a text. -/
def toText? (bytes : Bytes) : Option String :=
  String.fromUTF8? ⟨bytes.toArray⟩

theorem toText?_ofText (text : String) : toText? (ofText text) = some text := by
  simp only [toText?, ofText, String.fromUTF8?, String.toUTF8_eq_toByteArray, Array.toArray_toList]
  rw [dif_pos text.isValidUTF8]
  rfl

def hexDigit (value : Nat) : Char :=
  Char.ofNat (if value < 10 then 48 + value else 87 + value)

def toHex (bytes : Bytes) : String :=
  String.ofList (bytes.flatMap fun byte =>
    [hexDigit (byte.toNat / 16), hexDigit (byte.toNat % 16)])

/-- The number whose base-256 digits these are, most significant first. -/
def toNat (bytes : Bytes) : Nat :=
  bytes.foldl (fun total byte => total * 256 + byte.toNat) 0

def ofNat : (count : Nat) → (value : Nat) → Bytes
  | 0, _ => []
  | count + 1, value => ofNat count (value / 256) ++ [UInt8.ofNat (value % 256)]

end Bytes

end LocalNet
