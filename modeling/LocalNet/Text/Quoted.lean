import LocalNet.Text.Unprintable
import LocalNet.Bytes

/-!
Texts in quotes, as messages show names and paths. A quote, a backslash and the common controls
have short escapes, every other unprintable character is written by its code point.
-/

namespace LocalNet.Text

def hexadecimal (value : Nat) : List Char :=
  (Nat.toDigits 16 value)

def quotedCharacter (char : Char) : List Char :=
  if char = '\x00' then ['\\', '0']
  else if char = '\t' then ['\\', 't']
  else if char = '\r' then ['\\', 'r']
  else if char = '\n' then ['\\', 'n']
  else if char = '"' then ['\\', '"']
  else if char = '\\' then ['\\', '\\']
  else if isUnprintable char then
    ['\\', 'u', '\x7b'] ++ hexadecimal char.toNat ++ ['\x7d']
  else [char]

def quoted (text : String) : String :=
  String.ofList (['"'] ++ text.toList.flatMap quotedCharacter ++ ['"'])

def quotedList (texts : List String) : String :=
  "[" ++ String.intercalate ", " (texts.map quoted) ++ "]"

end LocalNet.Text
