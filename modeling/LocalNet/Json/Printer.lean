import LocalNet.Json.Value
import LocalNet.Json.Real
import LocalNet.Bytes

/-!
The written form of a value: no blanks, controls and quotes escaped, every other character as
itself.
-/

namespace LocalNet.Json

def escapedCharacter (char : Char) : List Char :=
  if char = '"' then ['\\', '"']
  else if char = '\\' then ['\\', '\\']
  else if char = '\n' then ['\\', 'n']
  else if char = '\r' then ['\\', 'r']
  else if char = '\t' then ['\\', 't']
  else if char.toNat = 0x08 then ['\\', 'b']
  else if char.toNat = 0x0C then ['\\', 'f']
  else if char.toNat < 0x20 then
    ['\\', 'u', '0', '0', Bytes.hexDigit (char.toNat / 16), Bytes.hexDigit (char.toNat % 16)]
  else [char]

def textLiteral (text : String) : List Char :=
  ['"'] ++ text.toList.flatMap escapedCharacter ++ ['"']

def Number.written : Number → List Char
  | .integer value => (toString value).toList
  | .real bits => (Real.text bits).toList

mutual

def Value.characters : Value → List Char
  | .null => ['n', 'u', 'l', 'l']
  | .boolean true => ['t', 'r', 'u', 'e']
  | .boolean false => ['f', 'a', 'l', 's', 'e']
  | .number value => value.written
  | .text value => textLiteral value
  | .array elements => ['['] ++ Value.elementCharacters elements ++ [']']
  | .object members => ['\x7b'] ++ Value.memberCharacters members ++ ['\x7d']

def Value.elementCharacters : List Value → List Char
  | [] => []
  | [element] => element.characters
  | element :: rest => element.characters ++ [','] ++ Value.elementCharacters rest

def Value.memberCharacters : List (String × Value) → List Char
  | [] => []
  | [(name, value)] => textLiteral name ++ [':'] ++ value.characters
  | (name, value) :: rest =>
    textLiteral name ++ [':'] ++ value.characters ++ [','] ++ Value.memberCharacters rest

end

def Value.print (value : Value) : String :=
  String.ofList value.characters

end LocalNet.Json
