import LocalNet.Bytes

/-!
Percent signs in addresses: a byte that may not stand in a part of an address as it is stands there
as a percent sign and two digits.
-/

namespace LocalNet.Http.Percent

def hexDigit (value : Nat) : Char :=
  Char.ofNat (if value < 10 then 48 + value else 55 + value)

def ofByte (byte : UInt8) : List Char :=
  ['%', hexDigit (byte.toNat / 16), hexDigit (byte.toNat % 16)]

def encode (set : Char → Bool) (chars : List Char) : String :=
  String.ofList (chars.flatMap fun char =>
    if set char then (Bytes.ofText (String.singleton char)).flatMap ofByte else [char])

def hexValue? (byte : UInt8) : Option UInt8 :=
  if 0x30 ≤ byte && byte ≤ 0x39 then some (byte - 0x30)
  else if 0x41 ≤ byte && byte ≤ 0x46 then some (byte - 0x37)
  else if 0x61 ≤ byte && byte ≤ 0x66 then some (byte - 0x57)
  else none

/-- Reads bytes back. A percent sign without two digits stands for itself. -/
def decode : Bytes → Bytes
  | 0x25 :: high :: low :: rest =>
    match hexValue? high, hexValue? low with
    | some a, some b => (a * 16 + b) :: decode rest
    | _, _ => 0x25 :: decode (high :: low :: rest)
  | byte :: rest => byte :: decode rest
  | [] => []

def controls (char : Char) : Bool :=
  char.toNat < 0x20 || 0x7E < char.toNat

def oneOf (chars : String) (char : Char) : Bool :=
  chars.toList.contains char

def fragment (char : Char) : Bool :=
  controls char || oneOf " \"<>" char || char.toNat = 0x60

def query (char : Char) : Bool :=
  controls char || oneOf " \"#<>" char

def path (char : Char) : Bool :=
  fragment char || oneOf "#?\x7b\x7d" char

def userinfo (char : Char) : Bool :=
  path char || oneOf "/:;=@[\\]^|" char

end LocalNet.Http.Percent
