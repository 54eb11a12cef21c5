import LocalNet.Bytes

/-!
Base64 as it stands in PEM sections: blanks anywhere, padding only at the end and not required. The
symbols are taken in blocks of eight; a block is looked at when a symbol follows it, or at the end.
-/

namespace LocalNet.Pem

inductive Symbol where
  | digit (value : Nat)
  | padding
  | blank
  | invalid
  deriving DecidableEq, Repr

def Symbol.of (byte : UInt8) : Symbol :=
  let code := byte.toNat
  if 0x41 ≤ code && code ≤ 0x5A then .digit (code - 0x41)
  else if 0x61 ≤ code && code ≤ 0x7A then .digit (code - 0x61 + 26)
  else if 0x30 ≤ code && code ≤ 0x39 then .digit (code - 0x30 + 52)
  else if code = 0x2B then .digit 62
  else if code = 0x2F then .digit 63
  else if code = 0x3D then .padding
  else if code = 0x20 || (0x09 ≤ code && code ≤ 0x0D) then .blank
  else .invalid

def Symbol.digit? : Symbol → Option Nat
  | .digit value => some value
  | _ => none

inductive Base64Fault where
  | invalidCharacter (byte : UInt8)
  /-- Padding stands in a block that more symbols follow, or in the first half of the last one. -/
  | prematurePadding
  /-- What the text ends with is not two to four digits, filled up to four or not filled up. -/
  | invalidTrailingPadding
  deriving DecidableEq, Repr

def Base64Fault.message : Base64Fault → String
  | .invalidCharacter byte => "InvalidCharacter(" ++ toString byte.toNat ++ ")"
  | .prematurePadding => "PrematurePadding"
  | .invalidTrailingPadding => "InvalidTrailingPadding"

/-- Four digits make three bytes; fewer at the end make as many whole bytes as they can. -/
def joinDigits : List Nat → Bytes
  | first :: second :: third :: fourth :: rest =>
    Bytes.ofNat 3 (((first * 64 + second) * 64 + third) * 64 + fourth) ++ joinDigits rest
  | [first, second, third] => Bytes.ofNat 2 (((first * 64 + second) * 64 + third) / 4)
  | [first, second] => Bytes.ofNat 1 ((first * 64 + second) / 16)
  | _ => []

/-- The digits of the last four symbols or fewer, where `none` is padding. -/
def trailingDigits : List (Option Nat) → Except Base64Fault (List Nat)
  | [] => .ok []
  | [some first, some second] => .ok [first, second]
  | [some first, some second, none, none] => .ok [first, second]
  | [some first, some second, some third] => .ok [first, second, third]
  | [some first, some second, some third, none] => .ok [first, second, third]
  | [some first, some second, some third, some fourth] => .ok [first, second, third, fourth]
  | _ => .error .invalidTrailingPadding

def innerBlock (block : List (Option Nat)) : Except Base64Fault Bytes :=
  if block.all Option.isSome then .ok (joinDigits (block.filterMap id))
  else .error .prematurePadding

def lastBlock (block : List (Option Nat)) : Except Base64Fault Bytes :=
  if block.length ≤ 4 then (trailingDigits block).map joinDigits
  else do
    let leading ← innerBlock (block.take 4)
    let trailing ← trailingDigits (block.drop 4)
    return leading ++ joinDigits trailing

/-- Decodes `text` after a block of which the symbols seen so far are given, the latest first. -/
def decodeAfter (backwards : List (Option Nat)) : Bytes → Except Base64Fault Bytes
  | [] => lastBlock backwards.reverse
  | byte :: rest =>
    match Symbol.of byte with
    | .blank => decodeAfter backwards rest
    | .invalid => .error (.invalidCharacter byte)
    | symbol =>
      if backwards.length < 8 then decodeAfter (symbol.digit? :: backwards) rest
      else do
        let decoded ← innerBlock backwards.reverse
        return decoded ++ (← decodeAfter [symbol.digit?] rest)

def decodeBase64 (text : Bytes) : Except Base64Fault Bytes :=
  decodeAfter [] text

end LocalNet.Pem
