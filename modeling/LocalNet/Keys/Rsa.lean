import LocalNet.Der
import LocalNet.Keys.Modular

/-!
RSA key pairs with two primes, and what makes one consistent.
-/

namespace LocalNet.Keys

structure RsaKey where
  modulus : Bytes
  publicExponent : Bytes
  privateExponent : Bytes
  firstPrime : Bytes
  secondPrime : Bytes
  firstExponent : Bytes
  secondExponent : Bytes
  coefficient : Bytes
  deriving DecidableEq, Repr

namespace RsaKey

def bitLength (value : Nat) : Nat :=
  if value = 0 then 0 else Nat.log2 value + 1

/-- Up to a whole number of bytes, the modulus has 2048 to 8192 bits. -/
def modulusFits (modulus : Nat) : Bool :=
  2048 ≤ (bitLength modulus + 7) / 8 * 8 && bitLength modulus ≤ 8192 && modulus % 2 = 1

def exponentFits (exponent : Nat) : Bool :=
  65537 ≤ exponent && exponent < Nat.pow 2 33 && exponent % 2 = 1

/-- A prime has half the bits of the modulus, which is a multiple of 512. -/
def primeFits (prime half : Nat) : Bool :=
  bitLength prime = half && half % 512 = 0 && prime % 2 = 1

def isConsistent (key : RsaKey) : Bool :=
  let n := Bytes.toNat key.modulus
  let e := Bytes.toNat key.publicExponent
  let d := Bytes.toNat key.privateExponent
  let p := Bytes.toNat key.firstPrime
  let q := Bytes.toNat key.secondPrime
  let dP := Bytes.toNat key.firstExponent
  let dQ := Bytes.toNat key.secondExponent
  let inverse := Bytes.toNat key.coefficient
  let half := (bitLength n + 1) / 2
  modulusFits n && exponentFits e && primeFits p half && primeFits q half && p * q = n &&
    half < bitLength d && d < n && d % 2 = 1 && dP < p && dP % 2 = 1 && dQ < q && dQ % 2 = 1 &&
    inverse < p && inverse * q % p = 1

def readMagnitudes? : (count : Nat) → Bytes → Option (List Bytes × Bytes)
  | 0, input => some ([], input)
  | count + 1, input =>
    match Der.expectMagnitude? 0x10000 input with
    | some (first, rest) =>
      (readMagnitudes? count rest).map fun read => (first :: read.1, read.2)
    | none => none

/-- Reads the fields of a key, which is used only if it is consistent. -/
def ofDer? (der : Bytes) : Option RsaKey :=
  match Der.expect? 0x10000 Der.sequenceTag der with
  | some (content, []) =>
    match Der.expectSmall? 0x10000 content with
    | some (0, fields) =>
      match readMagnitudes? 8 fields with
      | some ([n, e, d, p, q, dP, dQ, inverse], []) =>
        let key : RsaKey := ⟨n, e, d, p, q, dP, dQ, inverse⟩
        if key.isConsistent then some key else none
      | _ => none
    | _ => none
  | _ => none

def publicPart (key : RsaKey) : Bytes :=
  Der.encode Der.sequenceTag
    (Der.encodeMagnitude key.modulus ++ Der.encodeMagnitude key.publicExponent)

end RsaKey

end LocalNet.Keys
