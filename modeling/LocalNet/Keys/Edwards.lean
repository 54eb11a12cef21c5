import LocalNet.Digest.Sha512
import LocalNet.Keys.Modular

/-!
Ed25519: the twisted Edwards curve over `2²⁵⁵ - 19`, and the public key of a seed.
-/

namespace LocalNet.Keys.Edwards

def prime : Nat := Nat.pow 2 255 - 19

def curveConstant : Nat :=
  0x52036cee2b6ffe738cc740797779e89800700a4d4141d8ab75eb4dca135978a3

def baseX : Nat :=
  0x216936d3cd6e53fec0a4e231fdd6dc5c692cc7609525a7b2c9562d608f25d51a

def baseY : Nat :=
  0x6666666666666666666666666666666666666666666666666666666666666658

/-- A point `(x / z, y / z)` with `t = x * y / z`. -/
structure Point where
  x : Nat
  y : Nat
  z : Nat
  t : Nat
  deriving DecidableEq, Repr

def neutral : Point := ⟨0, 1, 1, 0⟩

def base : Point := ⟨baseX, baseY, 1, baseX * baseY % prime⟩

def add (left right : Point) : Point :=
  let a := subMod prime left.y left.x * subMod prime right.y right.x % prime
  let b := (left.y + left.x) * (right.y + right.x) % prime
  let c := 2 * left.t * right.t * curveConstant % prime
  let d := 2 * left.z * right.z % prime
  let e := subMod prime b a
  let f := subMod prime d c
  let g := (d + c) % prime
  let h := (b + a) % prime
  ⟨e * f % prime, g * h % prime, f * g % prime, e * h % prime⟩

def multiply (scalar : Nat) (point : Point) : Point :=
  (bitsOf scalar).foldl
    (fun total bit =>
      let doubled := add total total
      if bit then add doubled point else doubled)
    neutral

/-- The second coordinate, least significant byte first, with the parity of the first on top. -/
def compressed (point : Point) : Bytes :=
  let inverse := inverseMod prime point.z
  let x := point.x * inverse % prime
  let y := point.y * inverse % prime
  (Bytes.ofNat 32 (y + x % 2 * Nat.pow 2 255)).reverse

/-- Three low bits are cleared, and the two high ones fixed. -/
def clamp (value : Nat) : Nat :=
  value % Nat.pow 2 254 / 8 * 8 + Nat.pow 2 254

def publicKey? (seed : Bytes) : Option Bytes :=
  if seed.length = 32 then
    let digest := (Digest.Sha512.hash seed).take 32
    some (compressed (multiply (clamp (Bytes.toNat digest.reverse)) base))
  else none

end LocalNet.Keys.Edwards
