import LocalNet.Bytes
import LocalNet.Keys.Modular

/-!
The two short Weierstrass curves that staking keys may lie on, `y² = x³ - 3x + b` over a prime
field, and the public point of a secret scalar.
-/

namespace LocalNet.Keys

structure Curve where
  /-- Bytes of a coordinate and of a scalar. -/
  width : Nat
  prime : Nat
  order : Nat
  baseX : Nat
  baseY : Nat
  /-- The identifier of the curve in key files. -/
  identifier : Bytes

namespace Curve

def p256 : Curve where
  width := 32
  prime := 0xffffffff00000001000000000000000000000000ffffffffffffffffffffffff
  order := 0xffffffff00000000ffffffffffffffffbce6faada7179e84f3b9cac2fc632551
  baseX := 0x6b17d1f2e12c4247f8bce6e563a440f277037d812deb33a0f4a13945d898c296
  baseY := 0x4fe342e2fe1a7f9b8ee7eb4a7c0f9e162bce33576b315ececbb6406837bf51f5
  identifier := [0x2A, 0x86, 0x48, 0xCE, 0x3D, 0x03, 0x01, 0x07]

def p384 : Curve where
  width := 48
  prime :=
    0xfffffffffffffffffffffffffffffffffffffffffffffffffffffffffffffffeffffffff0000000000000000ffffffff
  order :=
    0xffffffffffffffffffffffffffffffffffffffffffffffffc7634d81f4372ddf581a0db248b0a77aecec196accc52973
  baseX :=
    0xaa87ca22be8b05378eb1c71ef320ad746e1d3b628ba79b9859f741e082542a385502f25dbf55296c3a545e3872760ab7
  baseY :=
    0x3617de4a96262c6f5d9e98bf9292dc29f8f41dbd289a147ce9da3113b5f0b8c00a60b1ce1d7e819d7a431d7c90ea0e5f
  identifier := [0x2B, 0x81, 0x04, 0x00, 0x22]

end Curve

/-- A point `(x / z², y / z³)`, at infinity where `z` is zero. -/
structure Point where
  x : Nat
  y : Nat
  z : Nat
  deriving DecidableEq, Repr

namespace Point

def infinity : Point := ⟨1, 1, 0⟩

def base (curve : Curve) : Point := ⟨curve.baseX, curve.baseY, 1⟩

def double (curve : Curve) (point : Point) : Point :=
  let p := curve.prime
  let squareZ := point.z * point.z % p
  let squareY := point.y * point.y % p
  let cross := 4 * point.x * squareY % p
  let slope := 3 * (subMod p point.x squareZ) * (point.x + squareZ) % p
  let x := subMod p (slope * slope) (2 * cross)
  let y := subMod p (slope * (subMod p cross x)) (8 * squareY * squareY)
  ⟨x, y, 2 * point.y * point.z % p⟩

def add (curve : Curve) (left right : Point) : Point :=
  if left.z = 0 then right
  else if right.z = 0 then left
  else
    let p := curve.prime
    let leftZ2 := left.z * left.z % p
    let rightZ2 := right.z * right.z % p
    let leftX := left.x * rightZ2 % p
    let rightX := right.x * leftZ2 % p
    let leftY := left.y * rightZ2 * right.z % p
    let rightY := right.y * leftZ2 * left.z % p
    if leftX = rightX then
      if leftY = rightY then double curve left else infinity
    else
      let h := subMod p rightX leftX
      let r := subMod p rightY leftY
      let h2 := h * h % p
      let h3 := h * h2 % p
      let v := leftX * h2 % p
      let x := subMod p (r * r) (h3 + 2 * v)
      let y := subMod p (r * (subMod p v x)) (leftY * h3)
      ⟨x, y, h * left.z * right.z % p⟩

def multiply (curve : Curve) (scalar : Nat) (point : Point) : Point :=
  (bitsOf scalar).foldl
    (fun total bit =>
      let doubled := double curve total
      if bit then add curve doubled point else doubled)
    infinity

/-- The form with a leading four and both coordinates. -/
def uncompressed (curve : Curve) (point : Point) : Bytes :=
  let p := curve.prime
  let inverse := inverseMod p point.z
  let square := inverse * inverse % p
  4 :: (Bytes.ofNat curve.width (point.x * square % p) ++
    Bytes.ofNat curve.width (point.y * square * inverse % p))

end Point

/-- The public point of a secret scalar of the curve's width, from one up to below the order. -/
def Curve.publicPoint? (curve : Curve) (secret : Bytes) : Option Bytes :=
  let scalar := Bytes.toNat secret
  if secret.length = curve.width && 0 < scalar && scalar < curve.order then
    some (Point.uncompressed curve (Point.multiply curve scalar (Point.base curve)))
  else none

end LocalNet.Keys
