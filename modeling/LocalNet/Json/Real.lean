import LocalNet.Decimal.Shortest

/-!
Real numbers of JSON documents, kept as the bits of a double: their value from a decimal
significand and exponent, and their shortest texts.
-/

namespace LocalNet.Json.Real

def fraction (bits : UInt64) : Nat :=
  bits.toNat % Nat.pow 2 52

def biasedExponent (bits : UInt64) : Nat :=
  bits.toNat / Nat.pow 2 52 % Nat.pow 2 11

def isNegative (bits : UInt64) : Bool :=
  Nat.pow 2 63 ≤ bits.toNat

def isZero (bits : UInt64) : Bool :=
  bits.toNat % Nat.pow 2 63 = 0

def powerOfTen (exponent : Nat) : Float :=
  Float.ofScientific 1 false exponent

/-- Multiplies or divides by a power of ten in one rounding step where the power is itself a
double, and in steps of `10 ^ 308` below that. Nothing but zero survives four such steps. -/
def scaled? (value : Float) : (steps : Nat) → (exponent : Int) → Option Float
  | 0, _ => some value
  | steps + 1, exponent =>
    if exponent.natAbs ≤ 308 then
      if 0 ≤ exponent then
        let product := value * powerOfTen exponent.toNat
        if product.isInf then none else some product
      else some (value / powerOfTen exponent.natAbs)
    else if value == 0 then some value
    else if 0 ≤ exponent then none
    else scaled? (value / powerOfTen 308) steps (exponent + 308)

/-- The double of `significand * 10 ^ exponent`, absent where it would be infinite. -/
def ofParts? (negative : Bool) (significand : UInt64) (exponent : Int) : Option UInt64 :=
  (scaled? significand.toFloat 4 exponent).map fun value =>
    (if negative then -value else value).toBits

def zero (negative : Bool) : UInt64 :=
  if negative then 0x8000000000000000 else 0

def ofInteger (negative : Bool) (magnitude : UInt64) : UInt64 :=
  (if negative then -magnitude.toFloat else magnitude.toFloat).toBits

def sign (bits : UInt64) : String :=
  if isNegative bits then "-" else ""

def zeros (count : Nat) : String :=
  String.ofList (List.replicate count '0')

def pointed (digits : String) (whole : Nat) : String :=
  String.ofList (digits.toList.take whole) ++ "." ++ String.ofList (digits.toList.drop whole)

/-- Every digit stands at its place, and a whole number ends in `.0`. -/
def positional (digits : String) (exponent : Int) : String :=
  let point : Int := digits.length + exponent
  if 0 ≤ exponent then digits ++ zeros exponent.toNat ++ ".0"
  else if 0 < point then pointed digits point.toNat
  else "0." ++ zeros (-point).toNat ++ digits

def exponential (digits : String) (exponent : Int) : String :=
  let power := toString ((digits.length : Int) + exponent - 1)
  if digits.length = 1 then digits ++ "e" ++ power
  else pointed digits 1 ++ "e" ++ power

/-- The written form in documents: positional from `1e-5` up to below `1e16`. -/
def text (bits : UInt64) : String :=
  if isZero bits then sign bits ++ "0.0"
  else
    let decimal := Decimal.shortest (fraction bits) (biasedExponent bits)
    let digits := toString decimal.digits
    let point : Int := digits.length + decimal.exponent
    sign bits ++
      (if -5 < point && point ≤ 16 then positional digits decimal.exponent
        else exponential digits decimal.exponent)

/-- The form in messages, which never uses an exponent. -/
def plainText (bits : UInt64) : String :=
  if isZero bits then sign bits ++ "0.0"
  else
    let decimal := Decimal.shortest (fraction bits) (biasedExponent bits)
    sign bits ++ positional (toString decimal.digits) decimal.exponent

end LocalNet.Json.Real
