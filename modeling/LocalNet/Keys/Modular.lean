/-!
Arithmetic modulo a number.
-/

namespace LocalNet.Keys

def powerMod (modulus base exponent : Nat) : Nat :=
  if exponent = 0 then 1 % modulus
  else
    let half := powerMod modulus (base * base % modulus) (exponent / 2)
    if exponent % 2 = 0 then half else half * base % modulus
  termination_by exponent

/-- The inverse modulo a prime, by the small theorem of Fermat. -/
def inverseMod (prime value : Nat) : Nat :=
  powerMod prime value (prime - 2)

def subMod (modulus left right : Nat) : Nat :=
  (left + (modulus - right % modulus)) % modulus

def bitsOf (value : Nat) : List Bool :=
  (Nat.toDigits 2 value).map (· = '1')

end LocalNet.Keys
