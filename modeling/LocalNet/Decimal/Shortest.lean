/-!
Shortest decimals. A binary fraction `mantissa * 2 ^ exponent` is the nearest representable
number for an interval of reals, and is written with the fewest digits that fall inside it: the
coarsest power-of-ten grid with a point in the interval supplies them, and of several points the
nearest is taken.
-/

namespace LocalNet.Decimal

/-- A positive number `digits * 10 ^ exponent`. -/
structure Scaled where
  digits : Nat
  exponent : Int
  deriving DecidableEq, Repr

/-- A positive ratio of naturals, with its reading interval as distances below and above it over
the same denominator. -/
structure Neighbourhood where
  numerator : Nat
  denominator : Nat
  below : Nat
  above : Nat
  closed : Bool

def Neighbourhood.holds (span : Neighbourhood) (numerator denominator : Nat) : Bool :=
  let left := numerator * span.denominator
  let low := (span.numerator - span.below) * denominator
  let high := (span.numerator + span.above) * denominator
  if span.closed then low ≤ left && left ≤ high else low < left && left < high

def distance (left right : Nat) : Nat :=
  (left - right) + (right - left)

/-- The nearest point of the grid of multiples of `10 ^ exponent` inside the interval. -/
def Neighbourhood.gridPoint? (span : Neighbourhood) (exponent : Int) : Option Nat :=
  let up := Nat.pow 10 exponent.toNat
  let down := Nat.pow 10 (-exponent).toNat
  let lower := span.numerator * down / (span.denominator * up)
  let fits := fun digits => 0 < digits && span.holds (digits * up) down
  let gap := fun digits => distance (digits * up * span.denominator) (span.numerator * down)
  match fits lower, fits (lower + 1) with
  | true, true => some (if gap (lower + 1) < gap lower then lower + 1 else lower)
  | true, false => some lower
  | false, true => some (lower + 1)
  | false, false => none

/-- Tries ever finer grids, starting above every double. -/
def Neighbourhood.coarsest (span : Neighbourhood) : (steps : Nat) → (exponent : Int) → Scaled
  | 0, exponent => ⟨span.numerator / span.denominator, exponent⟩
  | steps + 1, exponent =>
    match span.gridPoint? exponent with
    | some digits => ⟨digits, exponent⟩
    | none => span.coarsest steps (exponent - 1)

/-- The interval of a double given by its 52 fraction bits and its biased exponent. Just above a
power of two the lower neighbour is half as far away. -/
def Neighbourhood.ofDouble (fraction biased : Nat) : Neighbourhood :=
  let mantissa := if biased = 0 then fraction else fraction + Nat.pow 2 52
  let shift : Int := if biased = 0 then -1074 else (biased : Int) - 1075
  let scale := Nat.pow 2 shift.toNat
  { numerator := 4 * mantissa * scale
    denominator := 4 * Nat.pow 2 (-shift).toNat
    below := (if fraction = 0 && 1 < biased then 1 else 2) * scale
    above := 2 * scale
    closed := mantissa % 2 = 0 }

def shortest (fraction biased : Nat) : Scaled :=
  (Neighbourhood.ofDouble fraction biased).coarsest 660 310

end LocalNet.Decimal
