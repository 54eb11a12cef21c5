/-!
Names in letters of any script, written in ASCII. The basic characters come first; for each of the
others, in ascending order, a numeral says how far it is from the one before, counted in places
where it could stand.
-/

namespace LocalNet.Text.Punycode

def base : Nat := 36

def digit (value : Nat) : Char :=
  Char.ofNat (if value < 26 then 97 + value else 22 + value)

/-- The least digit that does not end a numeral at a place. -/
def threshold (place bias : Nat) : Nat :=
  max 1 (min 26 (place - bias))

theorem threshold_pos (place bias : Nat) : 1 ≤ threshold place bias := by
  unfold threshold
  omega

/-- A number in digits of growing weight, the least first. -/
def numeral (bias place value : Nat) : List Char :=
  let least := threshold place bias
  if value < least then [digit value]
  else
    digit (least + (value - least) % (base - least)) ::
      numeral bias (place + base) ((value - least) / (base - least))
termination_by value
decreasing_by
  have := threshold_pos place bias
  exact Nat.lt_of_le_of_lt (Nat.div_le_self _ _) (by omega)

/-- How often a distance can be divided before the numerals for such distances are short. -/
def settle (distance place : Nat) : Nat :=
  if 455 < distance then settle (distance / 35) (place + base)
  else place + base * distance / (distance + 38)
termination_by distance
decreasing_by exact Nat.div_lt_self (by omega) (by omega)

/-- The bias for the next numeral, after one of so many characters. -/
def adapt (distance count : Nat) (isFirst : Bool) : Nat :=
  let damped := if isFirst then distance / 700 else distance / 2
  settle (damped + damped / count) 0

structure Progress where
  distance : Nat := 0
  bias : Nat := 72
  written : Nat
  output : List Char := []

def pass (basics code : Nat) (progress : Progress) (char : Char) : Progress :=
  if char.toNat < code then { progress with distance := progress.distance + 1 }
  else if char.toNat = code then
    { distance := 0
      bias := adapt progress.distance (progress.written + 1) (progress.written = basics)
      written := progress.written + 1
      output := progress.output ++ numeral progress.bias base progress.distance }
  else progress

def insert (chars : List Char) (basics : Nat) (state : Nat × Progress) (code : Nat) :
    Nat × Progress :=
  let (next, progress) := state
  let start :=
    { progress with distance := progress.distance + (code - next) * (progress.written + 1) }
  let passed := chars.foldl (pass basics code) start
  (code + 1, { passed with distance := passed.distance + 1 })

def isBasic (char : Char) : Bool :=
  char.toNat < 128

def encode (chars : List Char) : List Char :=
  let basics := chars.filter isBasic
  let codes := ((chars.filter (!isBasic ·)).map Char.toNat).mergeSort.eraseDups
  let start : Nat × Progress := (128, { written := basics.length })
  basics ++ (if basics.isEmpty then [] else ['-']) ++
    (codes.foldl (insert chars basics.length) start).2.output

def digitValue? (char : Char) : Option Nat :=
  if char.isLower then some (char.toNat - 97)
  else if char.isUpper then some (char.toNat - 65)
  else if char.isDigit then some (char.toNat - 22)
  else none

def takeNumeral (bias : Nat) : (place weight total : Nat) → List Char → Option (Nat × List Char)
  | _, _, _, [] => none
  | place, weight, total, char :: rest =>
    match digitValue? char with
    | none => none
    | some value =>
      let least := threshold place bias
      let sum := total + value * weight
      if value < least then some (sum, rest)
      else takeNumeral bias (place + base) (weight * (base - least)) sum rest

/-- Puts one more character into its place for each numeral. The distance counts from `place` and
the code `next`. -/
def place? : (fuel : Nat) → (bias next place : Nat) → List Char → List Char → Option (List Char)
  | _, _, _, _, chars, [] => some chars
  | 0, _, _, _, _, _ => none
  | fuel + 1, bias, next, place, chars, numerals =>
    match takeNumeral bias base 1 0 numerals with
    | none => none
    | some (distance, rest) =>
      let count := chars.length + 1
      let code := next + (place + distance) / count
      let position := (place + distance) % count
      if code.isValidChar then
        place? fuel (adapt distance count (chars.all isBasic)) code (position + 1)
          (chars.insertIdx position (Char.ofNat code)) rest
      else none

/-- Reads a name back; the last hyphen ends the basic characters. -/
def decode? (text : List Char) : Option (List Char) :=
  let numerals := (text.reverse.takeWhile (· ≠ '-')).reverse
  let basics := text.take (text.length - numerals.length - 1)
  if basics.all isBasic then place? numerals.length 72 128 0 basics numerals else none

end LocalNet.Text.Punycode
