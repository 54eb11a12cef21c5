import LocalNet.Proofs.Json.Denoting
import LocalNet.Proofs.Json.Printing

/-!
# The numbers that are read

Whatever is read or passed over as a number is one by the grammar. It is an integer only where it is a
row of digits that fits in 64 bits, perhaps behind a minus sign; minus zero is none.
-/

namespace LocalNet.Json

variable {cursor place : Cursor}

/-! ## Digits -/

theorem at_digit_iff : cursor.atDigit = true ↔
    ∃ byte, cursor.peek = some byte ∧ Cursor.isDigit byte = true := by
  rw [Cursor.atDigit, Option.any_eq_true]

theorem digits_passed (cursor : Cursor) :
    ∃ digits, (∀ byte ∈ digits, Cursor.isDigit byte) ∧
      cursor.rest = digits ++ cursor.skipDigits.rest ∧ NoDigit cursor.skipDigits.rest := by
  have split : cursor.rest = cursor.rest.takeWhile Cursor.isDigit ++
      cursor.rest.dropWhile Cursor.isDigit := List.takeWhile_append_dropWhile.symm
  have all : ∀ byte ∈ cursor.rest.takeWhile Cursor.isDigit, Cursor.isDigit byte :=
    List.all_eq_true.mp List.all_takeWhile
  have ends : NoDigit (cursor.rest.dropWhile Cursor.isDigit) := by
    intro byte first
    have stop := List.head?_dropWhile_not Cursor.isDigit cursor.rest
    rw [first] at stop
    simpa using stop
  have behind := rest_skip_digits all ends split
  exact ⟨_, all, by rw [behind]; exact split, behind ▸ ends⟩

theorem digits_at {digits tail : Bytes} (all : ∀ byte ∈ digits, Cursor.isDigit byte)
    (split : cursor.rest = digits ++ tail) (ends : NoDigit tail) (begun : cursor.atDigit = true) :
    Digits digits := by
  refine ⟨?_, all⟩
  rintro rfl
  obtain ⟨byte, first, isDigit⟩ := at_digit_iff.mp begun
  rw [List.nil_append] at split
  rw [Cursor.peek_eq, split] at first
  rw [ends byte first] at isDigit
  cases isDigit

theorem absorbed_value {bytes : Bytes} {start count value size : Nat}
    (absorbed : absorbDigits start count bytes = (value, size)) :
    ∃ digits tail, bytes = digits ++ tail ∧ size = count + digits.length ∧
      value = decimalFrom start digits := by
  induction bytes generalizing start count with
  | nil =>
      cases absorbed
      exact ⟨[], [], rfl, rfl, rfl⟩
  | cons byte bytes induction =>
      rw [absorbDigits] at absorbed
      split at absorbed
      · obtain ⟨digits, tail, rfl, counted, found⟩ := induction absorbed
        refine ⟨byte :: digits, tail, rfl, ?_, found⟩
        rw [counted, List.length_cons]
        omega
      · cases absorbed
        exact ⟨[], byte :: bytes, rfl, rfl, rfl⟩

/-! ## Exponents -/

theorem exponent_value_passed {bytes : Bytes} {start count value size : Nat}
    (counted : exponentValue start count bytes = .ok (value, size)) :
    ∃ digits tail, bytes = digits ++ tail ∧ (∀ byte ∈ digits, Cursor.isDigit byte) ∧
      size = count + digits.length ∧ NoDigit tail := by
  induction bytes generalizing start count with
  | nil =>
      cases counted
      exact ⟨[], [], rfl, List.forall_mem_nil _, rfl, fun _ none => by cases none⟩
  | cons byte bytes induction =>
      rw [exponentValue] at counted
      split at counted
      · rename_i isDigit
        dsimp only at counted
        split at counted
        · obtain ⟨digits, tail, rfl, all, counted, ends⟩ := induction counted
          refine ⟨byte :: digits, tail, rfl, List.forall_mem_cons.mpr ⟨isDigit, all⟩, ?_, ends⟩
          rw [counted, List.length_cons]
          omega
        · cases counted
      · rename_i noDigit
        cases counted
        exact ⟨[], byte :: bytes, rfl, List.forall_mem_nil _, rfl,
          no_digit_cons (by simpa using noDigit)⟩

theorem at_exponent_letter (begun : atExponent cursor = true) :
    ∃ letter, (letter = 0x65 ∨ letter = 0x45) ∧ cursor.rest = letter :: cursor.advance.rest := by
  simp only [atExponent, Bool.or_eq_true, decide_eq_true_eq] at begun
  rcases begun with small | large
  · exact ⟨0x65, .inl rfl, rest_of_peek small⟩
  · exact ⟨0x45, .inr rfl, rest_of_peek large⟩

/-- Behind the letter of an exponent, and behind its sign if it has one. -/
def behindSign (cursor : Cursor) : Cursor :=
  if (cursor.advance.peek = some 0x2D || cursor.advance.peek = some 0x2B : Bool) then
    cursor.advance.advance
  else cursor.advance

theorem exponent_of_digits {digits tail : Bytes} (begun : atExponent cursor = true)
    (isDigits : Digits digits) (split : (behindSign cursor).rest = digits ++ tail) :
    ∃ power, Exponent power ∧ cursor.rest = power ++ tail := by
  obtain ⟨letter, isLetter, begins⟩ := at_exponent_letter begun
  obtain ⟨sign, isSign, rest⟩ : ∃ sign : Bytes, (sign = [] ∨ sign = [0x2B] ∨ sign = [0x2D]) ∧
      cursor.advance.rest = sign ++ (behindSign cursor).rest := by
    unfold behindSign
    by_cases minus : cursor.advance.peek = some 0x2D
    · exact ⟨[0x2D], .inr (.inr rfl), by
        simpa [-Cursor.peek_eq, -Cursor.rest_advance, minus] using rest_of_peek minus⟩
    · by_cases plus : cursor.advance.peek = some 0x2B
      · exact ⟨[0x2B], .inr (.inl rfl), by
          simpa [-Cursor.peek_eq, -Cursor.rest_advance, plus] using rest_of_peek plus⟩
      · exact ⟨[], .inl rfl, by simp [-Cursor.peek_eq, minus, plus]⟩
  refine ⟨letter :: (sign ++ digits), .letter isLetter isSign isDigits, ?_⟩
  rw [begins, rest, split]
  simp

theorem exponent_passed {negative : Bool} {significand : Nat} {start : Int} {number : Number}
    (begun : atExponent cursor = true)
    (read : readExponent negative significand start cursor = .ok (number, place)) :
    ∃ power, Exponent power ∧ cursor.rest = power ++ place.rest := by
  obtain ⟨atDigit, digits, all, rest, ends⟩ : (behindSign cursor).atDigit = true ∧
      ∃ digits : Bytes, (∀ byte ∈ digits, Cursor.isDigit byte) ∧
        (behindSign cursor).rest = digits ++ place.rest ∧ NoDigit place.rest := by
    unfold readExponent at read
    dsimp only at read
    generalize signed : (if (cursor.advance.peek = some 0x2D || cursor.advance.peek = some 0x2B : Bool)
      then cursor.advance.advance else cursor.advance) = inner at read
    have same : behindSign cursor = inner := signed
    rw [same]
    split at read
    · cases read
    · rename_i first begun
      split at read
      · rename_i isDigit
        refine ⟨at_digit_iff.mpr ⟨first, begun, isDigit⟩, ?_⟩
        split at read
        · rename_i value count counted
          obtain ⟨digits, tail, split, all, size, ends⟩ := exponent_value_passed counted
          have stays : place = inner.advanceBy count := by
            rw [realAt] at read
            split at read <;> cases read
            rfl
          have behind : place.rest = tail := by
            rw [stays, Cursor.rest_advance_by, split, size, Nat.zero_add, List.drop_left]
          exact ⟨digits, all, behind ▸ split, behind ▸ ends⟩
        · split at read
          · cases read
          · cases read
            exact digits_passed inner
      · cases read
  exact exponent_of_digits begun (digits_at all rest ends atDigit) rest

theorem power_passed {negative : Bool} {significand : Nat} {start : Int} {number : Number}
    (read : (if atExponent cursor then readExponent negative significand start cursor
      else realAt negative significand start cursor) = .ok (number, place)) :
    ∃ power, Exponent power ∧ cursor.rest = power ++ place.rest := by
  split at read
  · rename_i begun
    exact exponent_passed begun read
  · refine ⟨[], .none, ?_⟩
    rw [realAt] at read
    split at read <;> cases read
    rfl

/-! ## Numbers -/

theorem places_passed {negative : Bool} {significand : Nat} {start : Int} {number : Number}
    (point : cursor.peek = some 0x2E)
    (read : readPlaces negative significand start cursor = .ok (number, place)) :
    ∃ places power, Places places ∧ Exponent power ∧
      cursor.rest = places ++ (power ++ place.rest) := by
  obtain ⟨digits, all, split, ends⟩ := digits_passed cursor.advance
  unfold readPlaces at read
  dsimp only at read
  rw [split, absorb_digits_append _ _ ends] at read
  rcases absorbed : absorbDigits significand 0 digits with ⟨value, count⟩
  rw [absorbed] at read
  have following := rest_behind_absorbed absorbed split
  have remaining : ∀ byte ∈ digits.drop count, Cursor.isDigit byte :=
    fun byte member => all byte (List.mem_of_mem_drop member)
  have behind := rest_skip_digits remaining ends following
  split at read
  · split at read <;> cases read
  · rename_i goesOn
    obtain ⟨power, isExponent, rest⟩ := power_passed read
    rw [behind] at rest
    have some : digits ≠ [] := by
      rintro rfl
      obtain rfl : count = 0 := by
        have bound := absorbed_le significand 0 []
        rw [absorbed] at bound
        exact Nat.le_zero.mp bound
      refine goesOn ?_
      have none : cursor.advance.atDigit = false := by
        rw [Bool.eq_false_iff]
        intro begun
        obtain ⟨byte, first, isDigit⟩ := at_digit_iff.mp begun
        rw [List.nil_append] at split
        rw [Cursor.peek_eq, split] at first
        rw [ends byte first] at isDigit
        cases isDigit
      simp [Cursor.advanceBy, none]
    refine ⟨0x2E :: digits, power, .point ⟨some, all⟩, isExponent, ?_⟩
    rw [rest_of_peek point, split, rest, List.cons_append]

theorem real_tail_passed {negative : Bool} {significand : Nat} {start : Int} {number : Number}
    (read : readRealTail negative significand start cursor = .ok (number, place)) :
    ∃ places power, Places places ∧ Exponent power ∧
      cursor.rest = places ++ (power ++ place.rest) := by
  rw [readRealTail] at read
  split at read
  · rename_i point
    exact places_passed point read
  · obtain ⟨power, isExponent, rest⟩ := power_passed read
    exact ⟨[], power, .none, isExponent, rest⟩

theorem leading_zero_alone {digits tail : Bytes} {first : UInt8}
    (split : cursor.rest = digits ++ tail) (begun : cursor.peek = some first)
    (all : ∀ byte ∈ digits, Cursor.isDigit byte)
    (plain : ¬(first = 0x30 && cursor.advance.atDigit) = true) :
    digits.head? = some 0x30 → digits = [0x30] := by
  intro zero
  rcases digits with _ | ⟨byte, _ | ⟨next, more⟩⟩
  · cases zero
  · cases zero
    rfl
  · cases zero
    have isZero : first = 0x30 := by
      rw [Cursor.peek_eq, split] at begun
      cases begun
      rfl
    have later : cursor.advance.atDigit = true :=
      at_digit_iff.mpr ⟨next, by simp [split], all next (by simp)⟩
    exact absurd (by simp [isZero, later]) plain

theorem real_tail_real {negative : Bool} {significand : Nat} {start : Int} {number : Number}
    (read : readRealTail negative significand start cursor = .ok (number, place)) :
    ∃ bits, number = .real bits := by
  have real {significand : Nat} {exponent : Int} {cursor : Cursor}
      (read : realAt negative significand exponent cursor = .ok (number, place)) :
      ∃ bits, number = .real bits := by
    rw [realAt] at read
    split at read <;> cases read
    exact ⟨_, rfl⟩
  have exponent {significand : Nat} {start : Int} {cursor : Cursor}
      (read : readExponent negative significand start cursor = .ok (number, place)) :
      ∃ bits, number = .real bits := by
    unfold readExponent at read
    dsimp only at read
    split at read
    · cases read
    · split at read
      · split at read
        · exact real read
        · split at read <;> cases read
          exact ⟨_, rfl⟩
      · cases read
  rw [readRealTail] at read
  split at read
  · unfold readPlaces at read
    dsimp only at read
    split at read
    · split at read <;> cases read
    · split at read
      · exact exponent read
      · exact real read
  · split at read
    · exact exponent read
    · exact real read

/-- How a number is read: in whole, as the integer that its digits make, or as a double. -/
inductive NumberRead (negative : Bool) (cursor place : Cursor) : Number → Prop where
  | whole {digits : Bytes} (isWhole : Digits digits)
      (noLeadingZero : digits.head? = some 0x30 → digits = [0x30])
      (below : decimalFrom 0 digits < Nat.pow 2 64) (passed : cursor.rest = digits ++ place.rest) :
      NumberRead negative cursor place (wholeNumber negative (decimalFrom 0 digits))
  | real {whole places power : Bytes} {bits : UInt64} (magnitude : Magnitude whole places power)
      (passed : cursor.rest = whole ++ (places ++ (power ++ place.rest))) :
      NumberRead negative cursor place (.real bits)

theorem number_read {negative : Bool} {number : Number}
    (read : readNumber negative cursor = .ok (number, place)) :
    NumberRead negative cursor place number := by
  obtain ⟨whole, all, split, ends⟩ := digits_passed cursor
  unfold readNumber at read
  split at read
  · cases read
  · rename_i first begun
    split at read
    · cases read
    · rename_i isDigit
      have isDigit : Cursor.isDigit first = true := by simpa using isDigit
      have isWhole := digits_at all split ends (at_digit_iff.mpr ⟨first, begun, isDigit⟩)
      split at read
      · cases read
      · rename_i plain
        have noLeadingZero := leading_zero_alone split begun all plain
        dsimp only at read
        rw [split, absorb_digits_append _ _ ends] at read
        rcases absorbed : absorbDigits 0 0 whole with ⟨value, count⟩
        rw [absorbed] at read
        have following := rest_behind_absorbed absorbed split
        have remaining : ∀ byte ∈ whole.drop count, Cursor.isDigit byte :=
          fun byte member => all byte (List.mem_of_mem_drop member)
        have counted := digit_count_eq remaining ends following
        dsimp only at read
        split at read
        · rename_i ended
          cases read
          simp only [Bool.and_eq_true, decide_eq_true_eq] at ended
          -- No digit is left, so that all of them make the value.
          have none : whole.drop count = [] := List.eq_nil_of_length_eq_zero
            (counted.symm.trans ended.1.1)
          obtain ⟨digits, tail, parts, size, found⟩ := absorbed_value absorbed
          have behind : (cursor.advanceBy count).rest = cursor.skipDigits.rest := by
            rw [following, none, List.nil_append]
          obtain rfl : tail = [] := by
            rwa [parts, size, Nat.zero_add, List.drop_left] at none
          rw [List.append_nil] at parts
          have below := @absorbed_lt 0 0 whole (by decide)
          rw [absorbed, found, ← parts] at below
          rw [found, ← parts]
          exact .whole isWhole noLeadingZero below (by rw [behind]; exact split)
        · obtain ⟨bits, rfl⟩ := real_tail_real read
          obtain ⟨places, power, isPlaces, isExponent, rest⟩ := real_tail_passed read
          have later : ((cursor.advanceBy count).advanceBy
              (cursor.advanceBy count).digitCount).rest = cursor.skipDigits.rest := by
            rw [Cursor.rest_advance_by, counted, following, List.drop_left]
          rw [later] at rest
          exact .real ⟨isWhole, noLeadingZero, isPlaces, isExponent⟩ (by rw [split, rest])

theorem number_passed {negative : Bool} {number : Number}
    (read : readNumber negative cursor = .ok (number, place)) :
    ∃ whole places power, Magnitude whole places power ∧
      cursor.rest = whole ++ (places ++ power) ++ place.rest := by
  cases number_read read with
  | @whole digits isWhole noLeadingZero below passed =>
      exact ⟨digits, [], [], ⟨isWhole, noLeadingZero, .none, .none⟩, by simpa using passed⟩
  | @real whole places power bits magnitude passed =>
      exact ⟨whole, places, power, magnitude, by simpa using passed⟩

/-! ## Integers -/

/-- A literal without places and exponent, and the integer that it writes. A minus sign before zero
makes none. -/
inductive Writes : (literal : Bytes) → (value : Int) → Prop where
  | unsigned {digits : Bytes} (isDigits : Digits digits) : Writes digits (decimalFrom 0 digits)
  | negative {digits : Bytes} (isDigits : Digits digits) (nonzero : decimalFrom 0 digits ≠ 0) :
      Writes (0x2D :: digits) (-decimalFrom 0 digits)

theorem writes_nat_iff {literal : Bytes} {value : Nat} :
    Writes literal value ↔ Digits literal ∧ decimalFrom 0 literal = value := by
  constructor
  · generalize same : (value : Int) = number
    intro writes
    cases writes with
    | unsigned isDigits => exact ⟨isDigits, by omega⟩
    | negative => omega
  · rintro ⟨isDigits, rfl⟩
    exact .unsigned isDigits

theorem Magnitude.whole_of_digits {whole places power : Bytes}
    (magnitude : Magnitude whole places power)
    (all : ∀ byte ∈ whole ++ (places ++ power), Cursor.isDigit byte) :
    places = [] ∧ power = [] := by
  obtain ⟨-, -, isPlaces, isExponent⟩ := magnitude
  constructor
  · cases isPlaces with
    | none => rfl
    | point => exact absurd (all 0x2E (by simp)) (by decide)
  · cases isExponent with
    | none => rfl
    | @letter letter _ _ isLetter =>
        have digit := all letter (by simp)
        rcases isLetter with rfl | rfl <;> cases digit

theorem Numeral.digits_plain {digits : Bytes} (numeral : Numeral digits)
    (isDigits : Digits digits) : digits.head? = some 0x30 → digits = [0x30] := by
  cases numeral with
  | unsigned magnitude =>
      obtain ⟨rfl, rfl⟩ := magnitude.whole_of_digits isDigits.2
      simpa using magnitude.noLeadingZero
  | negative => exact absurd (isDigits.2 0x2D (by simp)) (by decide)

theorem Numeral.signed_plain {digits : Bytes} (numeral : Numeral (0x2D :: digits))
    (isDigits : Digits digits) : digits.head? = some 0x30 → digits = [0x30] := by
  generalize same : 0x2D :: digits = literal at numeral
  cases numeral with
  | unsigned magnitude =>
      obtain ⟨first, more, rfl, isDigit⟩ := magnitude.isWhole.first
      obtain rfl : (0x2D : UInt8) = first := (List.cons.inj same).1
      cases isDigit
  | negative magnitude =>
      obtain rfl : digits = _ := (List.cons.inj same).2
      obtain ⟨rfl, rfl⟩ := magnitude.whole_of_digits isDigits.2
      simpa using magnitude.noLeadingZero

theorem number_of_unsigned {first : UInt8} {more : Bytes} (noSign : first ≠ 0x2D) :
    numberOf? (first :: more) =
      (readNumber false (Cursor.start (first :: more))).seen.map Prod.fst := by
  rw [numberOf?]
  rintro magnitude same
  exact noSign (List.cons.inj same).1

theorem integer_of_read {negative : Bool} {literal : Bytes} {value : Int}
    (seen : (readNumber negative (Cursor.start literal)).seen = some (.integer value, [])) :
    Digits literal ∧ decimalFrom 0 literal < Nat.pow 2 64 ∧
      wholeNumber negative (decimalFrom 0 literal) = .integer value := by
  rcases read : readNumber negative (Cursor.start literal) with failure | ⟨number, place⟩
  · rw [read] at seen
    cases seen
  · rw [read] at seen
    obtain ⟨rfl, ending⟩ : number = .integer value ∧ place.rest = [] := by simpa using seen
    generalize same : Number.integer value = number at read ⊢
    cases number_read read with
    | @whole digits isWhole _ below passed =>
        rw [ending, List.append_nil] at passed
        obtain rfl : literal = digits := passed
        exact ⟨isWhole, below, rfl⟩
    | real => cases same

theorem whole_number_integer_iff {negative : Bool} {magnitude : Nat} {value : Int} :
    wholeNumber negative magnitude = .integer value ↔
      (negative = false ∧ value = magnitude) ∨
        (negative = true ∧ magnitude ≠ 0 ∧ magnitude ≤ Nat.pow 2 63 ∧ value = -magnitude) := by
  cases negative with
  | false => simp [wholeNumber, eq_comm]
  | true =>
      simp only [wholeNumber, if_true]
      split
      · rename_i beyond
        simp only [Bool.or_eq_true, decide_eq_true_eq] at beyond
        have power : Nat.pow 2 63 = 9223372036854775808 := rfl
        simp only [reduceCtorEq, Bool.true_eq_false, false_and, true_and, false_or, false_iff]
        omega
      · rename_i within
        simp only [Bool.or_eq_true, decide_eq_true_eq, not_or] at within
        have power : Nat.pow 2 63 = 9223372036854775808 := rfl
        simp only [Number.integer.injEq, Bool.true_eq_false, false_and, true_and, false_or]
        omega

/-- An integer is read from the literals of whole numbers that 64 bits can hold, with a sign or
without, and from no others. -/
theorem number_of_integer_iff {literal : Bytes} (numeral : Numeral literal) {value : Int} :
    numberOf? literal = some (.integer value) ↔
      Writes literal value ∧ -Nat.pow 2 63 ≤ value ∧ value < Nat.pow 2 64 := by
  have half : Nat.pow 2 63 = 9223372036854775808 := rfl
  have power : Nat.pow 2 64 = 18446744073709551616 := rfl
  constructor
  · intro known
    cases reads_numeral numeral with
    | unsigned split isDigit reads =>
        have seen := reads (Cursor.start literal) [] delimited_nil (List.append_nil _).symm
        rw [known] at seen
        obtain ⟨isDigits, below, whole⟩ := integer_of_read seen
        rcases whole_number_integer_iff.mp whole with ⟨-, rfl⟩ | ⟨sign, -⟩
        · exact ⟨.unsigned isDigits, by omega, by omega⟩
        · cases sign
    | @negative magnitude split reads =>
        have seen := reads (Cursor.start magnitude) [] delimited_nil (List.append_nil _).symm
        rw [known] at seen
        obtain ⟨isDigits, below, whole⟩ := integer_of_read seen
        rcases whole_number_integer_iff.mp whole with ⟨sign, -⟩ | ⟨-, nonzero, within, rfl⟩
        · cases sign
        · rw [split]
          exact ⟨.negative isDigits nonzero, by omega, by omega⟩
  · rintro ⟨writes, least, greatest⟩
    cases writes with
    | unsigned isDigits =>
        obtain ⟨first, more, split, isDigit⟩ := isDigits.first
        have read := whole_literal_read isDigits (numeral.digits_plain isDigits) false (by omega)
        have noSign : first ≠ 0x2D := digit_ne isDigit 0x2D rfl
        rw [split] at read ⊢
        rw [number_of_unsigned noSign, read]
        rfl
    | @negative digits isDigits nonzero =>
        have read := whole_literal_read isDigits (numeral.signed_plain isDigits) true (by omega)
        have whole := whole_number_integer_iff.mpr
          (.inr ⟨rfl, nonzero, by omega, rfl⟩ : _ ∨ true = true ∧ _ ∧ _ ∧ _)
        rw [numberOf?, read, whole]
        rfl

/-! ## Numbers that are passed over -/

theorem skip_exponent_passed (begun : atExponent cursor = true)
    (read : skipExponent cursor = .ok ((), place)) :
    ∃ power, Exponent power ∧ cursor.rest = power ++ place.rest := by
  unfold skipExponent at read
  dsimp only at read
  rw [← behindSign] at read
  split at read
  · rename_i atDigit
    cases read
    obtain ⟨digits, all, split, ends⟩ := digits_passed (behindSign cursor)
    exact exponent_of_digits begun (digits_at all split ends atDigit) split
  · cases read

theorem skip_power_passed (read : (if atExponent cursor then skipExponent cursor
      else .ok ((), cursor) : Reading Unit) = .ok ((), place)) :
    ∃ power, Exponent power ∧ cursor.rest = power ++ place.rest := by
  split at read
  · rename_i begun
    exact skip_exponent_passed begun read
  · cases read
    exact ⟨[], .none, rfl⟩

theorem skip_number_passed (read : skipNumber cursor = .ok ((), place)) :
    ∃ whole places power, Magnitude whole places power ∧
      cursor.rest = whole ++ (places ++ power) ++ place.rest := by
  obtain ⟨whole, all, split, ends⟩ := digits_passed cursor
  unfold skipNumber at read
  split at read
  · cases read
  · rename_i atDigit
    have atDigit : cursor.atDigit = true := by simpa using atDigit
    obtain ⟨first, begun, -⟩ := at_digit_iff.mp atDigit
    have isWhole := digits_at all split ends atDigit
    split at read
    · cases read
    · rename_i plain
      have plain : ¬(first = 0x30 && cursor.advance.atDigit) = true := by
        simpa [begun, -Cursor.peek_eq, -Cursor.rest_advance] using plain
      have noLeadingZero := leading_zero_alone split begun all plain
      dsimp only at read
      split at read
      · rename_i point
        split at read
        · cases read
        · rename_i atPlaces
          have atPlaces : cursor.skipDigits.advance.atDigit = true := by simpa using atPlaces
          obtain ⟨digits, all, inner, ends⟩ := digits_passed cursor.skipDigits.advance
          have isPlaces := digits_at all inner ends atPlaces
          obtain ⟨power, isExponent, rest⟩ := skip_power_passed read
          refine ⟨whole, 0x2E :: digits, power,
            ⟨isWhole, noLeadingZero, .point isPlaces, isExponent⟩, ?_⟩
          rw [split, rest_of_peek point, inner, rest]
          simp
      · obtain ⟨power, isExponent, rest⟩ := skip_power_passed read
        refine ⟨whole, [], power, ⟨isWhole, noLeadingZero, .none, isExponent⟩, ?_⟩
        rw [split, rest]
        simp

end LocalNet.Json
