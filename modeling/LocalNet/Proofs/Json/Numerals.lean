import LocalNet.Proofs.Json.Reading

/-!
# Number literals

A reader of numbers takes as many digits as there are, so a literal is read alike wherever no digit,
point or exponent follows it.
-/

namespace LocalNet.Json

def NoDigit (bytes : Bytes) : Prop :=
  ∀ byte, bytes.head? = some byte → Cursor.isDigit byte = false

theorem no_digit_cons {byte : UInt8} {bytes : Bytes} (other : Cursor.isDigit byte = false) :
    NoDigit (byte :: bytes) := by
  intro first same
  cases same
  exact other

theorem Delimited.no_digit {rest : Bytes} (delimited : Delimited rest) : NoDigit rest := by
  intro byte same
  rcases delimited byte same with blank | rfl | rfl | rfl
  · simp only [Cursor.isBlank, Bool.or_eq_true, decide_eq_true_eq] at blank
    rcases blank with ((rfl | rfl) | rfl) | rfl <;> rfl
  all_goals rfl

theorem Delimited.no_point {rest : Bytes} (delimited : Delimited rest) :
    rest.head? ≠ some 0x2E ∧ rest.head? ≠ some 0x65 ∧ rest.head? ≠ some 0x45 := by
  refine ⟨?_, ?_, ?_⟩ <;> intro same <;>
    rcases delimited _ same with blank | same | same | same <;> contradiction

/-! ## Digits -/

section Digits

variable {digits tail : Bytes}

theorem take_digits (all : ∀ byte ∈ digits, Cursor.isDigit byte) (ends : NoDigit tail) :
    (digits ++ tail).takeWhile Cursor.isDigit = digits := by
  rw [List.takeWhile_append_of_pos all]
  cases tail with
  | nil => simp
  | cons byte tail => simp [ends byte rfl]

theorem digit_count_eq {cursor : Cursor} (all : ∀ byte ∈ digits, Cursor.isDigit byte)
    (ends : NoDigit tail) (given : cursor.rest = digits ++ tail) :
    cursor.digitCount = digits.length := by
  rw [Cursor.digitCount, given, take_digits all ends]

theorem rest_skip_digits {cursor : Cursor} (all : ∀ byte ∈ digits, Cursor.isDigit byte)
    (ends : NoDigit tail) (given : cursor.rest = digits ++ tail) :
    cursor.skipDigits.rest = tail := by
  rw [Cursor.skipDigits, digit_count_eq all ends given, Cursor.rest_advance_by, given,
    List.drop_left]

theorem absorb_digits_append (value count : Nat) (ends : NoDigit tail) :
    absorbDigits value count (digits ++ tail) = absorbDigits value count digits := by
  induction digits generalizing value count with
  | nil =>
      cases tail with
      | nil => rfl
      | cons byte tail => simp [absorbDigits, ends byte rfl]
  | cons digit digits induction =>
      simp only [List.cons_append, absorbDigits]
      rw [induction]

theorem absorbed_le (value count : Nat) (digits : Bytes) :
    (absorbDigits value count digits).2 ≤ count + digits.length := by
  induction digits generalizing value count with
  | nil => simp [absorbDigits]
  | cons digit digits induction =>
      simp only [absorbDigits, List.length_cons]
      split
      · have bounds := induction (value * 10 + Cursor.digitValue digit) (count + 1)
        omega
      · simp

theorem rest_behind_absorbed {cursor : Cursor} {significand value count : Nat}
    (absorbed : absorbDigits significand 0 digits = (value, count))
    (given : cursor.rest = digits ++ tail) :
    (cursor.advanceBy count).rest = digits.drop count ++ tail := by
  have bound := absorbed_le significand 0 digits
  rw [absorbed, Nat.zero_add] at bound
  rw [Cursor.rest_advance_by, given, List.drop_append_of_le_length bound]

theorem exponent_value_append (value count : Nat) (ends : NoDigit tail) :
    exponentValue value count (digits ++ tail) = exponentValue value count digits := by
  induction digits generalizing value count with
  | nil =>
      cases tail with
      | nil => rfl
      | cons byte tail => simp [exponentValue, ends byte rfl]
  | cons digit digits induction =>
      simp only [List.cons_append, exponentValue]
      rw [induction]

theorem exponent_value_count {value count found size : Nat}
    (all : ∀ byte ∈ digits, Cursor.isDigit byte)
    (counted : exponentValue value count digits = .ok (found, size)) :
    size = count + digits.length := by
  induction digits generalizing value count with
  | nil =>
      cases counted
      rfl
  | cons digit digits induction =>
      rw [exponentValue, if_pos (all digit (by simp))] at counted
      dsimp only at counted
      split at counted
      · have later := induction (fun byte member => all byte (by simp [member])) counted
        rw [later, List.length_cons]
        omega
      · cases counted

end Digits

/-! ## Literals that are kept -/

theorem seen_real_at (negative : Bool) (significand : Nat) (exponent : Int) (cursor : Cursor) :
    (realAt negative significand exponent cursor).seen =
      ((Real.ofParts? negative (UInt64.ofNat significand) exponent).map Number.real).map
        (·, cursor.rest) := by
  rw [realAt]
  cases Real.ofParts? negative (UInt64.ofNat significand) exponent <;> rfl

theorem exponent_digits_begin {letter : UInt8} {sign digits tail : Bytes} {cursor : Cursor}
    (isSign : sign = [] ∨ sign = [0x2B] ∨ sign = [0x2D]) (isDigits : Digits digits)
    (given : cursor.rest = letter :: (sign ++ digits) ++ tail) :
    (cursor.advance.peek = some 0x2D ↔ sign = [0x2D]) ∧
      (cursor.advance.peek = some 0x2B ↔ sign = [0x2B]) ∧
      (if sign = [0x2D] ∨ sign = [0x2B] then cursor.advance.advance else cursor.advance).rest =
        digits ++ tail := by
  obtain ⟨first, more, rfl, isDigit⟩ := isDigits.first
  have noMinus : first ≠ 0x2D := by
    rintro rfl
    cases isDigit
  have noPlus : first ≠ 0x2B := by
    rintro rfl
    cases isDigit
  rcases isSign with rfl | rfl | rfl <;> simp [given, noMinus, noPlus]

/-- The number with a counted exponent, or with one that is too large to count. -/
def numberWith? (negative : Bool) (significand : Nat) (start : Int) (lowers : Bool) :
    (exponent : Except Nat (Nat × Nat)) → Option Number
  | .ok (value, _) =>
    (Real.ofParts? negative (UInt64.ofNat significand)
      (if lowers then start - value else start + value)).map .real
  | .error _ =>
    if significand ≠ 0 && !lowers then none else some (.real (Real.zero negative))

theorem exponent_settled (negative : Bool) (significand : Nat) (start : Int) {letter : UInt8}
    {sign digits : Bytes} (isSign : sign = [] ∨ sign = [0x2B] ∨ sign = [0x2D])
    (isDigits : Digits digits) :
    ∃ outcome : Option Number, ∀ (cursor : Cursor) (tail : Bytes), NoDigit tail →
      cursor.rest = letter :: (sign ++ digits) ++ tail →
      (readExponent negative significand start cursor).seen = outcome.map (·, tail) := by
  refine ⟨numberWith? negative significand start (sign = [0x2D]) (exponentValue 0 0 digits),
    fun cursor tail ends given => ?_⟩
  obtain ⟨lowers, raises, begins⟩ := exponent_digits_begin isSign isDigits given
  obtain ⟨first, more, split, isDigit⟩ := isDigits.first
  unfold readExponent
  simp only [lowers, raises, Bool.or_eq_true, decide_eq_true_eq]
  generalize (if sign = [0x2D] ∨ sign = [0x2B] then cursor.advance.advance else cursor.advance) =
    place at begins ⊢
  have head : place.peek = some first := by simp [begins, split]
  simp only [head, if_pos isDigit, begins]
  rw [exponent_value_append 0 0 ends]
  cases counted : exponentValue 0 0 digits with
  | ok found =>
      obtain ⟨value, count⟩ := found
      have all := exponent_value_count isDigits.2 counted
      rw [Nat.zero_add] at all
      subst all
      simp only [numberWith?, decide_eq_true_eq]
      rw [seen_real_at, Cursor.rest_advance_by, begins, List.drop_left]
  | error count =>
      simp only [numberWith?]
      split
      · rfl
      · rw [Reading.seen_ok, rest_skip_digits isDigits.2 ends begins]
        rfl

theorem Exponent.no_digit {power tail : Bytes} (isExponent : Exponent power)
    (delimited : Delimited tail) : NoDigit (power ++ tail) := by
  cases isExponent with
  | none => exact delimited.no_digit
  | letter isLetter =>
      rcases isLetter with rfl | rfl <;> exact no_digit_cons rfl

theorem Exponent.no_point {power tail : Bytes} (isExponent : Exponent power)
    (delimited : Delimited tail) : (power ++ tail).head? ≠ some 0x2E := by
  cases isExponent with
  | none => exact delimited.no_point.1
  | letter isLetter =>
      rcases isLetter with rfl | rfl <;> simp

theorem at_exponent_iff {power tail : Bytes} {cursor : Cursor} (isExponent : Exponent power)
    (delimited : Delimited tail) (given : cursor.rest = power ++ tail) :
    atExponent cursor = true ↔ power ≠ [] := by
  obtain ⟨-, noSmall, noLarge⟩ := delimited.no_point
  cases isExponent with
  | none =>
      rw [List.nil_append] at given
      simp [atExponent, given, noSmall, noLarge]
  | letter isLetter =>
      rcases isLetter with rfl | rfl <;> simp [atExponent, given]

/-- An exponent, or none, ends a number that has become a double. -/
theorem power_settled (negative : Bool) (significand : Nat) (exponent : Int) {power : Bytes}
    (isExponent : Exponent power) :
    ∃ outcome : Option Number, ∀ (cursor : Cursor) (tail : Bytes), Delimited tail →
      cursor.rest = power ++ tail →
      (if atExponent cursor then readExponent negative significand exponent cursor
        else realAt negative significand exponent cursor).seen = outcome.map (·, tail) := by
  have atPower (cursor : Cursor) (tail : Bytes) (delimited : Delimited tail)
      (given : cursor.rest = power ++ tail) : atExponent cursor = true ↔ power ≠ [] :=
    at_exponent_iff isExponent delimited given
  cases isExponent with
  | none =>
      refine ⟨(Real.ofParts? negative (UInt64.ofNat significand) exponent).map Number.real,
        fun cursor tail delimited given => ?_⟩
      rw [if_neg (by simp [atPower cursor tail delimited given]), seen_real_at, given,
        List.nil_append]
  | letter _ isSign isDigits =>
      obtain ⟨outcome, settled⟩ :=
        exponent_settled negative significand exponent isSign isDigits
      refine ⟨outcome, fun cursor tail delimited given => ?_⟩
      rw [if_pos (by simp [atPower cursor tail delimited given])]
      exact settled cursor tail delimited.no_digit given

theorem places_settled (negative : Bool) (significand : Nat) (start : Int) {digits power : Bytes}
    (isDigits : Digits digits) (isExponent : Exponent power) :
    ∃ outcome : Option Number, ∀ (cursor : Cursor) (tail : Bytes), Delimited tail →
      cursor.rest = 0x2E :: digits ++ (power ++ tail) →
      (readPlaces negative significand start cursor).seen = outcome.map (·, tail) := by
  rcases absorbed : absorbDigits significand 0 digits with ⟨value, count⟩
  obtain ⟨outcome, settled⟩ := power_settled negative value (start - count) isExponent
  refine ⟨outcome, fun cursor tail delimited given => ?_⟩
  have ends : NoDigit (power ++ tail) := isExponent.no_digit delimited
  have begins : cursor.advance.rest = digits ++ (power ++ tail) := by simp [given]
  have following := rest_behind_absorbed absorbed begins
  have goesOn : (decide (count = 0) && !(cursor.advance.advanceBy count).atDigit) = false := by
    rcases Nat.eq_zero_or_pos count with rfl | positive
    · obtain ⟨first, more, rfl, isDigit⟩ := isDigits.first
      simp [Cursor.atDigit, given, isDigit]
    · simp [Nat.pos_iff_ne_zero.mp positive]
  have remaining : ∀ byte ∈ digits.drop count, Cursor.isDigit byte :=
    fun byte member => isDigits.2 byte (List.mem_of_mem_drop member)
  unfold readPlaces
  simp only [begins, absorb_digits_append significand 0 ends, absorbed, goesOn]
  exact settled _ tail delimited (rest_skip_digits remaining ends following)

theorem real_tail_settled (negative : Bool) (significand : Nat) (exponent : Int)
    {places power : Bytes} (isPlaces : Places places) (isExponent : Exponent power) :
    ∃ outcome : Option Number, ∀ (cursor : Cursor) (tail : Bytes), Delimited tail →
      cursor.rest = places ++ (power ++ tail) →
      (readRealTail negative significand exponent cursor).seen = outcome.map (·, tail) := by
  cases isPlaces with
  | none =>
      obtain ⟨outcome, settled⟩ := power_settled negative significand exponent isExponent
      refine ⟨outcome, fun cursor tail delimited given => ?_⟩
      have noPoint : cursor.peek ≠ some 0x2E := by
        rw [Cursor.peek_eq, given]
        exact isExponent.no_point delimited
      rw [readRealTail, if_neg noPoint]
      exact settled cursor tail delimited given
  | point isDigits =>
      obtain ⟨outcome, settled⟩ :=
        places_settled negative significand exponent isDigits isExponent
      refine ⟨outcome, fun cursor tail delimited given => ?_⟩
      rw [readRealTail, if_pos (by simp [given])]
      exact settled cursor tail delimited given

theorem Places.no_digit {places power tail : Bytes} (isPlaces : Places places)
    (isExponent : Exponent power) (delimited : Delimited tail) :
    NoDigit (places ++ (power ++ tail)) := by
  cases isPlaces with
  | none => exact isExponent.no_digit delimited
  | point => exact no_digit_cons rfl

/-- Without a point and an exponent a number ends behind its digits. -/
theorem ends_whole_iff {places power tail : Bytes} {cursor : Cursor} (isPlaces : Places places)
    (isExponent : Exponent power) (delimited : Delimited tail)
    (given : cursor.rest = places ++ (power ++ tail)) :
    (cursor.peek ≠ some 0x2E ∧ atExponent cursor = false) ↔ places = [] ∧ power = [] := by
  cases isPlaces with
  | none =>
      have atPower := at_exponent_iff isExponent delimited given
      have noPoint : cursor.peek ≠ some 0x2E := by
        rw [Cursor.peek_eq, given]
        exact isExponent.no_point delimited
      rw [and_iff_right noPoint, and_iff_right rfl, ← Bool.not_eq_true, atPower, Classical.not_not]
  | point => simp [given]

theorem zero_stands_alone {whole tail : Bytes} (isWhole : Digits whole)
    (noLeadingZero : whole.head? = some 0x30 → whole = [0x30]) (ends : NoDigit tail)
    (cursor : Cursor) (given : cursor.rest = whole ++ tail) :
    (decide (cursor.peek = some 0x30) && cursor.advance.atDigit) = false := by
  rw [Bool.and_eq_false_imp, decide_eq_true_eq, Cursor.peek_eq, given]
  intro zero
  obtain rfl : whole = [0x30] := noLeadingZero (by simpa [isWhole.1] using zero)
  cases head : tail.head? with
  | none => simp [Cursor.atDigit, given, head]
  | some byte => simp [Cursor.atDigit, given, head, ends byte head]

/-- Every number is, after its sign, read as a whole or refused. -/
theorem magnitude_settled (negative : Bool) {whole places power : Bytes}
    (magnitude : Magnitude whole places power) :
    ∃ outcome : Option Number, ∀ (cursor : Cursor) (tail : Bytes), Delimited tail →
      cursor.rest = whole ++ (places ++ power) ++ tail →
      (readNumber negative cursor).seen = outcome.map (·, tail) := by
  obtain ⟨isWhole, noLeadingZero, isPlaces, isExponent⟩ := magnitude
  rcases absorbed : absorbDigits 0 0 whole with ⟨value, count⟩
  -- Digits that no longer fit the significand are only counted.
  let extra := (whole.drop count).length
  obtain ⟨outcome, settled⟩ := real_tail_settled negative value extra isPlaces isExponent
  refine ⟨if extra = 0 ∧ places = [] ∧ power = [] then some (wholeNumber negative value)
    else outcome, fun cursor tail delimited given => ?_⟩
  rw [List.append_assoc, List.append_assoc] at given
  have ends := isPlaces.no_digit isExponent delimited
  have following := rest_behind_absorbed absorbed given
  have remaining : ∀ byte ∈ whole.drop count, Cursor.isDigit byte :=
    fun byte member => isWhole.2 byte (List.mem_of_mem_drop member)
  have counted : (cursor.advanceBy count).digitCount = extra :=
    digit_count_eq remaining ends following
  have later : ((cursor.advanceBy count).advanceBy extra).rest = places ++ (power ++ tail) := by
    rw [Cursor.rest_advance_by, following, List.drop_left]
  obtain ⟨first, more, split, isDigit⟩ := isWhole.first
  have begins : cursor.peek = some first := by simp [given, split]
  have plain := zero_stands_alone isWhole noLeadingZero ends cursor given
  have whenWhole : (decide (extra = 0) && decide ((cursor.advanceBy count).peek ≠ some 0x2E) &&
      !atExponent (cursor.advanceBy count)) = true ↔ extra = 0 ∧ places = [] ∧ power = [] := by
    rw [Bool.and_assoc, Bool.and_eq_true, decide_eq_true_eq]
    refine and_congr_right fun none => ?_
    rw [none] at later
    rw [← ends_whole_iff isPlaces isExponent delimited later]
    simp [Cursor.advanceBy]
  rw [begins] at plain
  simp only [Option.some.injEq] at plain
  unfold readNumber
  simp only [begins, isDigit, plain, given, absorb_digits_append 0 0 ends, absorbed, counted,
    Bool.not_true, Bool.false_eq_true, ↓reduceIte, whenWhole]
  by_cases ended : extra = 0 ∧ places = [] ∧ power = []
  · obtain ⟨none, rfl, rfl⟩ := ended
    rw [none] at later
    rw [if_pos ⟨none, rfl, rfl⟩, if_pos ⟨none, rfl, rfl⟩, Reading.seen_ok]
    simpa using later
  · rw [if_neg ended, if_neg ended]
    exact settled _ tail delimited later

def numberOf? : (literal : Bytes) → Option Number
  | 0x2D :: magnitude => (readNumber true (Cursor.start magnitude)).seen.map Prod.fst
  | literal => (readNumber false (Cursor.start literal)).seen.map Prod.fst

/-- How every reader goes about a number: a sign is passed over first. -/
inductive ReadsNumeral (literal : Bytes) : Prop where
  | unsigned {first : UInt8} {more : Bytes} (split : literal = first :: more)
      (isDigit : Cursor.isDigit first = true)
      (reads : ∀ (cursor : Cursor) (tail : Bytes), Delimited tail → cursor.rest = literal ++ tail →
        (readNumber false cursor).seen = (numberOf? literal).map (·, tail))
  | negative {magnitude : Bytes} (split : literal = 0x2D :: magnitude)
      (reads : ∀ (cursor : Cursor) (tail : Bytes), Delimited tail →
        cursor.rest = magnitude ++ tail →
        (readNumber true cursor).seen = (numberOf? literal).map (·, tail))

theorem reads_numeral {literal : Bytes} (numeral : Numeral literal) : ReadsNumeral literal := by
  cases numeral with
  | @unsigned whole places power magnitude =>
      obtain ⟨first, more, split, isDigit⟩ := magnitude.isWhole.first
      obtain ⟨outcome, settled⟩ := magnitude_settled false magnitude
      have known : numberOf? (whole ++ (places ++ power)) = outcome := by
        have start := settled (Cursor.start (whole ++ (places ++ power))) [] delimited_nil
          (List.append_nil _).symm
        have noSign : first ≠ 0x2D := by
          rintro rfl
          cases isDigit
        subst split
        rw [numberOf?, start]
        · cases outcome <;> rfl
        · rintro magnitude same
          exact noSign (List.cons.inj same).1
      have begins : whole ++ (places ++ power) = first :: (more ++ (places ++ power)) := by
        simp [split]
      refine .unsigned begins isDigit fun cursor tail delimited given => ?_
      rw [known]
      exact settled cursor tail delimited given
  | @negative whole places power magnitude =>
      obtain ⟨outcome, settled⟩ := magnitude_settled true magnitude
      have known : numberOf? (0x2D :: (whole ++ (places ++ power))) = outcome := by
        have start := settled (Cursor.start (whole ++ (places ++ power))) [] delimited_nil
          (List.append_nil _).symm
        rw [numberOf?, start]
        cases outcome <;> rfl
      refine .negative rfl fun cursor tail delimited given => ?_
      rw [known]
      exact settled cursor tail delimited given

/-! ## Literals that are passed over -/

theorem seen_skip_exponent {letter : UInt8} {sign digits tail : Bytes} {cursor : Cursor}
    (isSign : sign = [] ∨ sign = [0x2B] ∨ sign = [0x2D]) (isDigits : Digits digits)
    (ends : NoDigit tail) (given : cursor.rest = letter :: (sign ++ digits) ++ tail) :
    (skipExponent cursor).seen = some ((), tail) := by
  obtain ⟨lowers, raises, begins⟩ := exponent_digits_begin isSign isDigits given
  obtain ⟨first, more, split, isDigit⟩ := isDigits.first
  unfold skipExponent
  simp only [lowers, raises, Bool.or_eq_true, decide_eq_true_eq]
  generalize (if sign = [0x2D] ∨ sign = [0x2B] then cursor.advance.advance else cursor.advance) =
    place at begins ⊢
  have atDigit : place.atDigit = true := by simp [Cursor.atDigit, begins, split, isDigit]
  rw [if_pos atDigit, Reading.seen_ok, rest_skip_digits isDigits.2 ends begins]

theorem seen_skip_power {power tail : Bytes} {cursor : Cursor} (isExponent : Exponent power)
    (delimited : Delimited tail) (given : cursor.rest = power ++ tail) :
    (if atExponent cursor then skipExponent cursor else .ok ((), cursor) : Reading Unit).seen =
      some ((), tail) := by
  have atPower := at_exponent_iff isExponent delimited given
  cases isExponent with
  | none => rw [if_neg (by simp [atPower]), Reading.seen_ok, given, List.nil_append]
  | letter _ isSign isDigits =>
      rw [if_pos (by simp [atPower])]
      exact seen_skip_exponent isSign isDigits delimited.no_digit given

theorem seen_skip_number {whole places power tail : Bytes} {cursor : Cursor}
    (magnitude : Magnitude whole places power) (delimited : Delimited tail)
    (given : cursor.rest = whole ++ (places ++ power) ++ tail) :
    (skipNumber cursor).seen = some ((), tail) := by
  obtain ⟨isWhole, noLeadingZero, isPlaces, isExponent⟩ := magnitude
  rw [List.append_assoc, List.append_assoc] at given
  have ends := isPlaces.no_digit isExponent delimited
  have plain := zero_stands_alone isWhole noLeadingZero ends cursor given
  obtain ⟨first, more, split, isDigit⟩ := isWhole.first
  have atDigit : cursor.atDigit = true := by simp [Cursor.atDigit, given, split, isDigit]
  have behind := rest_skip_digits isWhole.2 ends given
  unfold skipNumber
  simp only [atDigit, plain, Bool.not_true, Bool.false_eq_true, ↓reduceIte]
  cases isPlaces with
  | none =>
      have noPoint : cursor.skipDigits.peek ≠ some 0x2E := by
        rw [Cursor.peek_eq, behind]
        exact isExponent.no_point delimited
      rw [if_neg noPoint]
      exact seen_skip_power isExponent delimited behind
  | @point digits isDigits =>
      obtain ⟨first, more, split, isDigit⟩ := isDigits.first
      have atPlaces : cursor.skipDigits.advance.atDigit = true := by
        simp [Cursor.atDigit, behind, split, isDigit]
      have point : cursor.skipDigits.peek = some 0x2E := by simp [behind]
      have behindPlaces : cursor.skipDigits.advance.skipDigits.rest = power ++ tail :=
        rest_skip_digits isDigits.2 (isExponent.no_digit delimited) (by simp [behind])
      simp only [point, atPlaces, Bool.not_true, Bool.false_eq_true, ↓reduceIte]
      exact seen_skip_power isExponent delimited behindPlaces

end LocalNet.Json
