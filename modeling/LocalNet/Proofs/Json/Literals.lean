import LocalNet.Proofs.Json.Reading

/-!
# String literals

A literal is read one escape or one plain byte at a time, except that two escapes may form one
character. Inside the body of a string every step leaves a body again, so reading a literal ends at
its own closing quote and does not depend on what stands behind.
-/

namespace LocalNet.Json

/-! ## Escapes -/

def hexNumber (value : Nat) (digits : Bytes) : Nat :=
  digits.foldl (fun total digit => total * 16 + (hexValue? digit).getD 0) value

theorem seen_hex_digits {digits rest : Bytes} (value : Nat)
    (known : ∀ digit ∈ digits, (hexValue? digit).isSome) (cursor : Cursor)
    (given : cursor.rest = digits ++ rest) :
    (readHexDigits cursor value digits.length).seen = some (hexNumber value digits, rest) := by
  induction digits generalizing value cursor with
  | nil => simpa [readHexDigits, hexNumber] using given
  | cons digit digits induction =>
      obtain ⟨number, isNumber⟩ := Option.isSome_iff_exists.mp (known digit (by simp))
      have one : cursor.peek.bind hexValue? = some number := by simp [given, isNumber]
      rw [List.length_cons, readHexDigits, one]
      have rest := induction (value * 16 + number)
        (fun other member => known other (by simp [member])) cursor.advance (by simp [given])
      simpa [hexNumber, isNumber] using rest

theorem seen_hex_escape {digits : Bytes} (four : digits.length = 4)
    (known : ∀ digit ∈ digits, (hexValue? digit).isSome) (cursor : Cursor) (rest : Bytes)
    (given : cursor.rest = digits ++ rest) :
    (readHexEscape cursor).seen = some (hexNumber 0 digits, rest) := by
  have enough : ¬ cursor.rest.length < 4 := by
    rw [given, List.length_append]
    omega
  rw [readHexEscape, if_neg enough, ← four]
  exact seen_hex_digits 0 known cursor given

theorem seen_simple_escape {byte meant : UInt8} (known : simpleEscape? byte = some meant)
    (cursor : Cursor) (rest : Bytes) (given : cursor.rest = byte :: rest) :
    (readSimpleEscape cursor).seen = some ([meant], rest) := by
  simp [readSimpleEscape, given, known]

theorem simple_escape_no_unit {byte meant : UInt8} (known : simpleEscape? byte = some meant) :
    byte ≠ 0x75 := by
  rintro rfl
  cases known

/-- What a step inside a string sees: what it reads, and a body that is left up to the closing
quote. -/
structure YieldsWithin (reader : Cursor → Reading Bytes) (body : Bytes)
    (outcome : Option (Bytes × Bytes)) : Prop where
  left : ∀ meant following, outcome = some (meant, following) →
    Body following ∧ following.length ≤ body.length
  seen : ∀ (cursor : Cursor) (rest : Bytes), cursor.rest = body ++ 0x22 :: rest →
    (reader cursor).seen = outcome.map fun step => (step.1, step.2 ++ 0x22 :: rest)

theorem YieldsWithin.refused {reader : Cursor → Reading Bytes} {body : Bytes}
    (refuses : ∀ (cursor : Cursor) (rest : Bytes), cursor.rest = body ++ 0x22 :: rest →
      (reader cursor).seen = none) : YieldsWithin reader body none where
  left _ _ same := by cases same
  seen := refuses

theorem YieldsWithin.read {reader : Cursor → Reading Bytes} {body following : Bytes}
    (meant : Bytes) (spelled : Body following) (shorter : following.length ≤ body.length)
    (reads : ∀ (cursor : Cursor) (rest : Bytes), cursor.rest = body ++ 0x22 :: rest →
      (reader cursor).seen = some (meant, following ++ 0x22 :: rest)) :
    YieldsWithin reader body (some (meant, following)) where
  left _ _ same := by
    cases same
    exact ⟨spelled, shorter⟩
  seen := reads

theorem seen_trailing_unit (kind : LiteralKind) (leading : Nat) {digits : Bytes}
    (four : digits.length = 4) (known : ∀ digit ∈ digits, (hexValue? digit).isSome)
    (cursor : Cursor) (rest : Bytes) (given : cursor.rest = 0x5C :: 0x75 :: (digits ++ rest)) :
    (readTrailingUnit kind leading cursor).seen =
      if isTrailingUnit (hexNumber 0 digits) then
        some (characterBytes
          ((leading - 0xD800) * 0x400 + (hexNumber 0 digits - 0xDC00) + 0x10000), rest)
      else none := by
  have backslash : cursor.peek = some 0x5C := by simp [given]
  have marker : cursor.advance.peek = some 0x75 := by simp [given]
  have escape := seen_hex_escape four known cursor.advance.advance rest (by simp [given])
  unfold readTrailingUnit
  simp only [backslash, marker, ↓reduceIte]
  refine Reading.seen_goes_on _ escape fun place ending => ?_
  rw [← ending]
  split <;> rfl

theorem trailing_unit_within (kind : LiteralKind) (leading : Nat) {body : Bytes}
    (spelled : Body body) :
    ∃ outcome, YieldsWithin (readTrailingUnit kind leading) body outcome := by
  cases spelled with
  | nil =>
      cases kind with
      | text =>
          refine ⟨none, .refused fun cursor rest given => ?_⟩
          simp [readTrailingUnit, given]
      | bytes =>
          refine ⟨_, .read (loneUnit leading) .nil (Nat.le_refl _) fun cursor rest given => ?_⟩
          simp [readTrailingUnit, given]
  | @plain byte rest noQuote noBackslash following =>
      cases kind with
      | text =>
          refine ⟨none, .refused fun cursor rest given => ?_⟩
          simp [readTrailingUnit, given, noBackslash]
      | bytes =>
          refine ⟨_, .read (loneUnit leading) (.plain noQuote noBackslash following)
            (Nat.le_refl _) fun cursor rest given => ?_⟩
          simp [readTrailingUnit, given, noBackslash]
  | @simple byte meant rest known following =>
      have noUnit := simple_escape_no_unit known
      cases kind with
      | text =>
          refine ⟨none, .refused fun cursor rest given => ?_⟩
          simp [readTrailingUnit, given, noUnit]
      | bytes =>
          refine ⟨_, .read (loneUnit leading ++ [meant]) following (by simp; omega)
            fun cursor behind given => ?_⟩
          have escape := seen_simple_escape known cursor.advance
            (rest ++ 0x22 :: behind) (by simp [given])
          simp [readTrailingUnit, given, noUnit, escape]
  | @unit first second third fourth rest digits following =>
      have goesOn := seen_trailing_unit kind leading rfl digits
      by_cases isTrailing : isTrailingUnit (hexNumber 0 [first, second, third, fourth]) = true
      · exact ⟨_, .read _ following (by simp; omega) fun cursor behind given =>
          (goesOn cursor (rest ++ 0x22 :: behind) given).trans (if_pos isTrailing)⟩
      · exact ⟨none, .refused fun cursor behind given =>
          (goesOn cursor (rest ++ 0x22 :: behind) given).trans (if_neg isTrailing)⟩

/-- Any unit of an escape settles, whether it is a character, a surrogate or half of a pair. -/
theorem after_unit_within (kind : LiteralKind) (unit : Nat) {body : Bytes} (spelled : Body body) :
    ∃ outcome, YieldsWithin
      (fun cursor =>
        if isTrailingUnit unit then
          match kind with
          | .text => cursor.failHere (.grammar .loneSurrogate)
          | .bytes => .ok (loneUnit unit, cursor)
        else if isLeadingUnit unit then readTrailingUnit kind unit cursor
        else .ok (characterBytes unit, cursor)) body outcome := by
  split
  · cases kind with
    | text => exact ⟨none, .refused fun _ _ _ => rfl⟩
    | bytes =>
        exact ⟨_, .read (loneUnit unit) spelled (Nat.le_refl _)
          fun cursor rest given => by simp [given]⟩
  · split
    · exact trailing_unit_within kind unit spelled
    · exact ⟨_, .read (characterBytes unit) spelled (Nat.le_refl _)
        fun cursor rest given => by simp [given]⟩

theorem escape_within (kind : LiteralKind) {tail : Bytes} (spelled : Body (0x5C :: tail)) :
    ∃ outcome, YieldsWithin (readEscape kind) tail outcome := by
  cases spelled with
  | plain _ noBackslash => exact absurd rfl noBackslash
  | @simple byte meant following known spelled =>
      have noUnit := simple_escape_no_unit known
      refine ⟨_, .read [meant] spelled (by simp) fun cursor rest given => ?_⟩
      have escape := seen_simple_escape known cursor _ given
      simpa [readEscape, given, noUnit] using escape
  | @unit first second third fourth following digits spelled =>
      obtain ⟨outcome, within⟩ :=
        after_unit_within kind (hexNumber 0 [first, second, third, fourth]) spelled
      refine ⟨outcome, fun meant later same => ?_, fun cursor rest given => ?_⟩
      · obtain ⟨body, shorter⟩ := within.left meant later same
        exact ⟨body, by simp; omega⟩
      · have marker : cursor.peek = some 0x75 := by simp [given]
        have escape := seen_hex_escape rfl digits cursor.advance
          (following ++ 0x22 :: rest) (by simp [given])
        rw [readEscape, if_pos marker]
        exact Reading.seen_goes_on _ escape fun place ending => within.seen place rest ending

/-! ## Literals that are kept -/

theorem seen_literal_closed {kind : LiteralKind} {fuel : Nat} {backwards rest : Bytes}
    {cursor : Cursor} (given : cursor.rest = 0x22 :: rest) :
    (readLiteralBody kind (fuel + 1) backwards cursor).seen = some (backwards.reverse, rest) := by
  simp [readLiteralBody, given]

theorem seen_literal_plain {kind : LiteralKind} {fuel : Nat} {backwards rest : Bytes}
    {byte : UInt8} {cursor : Cursor} (noQuote : byte ≠ 0x22) (noBackslash : byte ≠ 0x5C)
    (given : cursor.rest = byte :: rest) :
    (readLiteralBody kind (fuel + 1) backwards cursor).seen =
      if byte < 0x20 && kind = .text then none
      else (readLiteralBody kind fuel (byte :: backwards) cursor.advance).seen := by
  simp only [readLiteralBody, Cursor.peek_eq, given, List.head?_cons, if_neg noQuote,
    if_neg noBackslash]
  split <;> rfl

theorem literal_escape {kind : LiteralKind} {fuel : Nat} {backwards rest : Bytes}
    {cursor : Cursor} (given : cursor.rest = 0x5C :: rest) :
    readLiteralBody kind (fuel + 1) backwards cursor =
      (readEscape kind cursor.advance).andThen fun meant following =>
        readLiteralBody kind fuel (meant.reverse ++ backwards) following := by
  simp [readLiteralBody, given]

/-- Reading up to the closing quote sees the same whatever stands behind it. -/
theorem literal_body_settled (kind : LiteralKind) {body : Bytes} (spelled : Body body) :
    ∃ outcome : Option Bytes, ∀ (fuel : Nat) (backwards rest : Bytes) (cursor : Cursor),
      body.length < fuel → cursor.rest = body ++ 0x22 :: rest →
      (readLiteralBody kind fuel backwards cursor).seen =
        outcome.map fun bytes => (backwards.reverse ++ bytes, rest) := by
  induction size : body.length using Nat.strongRecOn generalizing body with
  | ind size induction =>
      subst size
      rcases body with _ | ⟨byte, tail⟩
      · refine ⟨some [], fun fuel backwards rest cursor enough given => ?_⟩
        obtain ⟨fuel, rfl⟩ := Nat.exists_eq_add_one_of_ne_zero (Nat.ne_zero_of_lt enough)
        rw [seen_literal_closed given, Option.map_some, List.append_nil]
      · by_cases isEscape : byte = 0x5C
        · -- An escape may take several units, so what is left is only known to be shorter.
          subst isEscape
          obtain ⟨step, within⟩ := escape_within kind spelled
          rcases step with _ | ⟨meant, following⟩
          · refine ⟨none, fun fuel backwards rest cursor enough given => ?_⟩
            obtain ⟨fuel, rfl⟩ := Nat.exists_eq_add_one_of_ne_zero (Nat.ne_zero_of_lt enough)
            rw [literal_escape given]
            exact Reading.seen_and_then_none (within.seen cursor.advance rest (by simp [given]))
          · obtain ⟨later, shorter⟩ := within.left meant following rfl
            obtain ⟨outcome, settled⟩ := induction following.length (by simp; omega) later rfl
            refine ⟨outcome.map (meant ++ ·), fun fuel backwards rest cursor enough given => ?_⟩
            obtain ⟨fuel, rfl⟩ := Nat.exists_eq_add_one_of_ne_zero (Nat.ne_zero_of_lt enough)
            have escape := within.seen cursor.advance rest (by simp [given])
            rw [literal_escape given]
            refine Reading.seen_goes_on _ escape fun place ending => ?_
            rw [settled fuel _ rest place (by simp at enough; omega) ending]
            cases outcome <;> simp
        · obtain ⟨noQuote, following⟩ : byte ≠ 0x22 ∧ Body tail := by
            cases spelled with
            | plain noQuote _ following => exact ⟨noQuote, following⟩
            | simple => exact absurd rfl isEscape
            | unit => exact absurd rfl isEscape
          obtain ⟨outcome, settled⟩ := induction tail.length (by simp) following rfl
          refine ⟨if byte < 0x20 && kind = .text then none else outcome.map (byte :: ·),
            fun fuel backwards rest cursor enough given => ?_⟩
          obtain ⟨fuel, rfl⟩ := Nat.exists_eq_add_one_of_ne_zero (Nat.ne_zero_of_lt enough)
          rw [seen_literal_plain noQuote isEscape given]
          split
          · rfl
          · rw [settled fuel _ rest cursor.advance (by simp at enough; omega) (by simp [given])]
            cases outcome <;> simp

def bytesOf? (body : Bytes) : Option Bytes :=
  (readByteLiteral (Cursor.start (body ++ [0x22]))).seen.map Prod.fst

def textOf? (body : Bytes) : Option String :=
  (readTextLiteral (Cursor.start (body ++ [0x22]))).seen.map Prod.fst

theorem seen_byte_literal {body rest : Bytes} {cursor : Cursor} (spelled : Body body)
    (given : cursor.rest = body ++ 0x22 :: rest) :
    (readByteLiteral cursor).seen = (bytesOf? body).map (·, rest) := by
  obtain ⟨outcome, settled⟩ := literal_body_settled .bytes spelled
  have reads {cursor : Cursor} {rest : Bytes} (given : cursor.rest = body ++ 0x22 :: rest) :
      (readByteLiteral cursor).seen = outcome.map (·, rest) := by
    rw [readByteLiteral, settled _ _ rest cursor (by rw [given, List.length_append]; omega) given]
    rfl
  rw [reads given, bytesOf?, reads rfl]
  cases outcome <;> rfl

theorem seen_text_literal {body rest : Bytes} {cursor : Cursor} (spelled : Body body)
    (given : cursor.rest = body ++ 0x22 :: rest) :
    (readTextLiteral cursor).seen = (textOf? body).map (·, rest) := by
  obtain ⟨outcome, settled⟩ := literal_body_settled .text spelled
  have reads {cursor : Cursor} {rest : Bytes} (given : cursor.rest = body ++ 0x22 :: rest) :
      (readTextLiteral cursor).seen = (outcome.bind Bytes.toText?).map (·, rest) := by
    have literal := settled (cursor.rest.length + 1) [] rest cursor
      (by rw [given, List.length_append]; omega) given
    rw [readTextLiteral]
    refine Reading.seen_judged _ literal fun bytes place => ?_
    cases Bytes.toText? bytes <;> rfl
  rw [reads given, textOf?, reads rfl]
  cases outcome.bind Bytes.toText? <;> rfl

theorem trailing_unit_kinds_agree {leading : Nat} {cursor following : Cursor} {meant : Bytes}
    (read : readTrailingUnit .text leading cursor = .ok (meant, following)) :
    readTrailingUnit .bytes leading cursor = .ok (meant, following) := by
  unfold readTrailingUnit at read ⊢
  dsimp only at read ⊢
  split at read
  · cases read
  · split at read
    · rename_i isEscape
      simp only [isEscape, ↓reduceIte]
      split at read
      · cases read
      · split at read
        · rename_i isUnit
          simpa only [isUnit, ↓reduceIte] using read
        · cases read
    · cases read

theorem escape_kinds_agree {cursor following : Cursor} {meant : Bytes}
    (read : readEscape .text cursor = .ok (meant, following)) :
    readEscape .bytes cursor = .ok (meant, following) := by
  rw [readEscape] at read ⊢
  split at read
  · rename_i isUnit
    rw [if_pos isUnit]
    rcases hex : readHexEscape cursor.advance with failure | ⟨unit, place⟩
    · rw [hex] at read
      cases read
    · rw [hex] at read
      simp only [Reading.andThen] at read ⊢
      split at read
      · cases read
      · rename_i noTrailing
        rw [if_neg noTrailing]
        split at read
        · rename_i isLeading
          rw [if_pos isLeading]
          exact trailing_unit_kinds_agree read
        · rename_i noLeading
          rw [if_neg noLeading]
          exact read
  · rename_i noUnit
    rw [if_neg noUnit]
    exact read

/-- What spells a text spells the same bytes as a byte string. -/
theorem literal_kinds_agree {fuel : Nat} {backwards bytes : Bytes} {cursor following : Cursor}
    (read : readLiteralBody .text fuel backwards cursor = .ok (bytes, following)) :
    readLiteralBody .bytes fuel backwards cursor = .ok (bytes, following) := by
  induction fuel generalizing backwards cursor with
  | zero => cases read
  | succ fuel induction =>
      rw [readLiteralBody] at read ⊢
      split at read
      · cases read
      · split at read
        · rename_i closes
          rw [if_pos closes]
          exact read
        · rename_i noQuote
          rw [if_neg noQuote]
          split at read
          · rename_i isEscape
            rw [if_pos isEscape]
            rcases escape : readEscape .text cursor.advance with failure | ⟨meant, place⟩
            · rw [escape] at read
              cases read
            · rw [escape] at read
              rw [escape_kinds_agree escape]
              exact induction read
          · rename_i noEscape
            rw [if_neg noEscape]
            split at read
            · cases read
            · simpa using induction read

theorem of_text_of_bytes {bytes : Bytes} {text : String}
    (spells : Bytes.toText? bytes = some text) :
    Bytes.ofText text = bytes := by
  rw [Bytes.toText?, String.fromUTF8?] at spells
  split at spells
  · cases spells
    simp [Bytes.ofText, String.fromUTF8, String.toUTF8_eq_toByteArray]
  · cases spells

theorem bytes_of_text {body : Bytes} {text : String} (spells : textOf? body = some text) :
    bytesOf? body = some (Bytes.ofText text) := by
  rw [textOf?, readTextLiteral] at spells
  rcases literal : readLiteralBody .text _ [] (Cursor.start (body ++ [0x22]))
    with failure | ⟨bytes, place⟩
  · rw [literal] at spells
    cases spells
  · rw [literal] at spells
    simp only [Reading.andThen] at spells
    rw [bytesOf?, readByteLiteral, literal_kinds_agree literal]
    cases found : Bytes.toText? bytes with
    | none => simp [found] at spells
    | some known =>
        rw [found] at spells
        obtain rfl : known = text := by simpa using spells
        rw [of_text_of_bytes found]
        rfl

/-! ## Literals that are passed over -/

theorem simple_escape_visible {byte meant : UInt8} (known : simpleEscape? byte = some meant) :
    0x20 ≤ byte := by
  rw [simpleEscape?] at known
  grind

theorem hex_digit_visible {byte : UInt8} (known : (hexValue? byte).isSome) : 0x20 ≤ byte := by
  rw [hexValue?] at known
  grind

theorem skip_escape {fuel : Nat} {rest : Bytes} {cursor : Cursor}
    (given : cursor.rest = 0x5C :: rest) :
    skipLiteralBody (fuel + 1) cursor =
      (skipEscape cursor.advance).andThen fun _ following => skipLiteralBody fuel following := by
  simp [skipLiteralBody, given]

/-- Of the bytes that the grammar lets through, only control characters stop a reader that keeps
nothing. -/
theorem seen_skip_literal_body {body : Bytes} (spelled : Body body) {fuel : Nat} {rest : Bytes}
    {cursor : Cursor} (enough : body.length < fuel) (given : cursor.rest = body ++ 0x22 :: rest) :
    (skipLiteralBody fuel cursor).seen =
      if body.all (0x20 ≤ ·) then some ((), rest) else none := by
  induction spelled generalizing fuel cursor with
  | nil =>
      obtain ⟨fuel, rfl⟩ := Nat.exists_eq_add_one_of_ne_zero (Nat.ne_zero_of_lt enough)
      simp [skipLiteralBody, given]
  | @plain byte body noQuote noBackslash _ induction =>
      obtain ⟨fuel, rfl⟩ := Nat.exists_eq_add_one_of_ne_zero (Nat.ne_zero_of_lt enough)
      have later := @induction fuel cursor.advance
        (by simp at enough; omega) (by simp [given])
      simp only [skipLiteralBody, Cursor.peek_eq, given, List.cons_append, List.head?_cons,
        if_neg noQuote, if_neg noBackslash, List.all_cons]
      split
      · rename_i control
        have hidden : ¬ 0x20 ≤ byte := UInt8.not_le.mpr control
        simp [hidden]
      · rename_i visible
        simp [later, UInt8.not_lt.mp visible]
  | @simple byte meant body known _ induction =>
      obtain ⟨fuel, rfl⟩ := Nat.exists_eq_add_one_of_ne_zero (Nat.ne_zero_of_lt enough)
      have noUnit := simple_escape_no_unit known
      have escape : (skipEscape cursor.advance).seen = some ((), body ++ 0x22 :: rest) := by
        have simple := seen_simple_escape known cursor.advance
          (body ++ 0x22 :: rest) (by simp [given])
        simp [skipEscape, given, noUnit, simple]
      have visible : (0x5C :: byte :: body).all (0x20 ≤ ·) = body.all (0x20 ≤ ·) := by
        simp [simple_escape_visible known]
      rw [skip_escape given, visible]
      exact Reading.seen_goes_on _ escape fun place ending =>
        induction (by simp at enough; omega) ending
  | @unit first second third fourth body digits _ induction =>
      obtain ⟨fuel, rfl⟩ := Nat.exists_eq_add_one_of_ne_zero (Nat.ne_zero_of_lt enough)
      have escape : (skipEscape cursor.advance).seen = some ((), body ++ 0x22 :: rest) := by
        have hex := seen_hex_escape rfl digits cursor.advance.advance
          (body ++ 0x22 :: rest) (by simp [given])
        simp [skipEscape, given, hex]
      have visible : (0x5C :: 0x75 :: first :: second :: third :: fourth :: body).all (0x20 ≤ ·) =
          body.all (0x20 ≤ ·) := by
        simp [hex_digit_visible (digits first (by simp)),
          hex_digit_visible (digits second (by simp)), hex_digit_visible (digits third (by simp)),
          hex_digit_visible (digits fourth (by simp))]
      rw [skip_escape given, visible]
      exact Reading.seen_goes_on _ escape fun place ending =>
        induction (by simp at enough; omega) ending

theorem seen_skip_literal {body : Bytes} (spelled : Body body) (cursor : Cursor) (rest : Bytes)
    (given : cursor.rest = body ++ 0x22 :: rest) :
    (skipLiteral cursor).seen = if body.all (0x20 ≤ ·) then some ((), rest) else none :=
  seen_skip_literal_body spelled (by rw [given, List.length_append]; omega) given

end LocalNet.Json
