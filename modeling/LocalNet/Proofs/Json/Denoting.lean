import LocalNet.Proofs.Json.Escaping
import LocalNet.Proofs.Json.Values

/-!
# What the body of a string denotes

An escape denotes a character, and two that are surrogates of each other denote one together; every
other byte denotes itself. The reader of texts accepts a body exactly if it denotes well-formed UTF-8,
and a reader that keeps nothing leaves off behind a body too.
-/

namespace LocalNet.Json

/-- Four hexadecimal digits, and the unit that they spell. -/
def SpellsUnit (digits : Bytes) (unit : Nat) : Prop :=
  digits.length = 4 ∧ (∀ digit ∈ digits, (hexValue? digit).isSome) ∧ hexNumber 0 digits = unit

def IsSurrogate (unit : Nat) : Prop :=
  0xD800 ≤ unit ∧ unit ≤ 0xDFFF

/-- The character beyond the first plane that two surrogates stand for. -/
def joinSurrogates (leading trailing : Nat) : Nat :=
  (leading - 0xD800) * 0x400 + (trailing - 0xDC00) + 0x10000

/-- The body of a string without bare control characters, and the bytes that it stands for. -/
inductive Denotes : (body meant : Bytes) → Prop where
  | nil : Denotes [] []
  | plain {byte : UInt8} {body meant : Bytes} (visible : 0x20 ≤ byte) (noQuote : byte ≠ 0x22)
      (noBackslash : byte ≠ 0x5C) (following : Denotes body meant) :
      Denotes (byte :: body) (byte :: meant)
  | simple {byte value : UInt8} {body meant : Bytes} (known : simpleEscape? byte = some value)
      (following : Denotes body meant) : Denotes (0x5C :: byte :: body) (value :: meant)
  | unit {digits body meant : Bytes} {unit : Nat} (spelled : SpellsUnit digits unit)
      (single : ¬IsSurrogate unit) (following : Denotes body meant) :
      Denotes (0x5C :: 0x75 :: (digits ++ body)) (characterBytes unit ++ meant)
  | pair {digits others body meant : Bytes} {leading trailing : Nat}
      (spelled : SpellsUnit digits leading) (isLeading : 0xD800 ≤ leading ∧ leading ≤ 0xDBFF)
      (paired : SpellsUnit others trailing) (isTrailing : 0xDC00 ≤ trailing ∧ trailing ≤ 0xDFFF)
      (following : Denotes body meant) :
      Denotes (0x5C :: 0x75 :: (digits ++ 0x5C :: 0x75 :: (others ++ body)))
        (characterBytes (joinSurrogates leading trailing) ++ meant)

/-! ## Bodies -/

theorem SpellsUnit.body {digits rest : Bytes} {unit : Nat} (spelled : SpellsUnit digits unit)
    (following : Body rest) : Body (0x5C :: 0x75 :: (digits ++ rest)) := by
  obtain ⟨four, known, -⟩ := spelled
  match digits, four with
  | [_, _, _, _], _ => exact .unit known following

theorem SpellsUnit.visible {digits : Bytes} {unit : Nat} (spelled : SpellsUnit digits unit) :
    digits.all (0x20 ≤ ·) = true := by
  rw [List.all_eq_true]
  exact fun digit inside => decide_eq_true (hex_digit_visible (spelled.2.1 digit inside))

theorem Denotes.spelled {body meant : Bytes} (denotes : Denotes body meant) : Body body := by
  induction denotes with
  | nil => exact .nil
  | plain _ noQuote noBackslash _ induction => exact .plain noQuote noBackslash induction
  | simple known _ induction => exact .simple known induction
  | unit spelled _ _ induction => exact spelled.body induction
  | pair spelled _ paired _ _ induction => exact spelled.body (paired.body induction)

theorem Denotes.visible {body meant : Bytes} (denotes : Denotes body meant) :
    body.all (0x20 ≤ ·) = true := by
  induction denotes with
  | nil => rfl
  | plain visible _ _ _ induction => simpa [visible] using induction
  | simple known _ induction => simpa [simple_escape_visible known] using induction
  | unit spelled _ _ induction => simpa [List.all_append, spelled.visible] using induction
  | pair spelled _ paired _ _ induction =>
      simpa [List.all_append, spelled.visible, paired.visible] using induction

theorem Denotes.well_formed {body meant : Bytes} (denotes : Denotes body meant) :
    (Doc.text body).WellFormed :=
  Doc.well_formed_text_iff.mpr ⟨denotes.spelled, denotes.visible⟩

/-! ## What is read denotes what is returned -/

section Passed

variable {cursor place : Cursor}

theorem rest_of_peek {byte : UInt8} (begun : cursor.peek = some byte) :
    cursor.rest = byte :: cursor.advance.rest := by
  rcases cursor with ⟨_ | ⟨first, rest⟩, here⟩
  · cases begun
  · cases begun
    rfl

theorem hex_digits_passed {count value unit : Nat}
    (read : readHexDigits cursor value count = .ok (unit, place)) :
    ∃ digits, digits.length = count ∧ (∀ digit ∈ digits, (hexValue? digit).isSome) ∧
      hexNumber value digits = unit ∧ cursor.rest = digits ++ place.rest := by
  induction count generalizing cursor value with
  | zero =>
      cases read
      exact ⟨[], rfl, List.forall_mem_nil _, rfl, rfl⟩
  | succ count induction =>
      rw [readHexDigits] at read
      split at read
      · rename_i digit found
        obtain ⟨byte, begun, known⟩ := Option.bind_eq_some_iff.mp found
        obtain ⟨digits, size, all, number, rest⟩ := induction read
        refine ⟨byte :: digits, by rw [List.length_cons, size], ?_, ?_, ?_⟩
        · exact List.forall_mem_cons.mpr ⟨by rw [known]; rfl, all⟩
        · rw [← number, hexNumber, List.foldl_cons, known]
          rfl
        · rw [rest_of_peek begun, rest, List.cons_append]
      · cases read

theorem hex_escape_passed {unit : Nat} (read : readHexEscape cursor = .ok (unit, place)) :
    ∃ digits, SpellsUnit digits unit ∧ cursor.rest = digits ++ place.rest := by
  rw [readHexEscape] at read
  split at read
  · cases read
  · obtain ⟨digits, four, known, number, rest⟩ := hex_digits_passed read
    exact ⟨digits, ⟨four, known, number⟩, rest⟩

theorem simple_escape_passed {meant : Bytes} (read : readSimpleEscape cursor = .ok (meant, place)) :
    ∃ byte value, simpleEscape? byte = some value ∧ meant = [value] ∧
      cursor.rest = byte :: place.rest := by
  rw [readSimpleEscape] at read
  split at read
  · cases read
  · rename_i byte begun
    split at read
    · rename_i value known
      cases read
      exact ⟨byte, value, known, rfl, rest_of_peek begun⟩
    · cases read

theorem trailing_unit_passed {leading : Nat} {meant : Bytes}
    (read : readTrailingUnit .text leading cursor = .ok (meant, place)) :
    ∃ digits trailing, SpellsUnit digits trailing ∧ 0xDC00 ≤ trailing ∧ trailing ≤ 0xDFFF ∧
      meant = characterBytes (joinSurrogates leading trailing) ∧
      cursor.rest = 0x5C :: 0x75 :: (digits ++ place.rest) := by
  rw [readTrailingUnit] at read
  split at read
  · cases read
  · rename_i byte begun
    split at read
    · rename_i isEscape
      dsimp only at read
      split at read
      · cases read
      · rename_i marker marked
        split at read
        · rename_i isUnit
          obtain ⟨trailing, following, hex, joined⟩ := Reading.and_then_ok read
          obtain ⟨digits, spelled, rest⟩ := hex_escape_passed hex
          split at joined
          · rename_i isTrailing
            injection joined with both
            injection both with same ending
            simp only [isTrailingUnit, Bool.and_eq_true, decide_eq_true_eq] at isTrailing
            refine ⟨digits, trailing, spelled, isTrailing.1, isTrailing.2, same.symm, ?_⟩
            rw [rest_of_peek begun, rest_of_peek marked, rest, ending, isEscape, isUnit]
          · cases joined
        · cases read
    · cases read

theorem escape_passed {meant : Bytes} (read : readEscape .text cursor = .ok (meant, place)) :
    ∃ escape, cursor.rest = escape ++ place.rest ∧ ∀ body following, Denotes body following →
      Denotes (0x5C :: (escape ++ body)) (meant ++ following) := by
  rw [readEscape] at read
  split at read
  · rename_i marked
    obtain ⟨unit, following, hex, goesOn⟩ := Reading.and_then_ok read
    obtain ⟨digits, spelled, rest⟩ := hex_escape_passed hex
    have begins : cursor.rest = 0x75 :: (digits ++ following.rest) := by
      rw [rest_of_peek marked, rest]
    split at goesOn
    · cases goesOn
    · rename_i notTrailing
      simp only [isTrailingUnit, Bool.and_eq_true, decide_eq_true_eq] at notTrailing
      split at goesOn
      · rename_i isLeading
        simp only [isLeadingUnit, Bool.and_eq_true, decide_eq_true_eq] at isLeading
        obtain ⟨others, trailing, paired, low, high, same, ends⟩ := trailing_unit_passed goesOn
        refine ⟨0x75 :: (digits ++ 0x5C :: 0x75 :: others), ?_, fun body following denotes => ?_⟩
        · rw [begins, ends]
          simp
        · have pair := Denotes.pair spelled isLeading paired ⟨low, high⟩ denotes
          rw [same]
          simpa using pair
      · rename_i notLeading
        simp only [isLeadingUnit, Bool.and_eq_true, decide_eq_true_eq] at notLeading
        cases goesOn
        have single : ¬IsSurrogate unit := by
          unfold IsSurrogate
          omega
        exact ⟨0x75 :: digits, begins, fun body meant denotes => .unit spelled single denotes⟩
  · obtain ⟨byte, value, known, rfl, rest⟩ := simple_escape_passed read
    exact ⟨[byte], rest, fun body meant denotes => .simple known denotes⟩

theorem literal_body_passed {fuel : Nat} {backwards bytes : Bytes}
    (read : readLiteralBody .text fuel backwards cursor = .ok (bytes, place)) :
    ∃ body meant, Denotes body meant ∧ bytes = backwards.reverse ++ meant ∧
      cursor.rest = body ++ 0x22 :: place.rest := by
  induction fuel generalizing backwards cursor with
  | zero => cases read
  | succ fuel induction =>
      rw [readLiteralBody] at read
      split at read
      · cases read
      · rename_i byte begun
        have begins := rest_of_peek begun
        split at read
        · rename_i isQuote
          cases read
          exact ⟨[], [], .nil, (List.append_nil _).symm, isQuote ▸ begins⟩
        · rename_i noQuote
          split at read
          · rename_i isEscape
            obtain ⟨meant, following, escaped, others⟩ := Reading.and_then_ok read
            obtain ⟨escape, passed, onward⟩ := escape_passed escaped
            obtain ⟨body, later, denotes, rfl, rest⟩ := induction others
            refine ⟨_, _, onward body later denotes, by simp, ?_⟩
            rw [begins, passed, rest, isEscape]
            simp
          · rename_i noBackslash
            split at read
            · cases read
            · rename_i visible
              have visible : 0x20 ≤ byte := by simpa using visible
              obtain ⟨body, later, denotes, rfl, rest⟩ := induction read
              refine ⟨_, _, .plain visible noQuote noBackslash denotes, by simp, ?_⟩
              rw [begins, rest, List.cons_append]

theorem text_literal_passed {text : String} (read : readTextLiteral cursor = .ok (text, place)) :
    ∃ body, Denotes body (Bytes.ofText text) ∧ cursor.rest = body ++ 0x22 :: place.rest := by
  rw [readTextLiteral] at read
  obtain ⟨bytes, following, literal, spelled⟩ := Reading.and_then_ok read
  obtain ⟨body, meant, denotes, rfl, rest⟩ := literal_body_passed literal
  split at spelled
  · rename_i found known
    cases spelled
    exact ⟨body, (of_text_of_bytes known).symm ▸ denotes, rest⟩
  · cases spelled

theorem skip_escape_passed (read : skipEscape cursor = .ok ((), place)) :
    ∃ escape, cursor.rest = escape ++ place.rest ∧ escape.all (0x20 ≤ ·) = true ∧
      ∀ body, Body body → Body (0x5C :: (escape ++ body)) := by
  rw [skipEscape] at read
  split at read
  · rename_i marked
    obtain ⟨unit, hex, -⟩ := Reading.map_ok read
    obtain ⟨digits, spelled, rest⟩ := hex_escape_passed hex
    refine ⟨0x75 :: digits, ?_, ?_, fun body => spelled.body⟩
    · rw [rest_of_peek marked, rest, List.cons_append]
    · simpa using spelled.visible
  · obtain ⟨meant, simple, -⟩ := Reading.map_ok read
    obtain ⟨byte, value, known, -, rest⟩ := simple_escape_passed simple
    exact ⟨[byte], rest, by simp [simple_escape_visible known], fun body => .simple known⟩

theorem skip_literal_body_passed {fuel : Nat} (read : skipLiteralBody fuel cursor = .ok ((), place)) :
    ∃ body, Body body ∧ body.all (0x20 ≤ ·) = true ∧ cursor.rest = body ++ 0x22 :: place.rest := by
  induction fuel generalizing cursor with
  | zero => cases read
  | succ fuel induction =>
      rw [skipLiteralBody] at read
      split at read
      · cases read
      · rename_i byte begun
        have begins := rest_of_peek begun
        split at read
        · rename_i isQuote
          cases read
          exact ⟨[], .nil, rfl, isQuote ▸ begins⟩
        · rename_i noQuote
          split at read
          · rename_i isEscape
            obtain ⟨_, following, escaped, others⟩ := Reading.and_then_ok read
            obtain ⟨escape, passed, visible, onward⟩ := skip_escape_passed escaped
            obtain ⟨body, spelled, clean, rest⟩ := induction others
            refine ⟨_, onward body spelled, by simp [List.all_append, visible, clean], ?_⟩
            rw [begins, passed, rest, isEscape]
            simp
          · rename_i noBackslash
            split at read
            · cases read
            · rename_i visible
              obtain ⟨body, spelled, clean, rest⟩ := induction read
              refine ⟨byte :: body, .plain noQuote noBackslash spelled, ?_, ?_⟩
              · simp [UInt8.not_lt.mp visible, clean]
              · rw [begins, rest, List.cons_append]

end Passed

/-! ## What is denoted is read -/

theorem SpellsUnit.seen {digits : Bytes} {unit : Nat} (spelled : SpellsUnit digits unit)
    (cursor : Cursor) (rest : Bytes) (given : cursor.rest = digits ++ rest) :
    (readHexEscape cursor).seen = some (unit, rest) := by
  obtain ⟨four, known, rfl⟩ := spelled
  exact seen_hex_escape four known cursor rest given

theorem seen_escape_unit {digits rest : Bytes} {unit : Nat} {cursor : Cursor}
    (spelled : SpellsUnit digits unit) (single : ¬IsSurrogate unit)
    (given : cursor.rest = 0x75 :: (digits ++ rest)) :
    (readEscape .text cursor).seen = some (characterBytes unit, rest) := by
  have marker : cursor.peek = some 0x75 := by simp [given]
  have escape := spelled.seen cursor.advance rest (by simp [given])
  unfold IsSurrogate at single
  rw [readEscape, if_pos marker]
  refine Reading.seen_goes_on _ escape fun place ending => ?_
  rw [if_neg (by simp [isTrailingUnit]; omega), if_neg (by simp [isLeadingUnit]; omega),
    Reading.seen_ok, ending]

theorem seen_escape_pair {digits others rest : Bytes} {leading trailing : Nat} {cursor : Cursor}
    (spelled : SpellsUnit digits leading) (isLeading : 0xD800 ≤ leading ∧ leading ≤ 0xDBFF)
    (paired : SpellsUnit others trailing) (isTrailing : 0xDC00 ≤ trailing ∧ trailing ≤ 0xDFFF)
    (given : cursor.rest = 0x75 :: (digits ++ 0x5C :: 0x75 :: (others ++ rest))) :
    (readEscape .text cursor).seen =
      some (characterBytes (joinSurrogates leading trailing), rest) := by
  have marker : cursor.peek = some 0x75 := by simp [given]
  have escape := spelled.seen cursor.advance (0x5C :: 0x75 :: (others ++ rest)) (by simp [given])
  obtain ⟨four, known, rfl⟩ := paired
  rw [readEscape, if_pos marker]
  refine Reading.seen_goes_on _ escape fun place ending => ?_
  rw [if_neg (by simp [isTrailingUnit]; omega), if_pos (by simp [isLeadingUnit]; omega),
    seen_trailing_unit .text leading four known place rest ending,
    if_pos (by simp [isTrailingUnit]; omega)]
  rfl

theorem seen_behind_escape {escape body meant value rest : Bytes} {fuel : Nat} {backwards : Bytes}
    {cursor : Cursor} (given : cursor.rest = 0x5C :: (escape ++ (body ++ 0x22 :: rest)))
    (escaped : (readEscape .text cursor.advance).seen = some (value, body ++ 0x22 :: rest))
    (later : ∀ place : Cursor, place.rest = body ++ 0x22 :: rest →
      (readLiteralBody .text fuel (value.reverse ++ backwards) place).seen =
        some ((value.reverse ++ backwards).reverse ++ meant, rest)) :
    (readLiteralBody .text (fuel + 1) backwards cursor).seen =
      some (backwards.reverse ++ (value ++ meant), rest) := by
  rw [literal_escape given]
  refine Reading.seen_goes_on _ escaped fun place ending => ?_
  rw [later place ending]
  simp

theorem seen_denoted {body meant : Bytes} (denotes : Denotes body meant) {fuel : Nat}
    {backwards rest : Bytes} {cursor : Cursor} (enough : body.length < fuel)
    (given : cursor.rest = body ++ 0x22 :: rest) :
    (readLiteralBody .text fuel backwards cursor).seen =
      some (backwards.reverse ++ meant, rest) := by
  induction denotes generalizing fuel backwards cursor with
  | nil =>
      obtain ⟨fuel, rfl⟩ := Nat.exists_eq_add_one_of_ne_zero (Nat.ne_zero_of_lt enough)
      rw [seen_literal_closed given, List.append_nil]
  | @plain byte body meant visible noQuote noBackslash _ induction =>
      obtain ⟨fuel, rfl⟩ := Nat.exists_eq_add_one_of_ne_zero (Nat.ne_zero_of_lt enough)
      rw [seen_literal_plain noQuote noBackslash given, if_neg (by simp [visible]),
        induction (by simp at enough; omega) (by simp [given])]
      simp
  | @simple byte value body meant known _ induction =>
      obtain ⟨fuel, rfl⟩ := Nat.exists_eq_add_one_of_ne_zero (Nat.ne_zero_of_lt enough)
      have noUnit := simple_escape_no_unit known
      have escaped : (readEscape .text cursor.advance).seen =
          some ([value], body ++ 0x22 :: rest) := by
        have simple := seen_simple_escape known cursor.advance (body ++ 0x22 :: rest)
          (by simp [given])
        simpa [readEscape, given, noUnit] using simple
      have begins : cursor.rest = 0x5C :: ([byte] ++ (body ++ 0x22 :: rest)) := by simp [given]
      exact seen_behind_escape begins escaped fun place ending =>
        induction (by simp at enough; omega) ending
  | @unit digits body meant unit spelled single _ induction =>
      obtain ⟨fuel, rfl⟩ := Nat.exists_eq_add_one_of_ne_zero (Nat.ne_zero_of_lt enough)
      have begins : cursor.rest = 0x5C :: (0x75 :: digits ++ (body ++ 0x22 :: rest)) := by
        simp [given]
      have escaped := seen_escape_unit spelled single
        (show cursor.advance.rest = 0x75 :: (digits ++ (body ++ 0x22 :: rest)) by simp [given])
      exact seen_behind_escape begins escaped fun place ending =>
        induction (by simp at enough; omega) ending
  | @pair digits others body meant leading trailing spelled isLeading paired isTrailing _ induction =>
      obtain ⟨fuel, rfl⟩ := Nat.exists_eq_add_one_of_ne_zero (Nat.ne_zero_of_lt enough)
      have begins : cursor.rest = 0x5C ::
          (0x75 :: (digits ++ 0x5C :: 0x75 :: others) ++ (body ++ 0x22 :: rest)) := by
        simp [given]
      have inner : cursor.advance.rest =
          0x75 :: (digits ++ 0x5C :: 0x75 :: (others ++ (body ++ 0x22 :: rest))) := by simp [given]
      have escaped := seen_escape_pair spelled isLeading paired isTrailing inner
      exact seen_behind_escape begins escaped fun place ending =>
        induction (by simp at enough; omega) ending

/-- The body of a string is read as a text exactly if it denotes the UTF-8 of that text. -/
theorem text_of_iff {body : Bytes} (spelled : Body body) {text : String} :
    textOf? body = some text ↔ Denotes body (Bytes.ofText text) := by
  constructor
  · intro known
    have seen := seen_text_literal spelled
      (show (Cursor.start (body ++ [0x22])).rest = body ++ 0x22 :: [] from rfl)
    rw [known] at seen
    rcases read : readTextLiteral (Cursor.start (body ++ [0x22])) with failure | ⟨found, place⟩
    · rw [read] at seen
      cases seen
    · rw [read] at seen
      obtain ⟨rfl, ending⟩ : found = text ∧ place.rest = [] := by simpa using seen
      obtain ⟨twin, denotes, rest⟩ := text_literal_passed read
      rw [ending] at rest
      have same : body = twin := List.append_cancel_right rest
      exact same ▸ denotes
  · intro denotes
    have literal : (readLiteralBody .text ((body ++ [0x22]).length + 1) []
        (Cursor.start (body ++ [0x22]))).seen = some (Bytes.ofText text, []) :=
      seen_denoted denotes (by rw [List.length_append]; omega) rfl
    have read : (readTextLiteral (Cursor.start (body ++ [0x22]))).seen = some (text, []) := by
      rw [readTextLiteral]
      refine Reading.seen_goes_on _ literal fun place ending => ?_
      rw [Bytes.toText?_ofText, Reading.seen_ok, ending]
    rw [textOf?, read]
    rfl

end LocalNet.Json
