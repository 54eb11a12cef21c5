import LocalNet.Json.Skip
import LocalNet.Proofs.Json.Literals
import LocalNet.Proofs.Json.Numerals

/-!
# Passing over a document

The walk over nested brackets keeps its own stack, so it passes over a document of any depth. It
gets stuck only at a control character in a string. Every step is counted against the bytes it
passes, three to one, which is the fuel that the walk is given.
-/

namespace LocalNet.Json

inductive Skips : (count : Nat) → SkipState → Cursor → SkipState → Cursor → Prop where
  | done {state : SkipState} {cursor : Cursor} : Skips 0 state cursor state cursor
  | step {count : Nat} {state next target : SkipState} {cursor following place : Cursor}
      (first : skipStep state cursor = .ok (.next next, following))
      (others : Skips count next following target place) :
      Skips (count + 1) state cursor target place

theorem Skips.append {first second : Nat} {start middle target : SkipState}
    {cursor turn place : Cursor} (left : Skips first start cursor middle turn)
    (right : Skips second middle turn target place) :
    Skips (first + second) start cursor target place := by
  induction left with
  | done => simpa using right
  | step head _ induction =>
      rw [Nat.add_right_comm]
      exact .step head (induction right)

theorem Skips.run {count : Nat} {start target : SkipState} {cursor place : Cursor}
    (skips : Skips count start cursor target place) (fuel : Nat) :
    skipFrom (count + fuel) start cursor = skipFrom fuel target place := by
  induction skips with
  | done => rw [Nat.zero_add]
  | step head _ induction =>
      rw [Nat.add_right_comm, skipFrom, head]
      exact induction

theorem Skips.stuck {count : Nat} {start target : SkipState} {cursor place : Cursor}
    (skips : Skips count start cursor target place) (fails : (skipStep target place).seen = none)
    (fuel : Nat) : (skipFrom fuel start cursor).seen = none := by
  induction skips generalizing fuel with
  | done =>
      cases fuel with
      | zero => rfl
      | succ fuel => exact Reading.seen_and_then_none fails
  | step head _ induction =>
      cases fuel with
      | zero => rfl
      | succ fuel =>
          rw [skipFrom, head]
          exact induction fails fuel

/-- The walk reaches the target within the bound, or gets stuck on a control character. -/
inductive Walks (start : SkipState) (cursor : Cursor) (target : SkipState) (rest : Bytes) :
    (bound : Nat) → (clean : Bool) → Prop where
  | passes {count bound : Nat} {place : Cursor} (within : count ≤ bound)
      (skips : Skips count start cursor target place) (behind : place.rest = rest) :
      Walks start cursor target rest bound true
  | stuck {count bound : Nat} {state : SkipState} {place : Cursor}
      (skips : Skips count start cursor state place)
      (fails : (skipStep state place).seen = none) : Walks start cursor target rest bound false

theorem Walks.of_step {start target : SkipState} {cursor : Cursor} {rest : Bytes}
    (seen : (skipStep start cursor).seen = some (.next target, rest)) :
    Walks start cursor target rest 1 true := by
  rcases step : skipStep start cursor with failure | ⟨next, place⟩
  · rw [step] at seen
    cases seen
  · rw [step] at seen
    obtain ⟨rfl, behind⟩ : next = .next target ∧ place.rest = rest := by simpa using seen
    exact .passes (Nat.le_refl 1) (.step step .done) behind

theorem Walks.append {start middle target : SkipState} {cursor : Cursor} {turn rest : Bytes}
    {first second : Nat} {left right : Bool} (begins : Walks start cursor middle turn first left)
    (goesOn : ∀ place : Cursor, place.rest = turn → Walks middle place target rest second right) :
    Walks start cursor target rest (first + second) (left && right) := by
  cases begins with
  | stuck skips fails => exact .stuck skips fails
  | passes within skips behind =>
      cases goesOn _ behind with
      | passes withinNext others behind =>
          exact .passes (Nat.add_le_add within withinNext) (skips.append others) behind
      | stuck others fails => exact .stuck (skips.append others) fails

theorem Walks.weaken {start target : SkipState} {cursor : Cursor} {rest : Bytes}
    {bound more : Nat} {clean : Bool} (walks : Walks start cursor target rest bound clean)
    (larger : bound ≤ more) : Walks start cursor target rest more clean := by
  cases walks with
  | passes within skips behind => exact .passes (Nat.le_trans within larger) skips behind
  | stuck skips fails => exact .stuck skips fails

def Bracket.opening : Bracket → UInt8
  | .square => 0x5B
  | .curly => 0x7B

/-! ## Single steps -/

section Steps

variable {cursor : Cursor} {text rest : Bytes} {tokens : List Bytes} {outer : List Bracket}
  {bracket : Bracket}

theorem step_closing (spaced : Spaced [[bracket.closing]] text)
    (given : cursor.rest = text ++ rest) :
    (skipStep (.afterOpening bracket outer) cursor).seen = some (.next (.afterValue outer), rest) ∧
      (skipStep (.afterValue (bracket :: outer)) cursor).seen =
        some (.next (.afterValue outer), rest) := by
  obtain ⟨back, begins, ends, -⟩ := spaced.strip rest (by cases bracket <;> rfl)
  obtain _ | _ := ends
  cases bracket <;> simp [skipStep, given, begins, Bracket.closing]

theorem step_into (outer : List Bracket) {byte : UInt8} {token : Bytes}
    (notBlank : Cursor.isBlank byte = false) (notClosing : byte ≠ bracket.closing)
    (spaced : Spaced ((byte :: token) :: tokens) text)
    (given : cursor.rest = text ++ rest) :
    ∃ back, (skipStep (.afterOpening bracket outer) cursor).seen =
        some (.next (.atMember bracket outer), back ++ rest) ∧
      Spaced ((byte :: token) :: tokens) back ∧ back.length ≤ text.length := by
  obtain ⟨back, begins, spacedBack, shorter⟩ := spaced.strip rest notBlank
  refine ⟨byte :: token ++ back, ?_, spacedBack.start, by simp; omega⟩
  simp [skipStep, given, begins, notClosing]

theorem step_separator (outer : List Bracket) (spaced : Spaced ([0x2C] :: tokens) text)
    (given : cursor.rest = text ++ rest) :
    ∃ back, (skipStep (.afterValue (bracket :: outer)) cursor).seen =
        some (.next (.atMember bracket outer), back ++ rest) ∧
      Spaced tokens back ∧ back.length < text.length := by
  obtain ⟨back, begins, spacedBack, shorter⟩ := spaced.strip rest rfl
  exact ⟨back, by simp [skipStep, given, begins], spacedBack, by simpa using shorter⟩

theorem step_element (outer : List Bracket) {byte : UInt8} {token : Bytes}
    (notBlank : Cursor.isBlank byte = false)
    (spaced : Spaced ((byte :: token) :: tokens) text) (given : cursor.rest = text ++ rest) :
    ∃ back, (skipStep (.atMember .square outer) cursor).seen =
        some (.next (.atValue (.square :: outer)), back ++ rest) ∧
      Spaced ((byte :: token) :: tokens) back ∧ back.length ≤ text.length := by
  obtain ⟨back, begins, spacedBack, shorter⟩ := spaced.strip rest notBlank
  refine ⟨byte :: token ++ back, ?_, spacedBack.start, by simp; omega⟩
  simp [skipStep, given, begins]

theorem step_name (outer : List Bracket) {key : Bytes} (spelled : Body key)
    (spaced : Spaced (quoted key :: [0x3A] :: tokens) text) (given : cursor.rest = text ++ rest) :
    ∃ back, (skipStep (.atMember .curly outer) cursor).seen =
        (if key.all (0x20 ≤ ·) then some (.next (.atValue (.curly :: outer)), back ++ rest)
          else none) ∧
      Spaced tokens back ∧ back.length + 2 ≤ text.length := by
  obtain ⟨middle, begins, spacedMiddle, longer⟩ := spaced.strip rest rfl
  obtain ⟨back, colon, spacedBack, shorter⟩ := spacedMiddle.strip rest rfl
  refine ⟨back, ?_, spacedBack, by simp at longer shorter; omega⟩
  have literal := seen_skip_literal spelled cursor.skipBlanks.advance (middle ++ rest)
    (by simp [given, begins])
  have begun : cursor.skipBlanks.peek = some 0x22 := by simp [given, begins]
  simp only [skipStep, skipName, begun, Reading.seen_map, ↓reduceIte]
  by_cases clean : key.all (0x20 ≤ ·) = true
  · rw [if_pos clean] at literal ⊢
    rw [Reading.seen_goes_on (some ((), back ++ rest)) literal]
    · rfl
    · intro place ending
      simp [ending, colon]
  · rw [if_neg clean] at literal ⊢
    rw [Reading.seen_and_then_none literal]
    rfl

theorem step_open (bracket : Bracket) (outer : List Bracket)
    (spaced : Spaced ([bracket.opening] :: tokens) text)
    (given : cursor.rest = text ++ rest) :
    ∃ back, (skipStep (.atValue outer) cursor).seen =
        some (.next (.afterOpening bracket outer), back ++ rest) ∧
      Spaced tokens back ∧ back.length < text.length := by
  obtain ⟨back, begins, spacedBack, shorter⟩ :=
    spaced.strip rest (by cases bracket <;> rfl)
  refine ⟨back, ?_, spacedBack, by simpa using shorter⟩
  cases bracket <;> simp [skipStep, skipScalar, Cursor.isDigit, given, begins, Bracket.opening]

theorem step_word (outer : List Bracket) {word : Word} (spaced : Spaced [word.letters] text)
    (given : cursor.rest = text ++ rest) :
    (skipStep (.atValue outer) cursor).seen = some (.next (.afterValue outer), rest) := by
  have keyword {letter : UInt8} {letters : Bytes} (same : word.letters = letter :: letters)
      (notBlank : Cursor.isBlank letter = false) :
      cursor.skipBlanks.peek = some letter ∧
        (cursor.skipBlanks.advance.keyword letters).seen = some ((), rest) := by
    rw [same] at spaced
    obtain ⟨back, begins, ends, -⟩ := spaced.strip rest notBlank
    obtain _ | _ := ends
    exact ⟨by simp [given, begins], Cursor.seen_keyword _ letters rest (by simp [given, begins])⟩
  cases word
  all_goals
    obtain ⟨begun, ends⟩ := keyword rfl rfl
    simp only [skipStep, skipScalar, begun]
    simp [ends]

theorem step_text (outer : List Bracket) {body : Bytes} (spelled : Body body)
    (spaced : Spaced [quoted body] text) (given : cursor.rest = text ++ rest) :
    (skipStep (.atValue outer) cursor).seen =
      if body.all (0x20 ≤ ·) then some (.next (.afterValue outer), rest) else none := by
  obtain ⟨back, begins, ends, -⟩ := spaced.strip rest rfl
  obtain _ | _ := ends
  have literal := seen_skip_literal spelled cursor.skipBlanks.advance rest
    (by simp [given, begins])
  have begun : cursor.skipBlanks.peek = some 0x22 := by simp [given, begins]
  simp only [skipStep, skipScalar, begun]
  rw [if_neg (by decide), if_neg (by decide), if_neg (by decide), if_neg (by decide),
    if_neg (by decide), if_pos trivial, Reading.seen_map, literal]
  split <;> rfl

theorem step_number (outer : List Bracket) {literal : Bytes} (numeral : Numeral literal)
    (spaced : Spaced [literal] text) (delimited : Delimited rest)
    (given : cursor.rest = text ++ rest) :
    (skipStep (.atValue outer) cursor).seen = some (.next (.afterValue outer), rest) := by
  cases numeral with
  | @unsigned whole places power magnitude =>
      obtain ⟨first, more, split, isDigit⟩ := magnitude.isWhole.first
      have literal : whole ++ (places ++ power) = first :: (more ++ (places ++ power)) := by
        rw [split, List.cons_append]
      rw [literal] at spaced
      obtain ⟨back, begins, ends, -⟩ := spaced.strip rest (Opening.digit isDigit).notBlank
      obtain _ | _ := ends
      have begun : cursor.skipBlanks.peek = some first := by simp [given, begins]
      have skipped : (skipNumber cursor.skipBlanks).seen = some ((), rest) :=
        seen_skip_number magnitude delimited (by simp [given, begins, split])
      simp only [skipStep, skipScalar, begun]
      rw [if_neg (digit_ne isDigit _ rfl), if_neg (digit_ne isDigit _ rfl),
        if_neg (digit_ne isDigit _ rfl), if_neg (digit_ne isDigit _ rfl), if_pos isDigit,
        Reading.seen_map, skipped]
      rfl
  | @negative whole places power magnitude =>
      obtain ⟨back, begins, ends, -⟩ := spaced.strip rest rfl
      obtain _ | _ := ends
      have begun : cursor.skipBlanks.peek = some 0x2D := by simp [given, begins]
      have skipped : (skipNumber cursor.skipBlanks.advance).seen = some ((), rest) :=
        seen_skip_number magnitude delimited (by simp [given, begins])
      simp only [skipStep, skipScalar, begun]
      rw [if_neg (by decide), if_neg (by decide), if_neg (by decide), if_pos trivial,
        Reading.seen_map, skipped]
      rfl

end Steps

/-! ## Whole documents -/

/-- From the place of a value the walk passes over the document, three steps to a byte at most. -/
def Passes (doc : Doc) : Prop :=
  ∀ (text rest : Bytes) (cursor : Cursor) (outer : List Bracket), Spaced doc.tokens text →
    Delimited rest → cursor.rest = text ++ rest →
    Walks (.atValue outer) cursor (.afterValue outer) rest (3 * text.length - 2) doc.noControls

def PassesMember (bracket : Bracket) (group : List Bytes) (clean : Bool) : Prop :=
  ∀ (text rest : Bytes) (cursor : Cursor) (outer : List Bracket), Spaced group text →
    Delimited rest → cursor.rest = text ++ rest →
    Walks (.atMember bracket outer) cursor (.afterValue (bracket :: outer)) rest
      (3 * text.length - 1) clean

theorem passes_element {doc : Doc} (lexical : doc.Lexical) (passes : Passes doc) :
    PassesMember .square doc.tokens doc.noControls := by
  intro text rest cursor outer spaced delimited given
  obtain ⟨byte, token, tokens, split, opening⟩ := lexical.opening
  rw [split] at spaced
  obtain ⟨back, step, spacedBack, shorter⟩ :=
    step_element outer opening.notBlank spaced given
  obtain ⟨_, _, _, nonempty⟩ := spaced.strip rest opening.notBlank
  rw [← split] at spacedBack
  have walks := (Walks.of_step step).append fun place ending =>
    passes back rest place (.square :: outer) spacedBack delimited ending
  have bound : 1 + (3 * back.length - 2) ≤ 3 * text.length - 1 := by omega
  simpa using walks.weaken bound

theorem passes_member {key : Bytes} {doc : Doc} (spelled : Body key) (passes : Passes doc) :
    PassesMember .curly (quoted key :: [0x3A] :: doc.tokens)
      (key.all (0x20 ≤ ·) && doc.noControls) := by
  intro text rest cursor outer spaced delimited given
  obtain ⟨back, step, spacedBack, shorter⟩ := step_name outer spelled spaced given
  by_cases clean : key.all (0x20 ≤ ·) = true
  · rw [if_pos clean] at step
    have walks := (Walks.of_step step).append fun place ending =>
      passes back rest place (.curly :: outer) spacedBack delimited ending
    rw [clean]
    exact walks.weaken (by omega)
  · rw [if_neg clean] at step
    rw [Bool.not_eq_true] at clean
    rw [clean, Bool.false_and]
    exact .stuck .done step

theorem Bracket.closes (bracket : Bracket) :
    bracket.closing = 0x2C ∨ bracket.closing = 0x5D ∨ bracket.closing = 0x7D := by
  cases bracket <;> decide

section Brackets

variable {ι : Type} {bracket : Bracket} {group : ι → List Bytes} {clean : ι → Bool}

theorem passes_separated {items : List ι}
    (passes : ∀ item ∈ items, PassesMember bracket (group item) (clean item))
    {text rest : Bytes} {cursor : Cursor} {outer : List Bracket}
    (spaced : Spaced (separated (items.map group) ++ [[bracket.closing]]) text)
    (given : cursor.rest = text ++ rest) :
    Walks (.afterValue (bracket :: outer)) cursor (.afterValue outer) rest (3 * text.length)
      (items.all clean) := by
  induction items generalizing text cursor with
  | nil =>
      obtain ⟨_, _, _, nonempty⟩ := spaced.strip rest (by cases bracket <;> rfl)
      have bound : 1 ≤ 3 * text.length := by omega
      exact (Walks.of_step (step_closing spaced given).2).weaken bound
  | cons item items induction =>
      rw [List.map_cons, separated_cons, List.cons_append, List.append_assoc] at spaced
      obtain ⟨back, step, spacedBack, shorter⟩ := step_separator outer spaced given
      obtain ⟨front, behind, rfl, member, others⟩ := spacedBack.split
      have delimited : Delimited (behind ++ rest) := separated_delimited _ others bracket.closes
      rw [List.append_assoc] at step
      have walks := (Walks.of_step step).append fun place ending =>
        (passes item (by simp) front (behind ++ rest) place outer member delimited ending).append
          fun turn remaining =>
            induction (fun other inside => passes other (by simp [inside])) others remaining
      -- The step over the comma is paid for by the byte of the comma.
      have bound : 1 + (3 * front.length - 1 + 3 * behind.length) ≤ 3 * text.length := by
        rw [List.length_append] at shorter
        omega
      simpa using walks.weaken bound

theorem passes_joined (bracket : Bracket) (clean : ι → Bool) {items : List ι}
    (passes : ∀ item ∈ items, PassesMember bracket (group item) (clean item))
    (opens : ∀ item ∈ items, ∃ byte token tokens, group item = (byte :: token) :: tokens ∧
      Cursor.isBlank byte = false ∧ byte ≠ bracket.closing)
    {text rest : Bytes} {cursor : Cursor} {outer : List Bracket}
    (spaced : Spaced (joined (items.map group) ++ [[bracket.closing]]) text)
    (given : cursor.rest = text ++ rest) :
    Walks (.afterOpening bracket outer) cursor (.afterValue outer) rest (3 * text.length)
      (items.all clean) := by
  cases items with
  | nil =>
      obtain ⟨_, _, _, nonempty⟩ := spaced.strip rest (by cases bracket <;> rfl)
      have bound : 1 ≤ 3 * text.length := by omega
      exact (Walks.of_step (step_closing spaced given).1).weaken bound
  | cons item items =>
      obtain ⟨byte, token, tokens, split, notBlank, notClosing⟩ := opens item (by simp)
      rw [List.map_cons, joined, split, List.append_assoc, List.cons_append] at spaced
      obtain ⟨back, step, spacedBack, shorter⟩ :=
        step_into outer notBlank notClosing spaced given
      rw [← List.cons_append] at spacedBack
      obtain ⟨front, behind, rfl, member, others⟩ := spacedBack.split
      obtain ⟨_, _, _, nonempty⟩ := member.strip rest notBlank
      rw [← split] at member
      have delimited : Delimited (behind ++ rest) := separated_delimited _ others bracket.closes
      rw [List.append_assoc] at step
      have walks := (Walks.of_step step).append fun place ending =>
        (passes item (by simp) front (behind ++ rest) place outer member delimited ending).append
          fun turn remaining =>
            passes_separated (fun other inside => passes other (by simp [inside])) others remaining
      have bound : 1 + (3 * front.length - 1 + 3 * behind.length) ≤ 3 * text.length := by
        rw [List.length_append] at shorter
        omega
      simpa using walks.weaken bound

end Brackets

theorem spaced_nonempty {doc : Doc} {text : Bytes} (lexical : doc.Lexical)
    (spaced : Spaced doc.tokens text) : 1 ≤ text.length := by
  obtain ⟨byte, token, tokens, split, opening⟩ := lexical.opening
  rw [split] at spaced
  obtain ⟨_, _, _, longer⟩ := spaced.strip [] opening.notBlank
  omega

theorem passes {doc : Doc} (lexical : doc.Lexical) : Passes doc := by
  induction doc using Doc.induct with
  | word word =>
      intro text rest cursor outer spaced _ given
      have nonempty := spaced_nonempty lexical spaced
      have bound : 1 ≤ 3 * text.length - 2 := by omega
      exact (Walks.of_step (step_word outer spaced given)).weaken bound
  | number literal =>
      intro text rest cursor outer spaced delimited given
      have nonempty := spaced_nonempty lexical spaced
      have bound : 1 ≤ 3 * text.length - 2 := by omega
      exact (Walks.of_step (step_number outer lexical.number spaced delimited given)).weaken bound
  | text body =>
      intro text rest cursor outer spaced _ given
      have nonempty := spaced_nonempty lexical spaced
      have bound : 1 ≤ 3 * text.length - 2 := by omega
      have clean : (Doc.text body).noControls = body.all (0x20 ≤ ·) := by
        simp [Doc.noControls, Doc.bodies]
      have step := step_text outer lexical.text spaced given
      rw [clean]
      split at step
      · rename_i visible
        rw [visible]
        exact (Walks.of_step step).weaken bound
      · rename_i hidden
        rw [Bool.not_eq_true] at hidden
        rw [hidden]
        exact .stuck .done step
  | array elements induction =>
      intro text rest cursor outer spaced _ given
      rw [Doc.tokens, element_tokens_eq] at spaced
      obtain ⟨back, step, spacedBack, shorter⟩ :=
        step_open .square outer spaced given
      have walks := (Walks.of_step step).append fun place ending =>
        passes_joined .square Doc.noControls
          (fun element member =>
            passes_element (lexical.element member)
              (induction element member (lexical.element member)))
          (fun element member => by
            obtain ⟨byte, token, tokens, split, opening⟩ := (lexical.element member).opening
            exact ⟨byte, token, tokens, split, opening.notBlank, opening.notSquare⟩)
          spacedBack ending
      have bound : 1 + 3 * back.length ≤ 3 * text.length - 2 := by omega
      rw [Doc.no_controls_array]
      simpa using walks.weaken bound
  | object members induction =>
      intro text rest cursor outer spaced _ given
      rw [Doc.tokens, member_tokens_eq] at spaced
      obtain ⟨back, step, spacedBack, shorter⟩ :=
        step_open .curly outer spaced given
      have walks := (Walks.of_step step).append fun place ending =>
        passes_joined .curly
          (fun member : Bytes × Doc => member.1.all (0x20 ≤ ·) && member.2.noControls)
          (fun member listed =>
            passes_member (lexical.key listed) (induction member listed (lexical.value listed)))
          (fun member _ => ⟨0x22, _, _, rfl, rfl, by decide⟩) spacedBack ending
      have bound : 1 + 3 * back.length ≤ 3 * text.length - 2 := by omega
      rw [Doc.no_controls_object]
      simpa using walks.weaken bound

/-- A document without bare control characters is passed over, whatever its depth, and any other is
refused. -/
theorem skip_yields {doc : Doc} (lexical : doc.Lexical) :
    Yields skipValue doc (if doc.noControls then some () else none) := by
  intro text rest cursor spaced delimited given
  have walks := passes lexical text rest cursor [] spaced delimited given
  rw [skipValue]
  rcases clean : doc.noControls with _ | _
  · rw [clean] at walks
    cases walks with
    | stuck skips fails => rw [skips.stuck fails]; rfl
  · rw [clean] at walks
    cases walks with
    | @passes count _ place within skips behind =>
        have fuel : 3 * cursor.rest.length + 4 =
            count + (3 * cursor.rest.length + 3 - count + 1) := by
          rw [given, List.length_append]
          omega
        have ends : skipStep (.afterValue []) place = .ok (.finished, place) := rfl
        rw [fuel, skips.run, skipFrom, ends]
        simp [Reading.andThen, behind]

end LocalNet.Json
