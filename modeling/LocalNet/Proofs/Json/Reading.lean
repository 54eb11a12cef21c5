import LocalNet.Json.Decoder
import LocalNet.Proofs.Json.Document

/-!
# What a reader makes of a document

Positions matter to faults alone, so a reading is compared by what it sees: a value and the bytes
that are left, or nothing. A reader is uniform if what it sees of a document depends neither on the
blanks between the tokens nor on what follows.
-/

namespace LocalNet.Json

variable {α β : Type}

/-- A reading without positions and without the reasons of its faults. -/
def Reading.seen : Reading α → Option (α × Bytes)
  | .ok (value, cursor) => some (value, cursor.rest)
  | .error _ => none

namespace Reading

@[simp] theorem seen_ok (value : α) (cursor : Cursor) :
    seen (.ok (value, cursor)) = some (value, cursor.rest) :=
  rfl

@[simp] theorem seen_error (failure : Failure) : seen (α := α) (.error failure) = none :=
  rfl

@[simp] theorem seen_fail_here (cursor : Cursor) (fault : Fault) :
    (cursor.failHere fault : Reading α).seen = none :=
  rfl

@[simp] theorem seen_fail_ahead (cursor : Cursor) (fault : Fault) :
    (cursor.failAhead fault : Reading α).seen = none :=
  rfl

@[simp] theorem seen_refuse_here (cursor : Cursor) (reason : Mismatch) :
    (refuseHere cursor reason : Reading α).seen = none :=
  rfl

@[simp] theorem seen_map (change : α → β) (reading : Reading α) :
    (reading.map change).seen = reading.seen.map fun found => (change found.1, found.2) := by
  cases reading <;> rfl

theorem seen_and_then {reading : Reading α} {next : α → Cursor → Reading β} {first : Option α}
    {rest : Bytes} (after : α → Option (β × Bytes))
    (seen : reading.seen = first.map (·, rest))
    (goesOn : ∀ value cursor, first = some value → cursor.rest = rest →
      (next value cursor).seen = after value) :
    (reading.andThen next).seen = first.bind after := by
  rcases reading with failure | ⟨value, cursor⟩
  · cases first with
    | none => rfl
    | some value => simp at seen
  · cases first with
    | none => simp at seen
    | some known =>
        simp only [seen_ok, Option.map_some, Option.some.injEq, Prod.mk.injEq] at seen
        obtain ⟨rfl, ending⟩ := seen
        exact goesOn value cursor rfl ending

theorem seen_goes_on {reading : Reading α} {next : α → Cursor → Reading β} {value : α}
    {rest : Bytes} (result : Option (β × Bytes)) (seen : reading.seen = some (value, rest))
    (goesOn : ∀ cursor, cursor.rest = rest → (next value cursor).seen = result) :
    (reading.andThen next).seen = result := by
  have known : reading.seen = (some value).map (·, rest) := seen
  exact seen_and_then (fun _ => result) known
    fun _ cursor same ending => by cases same; exact goesOn cursor ending

theorem seen_judged {reading : Reading α} {next : α → Cursor → Reading β} {first : Option α}
    {rest : Bytes} (judge : α → Option β) (seen : reading.seen = first.map (·, rest))
    (judged : ∀ value cursor, (next value cursor).seen = (judge value).map (·, cursor.rest)) :
    (reading.andThen next).seen = (first.bind judge).map (·, rest) := by
  rw [Option.map_bind]
  exact seen_and_then _ seen fun value cursor _ ending => ending ▸ judged value cursor

theorem seen_and_then_none {reading : Reading α} {next : α → Cursor → Reading β}
    (seen : reading.seen = none) : (reading.andThen next).seen = none := by
  rcases reading with failure | ⟨value, cursor⟩
  · rfl
  · simp at seen

end Reading

namespace Cursor

@[simp] theorem peek_eq (cursor : Cursor) : cursor.peek = cursor.rest.head? :=
  rfl

@[simp] theorem rest_advance (cursor : Cursor) : cursor.advance.rest = cursor.rest.tail := by
  rcases cursor with ⟨_ | _, _⟩ <;> rfl

@[simp] theorem rest_advance_by (cursor : Cursor) (count : Nat) :
    (cursor.advanceBy count).rest = cursor.rest.drop count := by
  induction count generalizing cursor with
  | zero => rfl
  | succ count induction =>
      rw [advanceBy, induction, rest_advance, List.drop_tail]

theorem rest_skip_blanks_from (position : Position) (bytes : Bytes) :
    (skipBlanksFrom position bytes).rest = bytes.dropWhile isBlank := by
  induction bytes generalizing position with
  | nil => rfl
  | cons byte bytes induction =>
      rw [skipBlanksFrom]
      split
      · rw [induction, List.dropWhile_cons_of_pos (by assumption)]
      · rw [List.dropWhile_cons_of_neg (by assumption)]

@[simp] theorem rest_skip_blanks (cursor : Cursor) :
    cursor.skipBlanks.rest = cursor.rest.dropWhile isBlank :=
  rest_skip_blanks_from cursor.here cursor.rest

@[simp] theorem rest_start (text : Bytes) : (start text).rest = text :=
  rfl

theorem seen_keyword (cursor : Cursor) (letters rest : Bytes)
    (given : cursor.rest = letters ++ rest) :
    (cursor.keyword letters).seen = some ((), rest) := by
  induction letters generalizing cursor with
  | nil => simpa [keyword] using given
  | cons letter letters induction =>
      rw [keyword]
      simp only [peek_eq, given, List.cons_append, List.head?_cons, if_true]
      exact induction _ (by simp [given])

end Cursor

/-! ## Spacing -/

def Blank (bytes : Bytes) : Prop :=
  ∀ byte ∈ bytes, Cursor.isBlank byte

/-- Tokens in their order, with any blanks before each. -/
inductive Spaced : (tokens : List Bytes) → (text : Bytes) → Prop where
  | nil : Spaced [] []
  | cons {blanks token text : Bytes} {tokens : List Bytes} (blank : Blank blanks)
      (following : Spaced tokens text) : Spaced (token :: tokens) (blanks ++ (token ++ text))

def Doc.Spells (doc : Doc) (text : Bytes) : Prop :=
  ∃ body blanks, Spaced doc.tokens body ∧ Blank blanks ∧ text = body ++ blanks

def Doc.compact (doc : Doc) : Bytes :=
  doc.tokens.flatten

/-- What may stand behind a value: a number ends here. -/
def Delimited (rest : Bytes) : Prop :=
  ∀ byte, rest.head? = some byte →
    Cursor.isBlank byte = true ∨ byte = 0x2C ∨ byte = 0x5D ∨ byte = 0x7D

theorem Blank.drop {blanks rest : Bytes} (blank : Blank blanks) :
    (blanks ++ rest).dropWhile Cursor.isBlank = rest.dropWhile Cursor.isBlank :=
  List.dropWhile_append_of_pos blank

theorem Blank.delimited {blanks rest : Bytes} (blank : Blank blanks) (delimited : Delimited rest) :
    Delimited (blanks ++ rest) := by
  cases blanks with
  | nil => exact delimited
  | cons byte blanks =>
      intro first same
      obtain rfl : byte = first := by simpa using same
      exact Or.inl (blank byte (by simp))

theorem delimited_nil : Delimited [] := by
  intro byte same
  cases same

theorem Spaced.append {first second : List Bytes} {front back : Bytes}
    (left : Spaced first front) (right : Spaced second back) :
    Spaced (first ++ second) (front ++ back) := by
  induction left with
  | nil => exact right
  | cons blank _ induction =>
      rw [List.append_assoc, List.append_assoc]
      exact Spaced.cons blank induction

theorem Spaced.split {first second : List Bytes} {text : Bytes}
    (spaced : Spaced (first ++ second) text) :
    ∃ front back, text = front ++ back ∧ Spaced first front ∧ Spaced second back := by
  induction first generalizing text with
  | nil => exact ⟨[], text, rfl, Spaced.nil, spaced⟩
  | cons token first induction =>
      obtain _ | ⟨blank, following⟩ := spaced
      obtain ⟨front, back, rfl, left, right⟩ := induction following
      exact ⟨_, back, by simp only [List.append_assoc], Spaced.cons blank left, right⟩

theorem Spaced.start {token text : Bytes} {tokens : List Bytes} (following : Spaced tokens text) :
    Spaced (token :: tokens) (token ++ text) := by
  have blank : Blank [] := fun _ member => by cases member
  exact Spaced.cons blank following

theorem spaced_flatten (tokens : List Bytes) : Spaced tokens tokens.flatten := by
  induction tokens with
  | nil => exact Spaced.nil
  | cons token tokens induction => exact induction.start

theorem Doc.spells_compact (doc : Doc) : doc.Spells doc.compact :=
  ⟨_, [], spaced_flatten doc.tokens, (List.forall_mem_nil _), (List.append_nil _).symm⟩

/-- A reader that passes over blanks stands at the first token. -/
theorem Spaced.strip {byte : UInt8} {token text : Bytes} {tokens : List Bytes}
    (spaced : Spaced ((byte :: token) :: tokens) text) (rest : Bytes)
    (solid : Cursor.isBlank byte = false) :
    ∃ back, (text ++ rest).dropWhile Cursor.isBlank = byte :: (token ++ (back ++ rest)) ∧
      Spaced tokens back ∧ token.length + back.length < text.length := by
  obtain _ | ⟨blank, following⟩ := spaced
  refine ⟨_, ?_, following, by simp; omega⟩
  rw [List.append_assoc, blank.drop, List.append_assoc, List.cons_append,
    List.dropWhile_cons_of_neg (by simp [solid])]

theorem Spaced.delimited {byte : UInt8} {token text rest : Bytes} {tokens : List Bytes}
    (spaced : Spaced ((byte :: token) :: tokens) text)
    (closes : byte = 0x2C ∨ byte = 0x5D ∨ byte = 0x7D) : Delimited (text ++ rest) := by
  obtain _ | ⟨blank, following⟩ := spaced
  rw [List.append_assoc]
  refine blank.delimited fun first same => ?_
  obtain rfl : byte = first := by simpa using same
  exact Or.inr closes

theorem separated_delimited (groups : List (List Bytes)) {closing : UInt8} {text rest : Bytes}
    (spaced : Spaced (separated groups ++ [[closing]]) text)
    (closes : closing = 0x2C ∨ closing = 0x5D ∨ closing = 0x7D) : Delimited (text ++ rest) := by
  cases groups with
  | nil => exact spaced.delimited closes
  | cons group groups => exact spaced.delimited (Or.inl rfl)

theorem Spaced.length_le {tokens : List Bytes} {text : Bytes} (spaced : Spaced tokens text) :
    tokens.flatten.length ≤ text.length := by
  induction spaced with
  | nil => exact Nat.le_refl 0
  | cons _ _ induction =>
      simp only [List.flatten_cons, List.length_append]
      omega

theorem separated_length (groups : List (List Bytes)) :
    groups.length ≤ (separated groups).flatten.length := by
  induction groups with
  | nil => exact Nat.le_refl 0
  | cons group groups induction =>
      simp only [separated_cons, List.flatten_cons, List.flatten_append, List.length_append,
        List.length_cons, List.length_nil]
      omega

theorem member_count_le {groups : List (List Bytes)} {closing : UInt8} {text : Bytes}
    (spaced : Spaced (joined groups ++ [[closing]]) text) : groups.length ≤ text.length := by
  have longer := spaced.length_le
  cases groups with
  | nil => exact Nat.zero_le _
  | cons group groups =>
      have count := separated_length groups
      simp only [joined, List.flatten_append, List.flatten_cons, List.flatten_nil,
        List.length_append, List.length_cons, List.length_nil] at longer ⊢
      omega

/-! ## Uniform readers -/

/-- On every spacing of the document, whatever follows, the reader sees the outcome and stops
behind the document. -/
def Yields (reader : Cursor → Reading α) (doc : Doc) (outcome : Option α) : Prop :=
  ∀ ⦃text rest : Bytes⦄ ⦃cursor : Cursor⦄, Spaced doc.tokens text → Delimited rest →
    cursor.rest = text ++ rest → (reader cursor).seen = outcome.map (·, rest)

def Uniform (reader : Cursor → Reading α) : Prop :=
  ∀ doc : Doc, doc.Lexical → ∃ outcome, Yields reader doc outcome

/-- What a reader makes of a document, found by reading its compact text. -/
def meaning (reader : Cursor → Reading α) (doc : Doc) : Option α :=
  (reader (Cursor.start doc.compact)).seen.map Prod.fst

theorem Yields.meaning_eq {reader : Cursor → Reading α} {doc : Doc} {outcome : Option α}
    (yields : Yields reader doc outcome) : meaning reader doc = outcome := by
  have seen : (reader (Cursor.start doc.compact)).seen = outcome.map (·, []) :=
    yields (spaced_flatten doc.tokens) delimited_nil (List.append_nil _).symm
  rw [meaning, seen]
  cases outcome <;> rfl

theorem Uniform.yields {reader : Cursor → Reading α} (uniform : Uniform reader) {doc : Doc}
    (lexical : doc.Lexical) : Yields reader doc (meaning reader doc) := by
  obtain ⟨outcome, yields⟩ := uniform doc lexical
  rw [yields.meaning_eq]
  exact yields

theorem finish_reading {reader : Cursor → Reading α} (uniform : Uniform reader) {doc : Doc}
    {text : Bytes} (lexical : doc.Lexical) (spells : doc.Spells text) (value : α) :
    finish (reader (Cursor.start text)) = .ok value ↔ meaning reader doc = some value := by
  obtain ⟨body, blanks, spaced, blank, rfl⟩ := spells
  have delimited : Delimited blanks := by simpa using blank.delimited delimited_nil
  have seen : (reader (Cursor.start (body ++ blanks))).seen =
      (meaning reader doc).map (·, blanks) := uniform.yields lexical spaced delimited rfl
  rcases reading : reader (Cursor.start (body ++ blanks)) with failure | ⟨found, cursor⟩
  · rw [reading] at seen
    cases same : meaning reader doc with
    | none => simp [finish]
    | some value => simp [same] at seen
  · rw [reading] at seen
    cases same : meaning reader doc with
    | none => simp [same] at seen
    | some value =>
        simp only [same, Reading.seen_ok, Option.map_some, Option.some.injEq,
          Prod.mk.injEq] at seen
        obtain ⟨rfl, ending⟩ := seen
        have nothing : (blanks ++ []).dropWhile Cursor.isBlank = [] := blank.drop
        rw [List.append_nil] at nothing
        simp [finish, ending, nothing]

end LocalNet.Json
