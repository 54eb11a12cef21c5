import LocalNet.Proofs.Json.Recognition

/-!
# What is passed over is a document

The walk over nested brackets keeps nothing but the brackets that are open. From where it stands the
tokens that are left must complete them, and every step takes a piece from the front of those tokens; so
what a whole walk has passed over is a document.
-/

namespace LocalNet.Json

variable {cursor place target : Cursor} {tokens : List Bytes} {bracket : Bracket}
  {opened outer : List Bracket}

/-- The tokens of a member, as it stands in brackets of this kind. -/
inductive Group : Bracket → List Bytes → Prop where
  | element {doc : Doc} (formed : doc.WellFormed) : Group .square doc.tokens
  | entry {key : Bytes} {doc : Doc} (named : (Doc.text key).WellFormed) (formed : doc.WellFormed) :
      Group .curly (quoted key :: [0x3A] :: doc.tokens)

/-- The tokens behind a value that complete the open brackets around it. -/
inductive Completes : List Bracket → List Bytes → Prop where
  | nil : Completes [] []
  | close {bracket : Bracket} {outer : List Bracket} {groups : List (List Bytes)}
      {later : List Bytes} (each : ∀ group ∈ groups, Group bracket group)
      (others : Completes outer later) :
      Completes (bracket :: outer) (separated groups ++ [bracket.closing] :: later)

inductive SkipState.Awaits : SkipState → List Bytes → Prop where
  | value {opened : List Bracket} {doc : Doc} {later : List Bytes} (formed : doc.WellFormed)
      (others : Completes opened later) : Awaits (.atValue opened) (doc.tokens ++ later)
  | opening {bracket : Bracket} {outer : List Bracket} {groups : List (List Bytes)}
      {later : List Bytes} (each : ∀ group ∈ groups, Group bracket group)
      (others : Completes outer later) :
      Awaits (.afterOpening bracket outer) (joined groups ++ [bracket.closing] :: later)
  | behind {opened : List Bracket} {later : List Bytes} (others : Completes opened later) :
      Awaits (.afterValue opened) later
  | member {bracket : Bracket} {outer : List Bracket} {group : List Bytes}
      {groups : List (List Bytes)} {later : List Bytes} (first : Group bracket group)
      (each : ∀ group ∈ groups, Group bracket group) (others : Completes outer later) :
      Awaits (.atMember bracket outer) (group ++ (separated groups ++ [bracket.closing] :: later))

theorem Group.tokens_cons {group : List Bytes} (grouped : Group bracket group) :
    ∃ token tokens, group = token :: tokens := by
  cases grouped with
  | element formed => exact Doc.tokens_cons formed
  | entry => exact ⟨_, _, rfl⟩

theorem elements_of_groups {groups : List (List Bytes)}
    (each : ∀ group ∈ groups, Group .square group) :
    ∃ docs : List Doc, (∀ doc ∈ docs, doc.WellFormed) ∧ groups = docs.map Doc.tokens := by
  induction groups with
  | nil => exact ⟨[], List.forall_mem_nil _, rfl⟩
  | cons group groups induction =>
      obtain ⟨first, each⟩ := List.forall_mem_cons.mp each
      obtain ⟨docs, formed, rfl⟩ := induction each
      cases first with
      | element here => exact ⟨_ :: docs, List.forall_mem_cons.mpr ⟨here, formed⟩, rfl⟩

theorem members_of_groups {groups : List (List Bytes)}
    (each : ∀ group ∈ groups, Group .curly group) :
    ∃ members : List (Bytes × Doc),
      (∀ entry ∈ members, (Doc.text entry.1).WellFormed ∧ entry.2.WellFormed) ∧
        groups = Doc.memberTokens members := by
  induction groups with
  | nil => exact ⟨[], List.forall_mem_nil _, rfl⟩
  | cons group groups induction =>
      obtain ⟨first, each⟩ := List.forall_mem_cons.mp each
      obtain ⟨members, formed, rfl⟩ := induction each
      cases first with
      | @entry key doc named here =>
          exact ⟨(key, doc) :: members, List.forall_mem_cons.mpr ⟨⟨named, here⟩, formed⟩, rfl⟩

theorem bracket_is_document {groups : List (List Bytes)}
    (each : ∀ group ∈ groups, Group bracket group) :
    ∃ doc : Doc, doc.WellFormed ∧
      doc.tokens = [bracket.opening] :: (joined groups ++ [[bracket.closing]]) := by
  cases bracket with
  | square =>
      obtain ⟨docs, formed, rfl⟩ := elements_of_groups each
      refine ⟨.array docs, Doc.well_formed_array_iff.mpr formed, ?_⟩
      rw [Doc.tokens, element_tokens_eq]
      rfl
  | curly =>
      obtain ⟨members, formed, rfl⟩ := members_of_groups each
      exact ⟨.object members, Doc.well_formed_object_iff.mpr formed, rfl⟩

/-! ## Single steps -/

/-- Between two places of a walk stand tokens that its first state awaits, if those behind are what its
second state awaits. -/
def Leads (state next : SkipState) (cursor place : Cursor) : Prop :=
  ∀ ⦃tokens : List Bytes⦄ ⦃target : Cursor⦄, next.Awaits tokens → Covers tokens place target →
    ∃ front, state.Awaits front ∧ Covers front cursor target

theorem leads_scalar {doc : Doc} (formed : doc.WellFormed) (covers : Covers doc.tokens cursor place) :
    Leads (.atValue opened) (.afterValue opened) cursor place := by
  rintro tokens target ⟨⟩ rest
  exact ⟨_, .value formed ‹_›, covers.append rest⟩

theorem leads_open (bracket : Bracket)
    (begun : cursor.skipBlanks.peek = some bracket.opening) :
    Leads (.atValue opened) (.afterOpening bracket opened) cursor cursor.skipBlanks.advance := by
  rintro tokens target awaits rest
  cases awaits with
  | @opening _ _ groups later each others =>
      obtain ⟨doc, formed, same⟩ := bracket_is_document each
      refine ⟨_, .value formed others, ?_⟩
      have whole := (Covers.of_peek begun).append rest
      rw [same]
      simpa using whole

theorem skip_scalar_passed {step : SkipStep}
    (read : skipScalar opened cursor.skipBlanks = .ok (step, place)) :
    ∃ next, step = .next next ∧ Leads (.atValue opened) next cursor place := by
  have scalar {reading : Reading Unit}
      (read : reading.map (fun _ => SkipStep.next (.afterValue opened)) = .ok (step, place))
      (document : reading = .ok ((), place) →
        ∃ doc : Doc, doc.WellFormed ∧ Covers doc.tokens cursor place) :
      ∃ next, step = .next next ∧ Leads (.atValue opened) next cursor place := by
    obtain ⟨_, found, rfl⟩ := Reading.map_ok read
    obtain ⟨doc, formed, covers⟩ := document found
    exact ⟨_, rfl, leads_scalar formed covers⟩
  unfold skipScalar at read
  dsimp only at read
  split at read
  · cases read
  · rename_i byte begun
    split at read
    · rename_i isNull
      exact scalar read (word_recognized .null rfl (isNull ▸ begun))
    · split at read
      · rename_i isTrue
        exact scalar read (word_recognized .true rfl (isTrue ▸ begun))
      · split at read
        · rename_i isFalse
          exact scalar read (word_recognized .false rfl (isFalse ▸ begun))
        · split at read
          · rename_i isMinus
            refine scalar read fun found => ?_
            obtain ⟨whole, places, power, magnitude, passed⟩ := skip_number_passed found
            exact negative_recognized magnitude (isMinus ▸ begun) passed
          · split at read
            · refine scalar read fun found => ?_
              obtain ⟨whole, places, power, magnitude, passed⟩ := skip_number_passed found
              exact numeral_recognized (.unsigned magnitude) passed
            · split at read
              · rename_i isQuote
                refine scalar read fun found => ?_
                obtain ⟨body, spelled, visible, passed⟩ := skip_literal_body_passed found
                exact string_recognized (Doc.well_formed_text_iff.mpr ⟨spelled, visible⟩)
                  (isQuote ▸ begun) passed
              · split at read
                · rename_i isSquare
                  cases read
                  exact ⟨_, rfl, leads_open .square (by rw [begun, isSquare]; rfl)⟩
                · split at read
                  · rename_i isCurly
                    cases read
                    exact ⟨_, rfl, leads_open .curly (by rw [begun, isCurly]; rfl)⟩
                  · cases read

theorem leads_close (begun : cursor.skipBlanks.peek = some bracket.closing) :
    Leads (.afterOpening bracket outer) (.afterValue outer) cursor cursor.skipBlanks.advance ∧
      Leads (.afterValue (bracket :: outer)) (.afterValue outer) cursor
        cursor.skipBlanks.advance := by
  have none : ∀ group ∈ ([] : List (List Bytes)), Group bracket group := List.forall_mem_nil _
  constructor
  · rintro tokens target ⟨⟩ rest
    exact ⟨_, .opening none ‹_›, (Covers.of_peek begun).append rest⟩
  · rintro tokens target ⟨⟩ rest
    exact ⟨_, .behind (.close none ‹_›), (Covers.of_peek begun).append rest⟩

theorem leads_first :
    Leads (.afterOpening bracket outer) (.atMember bracket outer) cursor cursor.skipBlanks := by
  rintro tokens target awaits rest
  cases awaits with
  | @member _ _ group groups later first each others =>
      obtain ⟨token, tokens, rfl⟩ := first.tokens_cons
      refine ⟨_, .opening (List.forall_mem_cons.mpr ⟨first, each⟩) others, ?_⟩
      rw [joined, List.append_assoc]
      exact Covers.skip rest

theorem leads_comma (begun : cursor.skipBlanks.peek = some 0x2C) :
    Leads (.afterValue (bracket :: outer)) (.atMember bracket outer) cursor
      cursor.skipBlanks.advance := by
  rintro tokens target awaits rest
  cases awaits with
  | @member _ _ group groups later first each others =>
      refine ⟨_, .behind (.close (List.forall_mem_cons.mpr ⟨first, each⟩) others), ?_⟩
      have whole := (Covers.of_peek begun).append rest
      simpa [separated_cons] using whole

theorem leads_element :
    Leads (.atMember .square outer) (.atValue (.square :: outer)) cursor cursor.skipBlanks := by
  rintro tokens target awaits rest
  cases awaits with
  | @value _ doc later formed others =>
      cases others with
      | close each others =>
          obtain ⟨token, tokens, same⟩ := Doc.tokens_cons formed
          refine ⟨_, .member (.element formed) each others, ?_⟩
          rw [same] at rest ⊢
          exact Covers.skip rest

theorem leads_entry {key : Bytes} (named : (Doc.text key).WellFormed)
    (covers : Covers [quoted key, [0x3A]] cursor place) :
    Leads (.atMember .curly outer) (.atValue (.curly :: outer)) cursor place := by
  rintro tokens target awaits rest
  cases awaits with
  | @value _ doc later formed others =>
      cases others with
      | close each others =>
          exact ⟨_, .member (.entry named formed) each others, covers.append rest⟩

theorem skip_name_passed (read : skipName cursor.skipBlanks = .ok ((), place)) :
    ∃ key, (Doc.text key).WellFormed ∧ Covers [quoted key, [0x3A]] cursor place := by
  unfold skipName at read
  split at read
  · cases read
  · rename_i byte begun
    split at read
    · rename_i isQuote
      obtain ⟨_, following, literal, colon⟩ := Reading.and_then_ok read
      obtain ⟨key, spelled, visible, passed⟩ := skip_literal_body_passed literal
      dsimp only at colon
      split at colon
      · cases colon
      · rename_i mark marked
        split at colon
        · rename_i isColon
          cases colon
          refine ⟨key, Doc.well_formed_text_iff.mpr ⟨spelled, visible⟩, ?_⟩
          have name : Covers [quoted key] cursor following := .of_token (by
            rw [rest_of_peek begun, passed, isQuote, quoted]
            simp)
          exact name.append (.of_peek (isColon ▸ marked))
        · cases colon
    · cases read

/-- Every step but the last takes what it passes over from the tokens that are awaited. -/
theorem skip_step_passed {state : SkipState} {step : SkipStep}
    (read : skipStep state cursor = .ok (step, place)) :
    (step = .finished ∧ state = .afterValue [] ∧ place = cursor) ∨
      ∃ next, step = .next next ∧ Leads state next cursor place := by
  unfold skipStep at read
  dsimp only at read
  split at read
  · exact .inr (skip_scalar_passed read)
  · split at read
    · cases read
    · rename_i byte begun
      split at read
      · rename_i closes
        cases read
        exact .inr ⟨_, rfl, (leads_close (closes ▸ begun)).1⟩
      · cases read
        exact .inr ⟨_, rfl, leads_first⟩
  · cases read
    exact .inl ⟨rfl, rfl, rfl⟩
  · split at read
    · cases read
    · rename_i byte begun
      split at read
      · rename_i isComma
        cases read
        exact .inr ⟨_, rfl, leads_comma (isComma ▸ begun)⟩
      · split at read
        · rename_i closes
          cases read
          exact .inr ⟨_, rfl, (leads_close (closes ▸ begun)).2⟩
        · cases read
  · cases read
    exact .inr ⟨_, rfl, leads_element⟩
  · obtain ⟨_, name, rfl⟩ := Reading.map_ok read
    obtain ⟨key, named, covers⟩ := skip_name_passed name
    exact .inr ⟨_, rfl, leads_entry named covers⟩

/-! ## The whole walk -/

theorem skip_passed {fuel : Nat} {state : SkipState}
    (read : skipFrom fuel state cursor = .ok ((), place)) :
    ∃ tokens, state.Awaits tokens ∧ Covers tokens cursor place := by
  induction fuel generalizing state cursor with
  | zero => cases read
  | succ fuel induction =>
      rw [skipFrom] at read
      obtain ⟨step, following, first, goesOn⟩ := Reading.and_then_ok read
      rcases skip_step_passed first with ⟨rfl, rfl, rfl⟩ | ⟨next, rfl, leads⟩
      · cases goesOn
        exact ⟨[], .behind .nil, [], .nil, rfl⟩
      · obtain ⟨tokens, awaits, covers⟩ := induction goesOn
        exact leads awaits covers

theorem skip_recognizes : Recognizes skipValue := by
  intro cursor value place read
  obtain ⟨tokens, awaits, covers⟩ := skip_passed read
  cases awaits with
  | @value _ doc later formed others =>
      cases others
      rw [List.append_nil] at covers
      exact ⟨doc, formed, covers⟩

end LocalNet.Json
