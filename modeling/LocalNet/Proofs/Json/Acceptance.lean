import LocalNet.Proofs.Json.Passing

/-!
# Which texts a decoder accepts

A decoder whose parts accept documents only accepts documents only. Being uniform as well, it accepts a
text exactly if the text spells a well-formed document that has a meaning for it, and comes to that.
-/

namespace LocalNet.Json

variable {α β ρ : Type} {cursor place : Cursor}

theorem at_value_passed {choose : UInt8 → Cursor → Reading α} {value : α}
    (read : atValue cursor choose = .ok (value, place)) :
    ∃ byte, cursor.skipBlanks.peek = some byte ∧
      choose byte cursor.skipBlanks = .ok (value, place) := by
  unfold atValue at read
  dsimp only at read
  split at read
  · cases read
  · exact ⟨_, ‹_›, read⟩

theorem Recognizes.map {reader : Cursor → Reading α} (recognizes : Recognizes reader)
    (change : α → β) : Recognizes fun cursor => (reader cursor).map change := by
  intro cursor value place read
  obtain ⟨_, found, -⟩ := Reading.map_ok read
  exact recognizes found

theorem Recognizes.skip {reader : Cursor → Reading α} (recognizes : Recognizes reader) :
    Recognizes fun cursor => reader cursor.skipBlanks := by
  intro cursor value place read
  obtain ⟨doc, formed, covers⟩ := recognizes read
  obtain ⟨token, tokens, same⟩ := Doc.tokens_cons formed
  rw [same] at covers
  exact ⟨doc, formed, same ▸ covers.skip⟩

namespace Decoder

def Recognizes (decoder : Decoder α) : Prop :=
  ∀ depth, Json.Recognizes (decoder.read depth)

theorem boolean_recognizes : boolean.Recognizes := by
  intro depth cursor value place read
  simp only [boolean] at read
  obtain ⟨byte, begun, chosen⟩ := at_value_passed read
  split at chosen
  · rename_i isTrue
    obtain ⟨_, found, -⟩ := Reading.map_ok chosen
    exact word_recognized .true rfl (isTrue ▸ begun) found
  · split at chosen
    · rename_i isFalse
      obtain ⟨_, found, -⟩ := Reading.map_ok chosen
      exact word_recognized .false rfl (isFalse ▸ begun) found
    · exact absurd chosen refuse_kind_not_ok

theorem text_recognizes (expected : String) : (text expected).Recognizes := by
  intro depth cursor value place read
  simp only [text] at read
  obtain ⟨byte, begun, chosen⟩ := at_value_passed read
  split at chosen
  · rename_i isQuote
    exact text_recognized (isQuote ▸ begun) chosen
  · exact absurd chosen refuse_kind_not_ok

theorem integer_recognizes (least greatest : Int) (expected : String) :
    (integer least greatest expected).Recognizes := by
  intro depth cursor value place read
  simp only [integer] at read
  obtain ⟨byte, begun, chosen⟩ := at_value_passed read
  split at chosen
  · rename_i isMinus
    obtain ⟨number, turn, found, judged⟩ := Reading.and_then_ok chosen
    obtain ⟨whole, places, power, magnitude, passed⟩ := number_passed found
    split at judged
    · cases judged
      exact negative_recognized magnitude (isMinus ▸ begun) passed
    · cases judged
  · split at chosen
    · obtain ⟨number, turn, found, judged⟩ := Reading.and_then_ok chosen
      obtain ⟨whole, places, power, magnitude, passed⟩ := number_passed found
      split at judged
      · cases judged
        exact numeral_recognized (.unsigned magnitude) passed
      · cases judged
    · exact absurd chosen refuse_kind_not_ok

theorem map_recognizes (change : α → β) {decoder : Decoder α} (recognizes : decoder.Recognizes) :
    (decoder.map change).Recognizes :=
  fun depth => (recognizes depth).map change

theorem optional_recognizes {decoder : Decoder α} (recognizes : decoder.Recognizes) :
    (optional decoder).Recognizes := by
  intro depth cursor value place read
  simp only [optional] at read
  split at read
  · rename_i isNull
    obtain ⟨_, found, -⟩ := Reading.map_ok read
    exact word_recognized .null rfl isNull found
  · exact ((recognizes depth).map some).skip read

theorem kept_recognizes_step {depth : Nat}
    (inner : ∀ smaller, depth = smaller + 1 → Json.Recognizes (readValue smaller)) :
    Json.Recognizes (readValue depth) := by
  intro cursor value place read
  rw [read_value_eq] at read
  dsimp only at read
  obtain ⟨byte, begun, chosen⟩ := at_value_passed read
  split at chosen
  · rename_i isNull
    obtain ⟨_, found, -⟩ := Reading.map_ok chosen
    exact word_recognized .null rfl (isNull ▸ begun) found
  · split at chosen
    · rename_i isTrue
      obtain ⟨_, found, -⟩ := Reading.map_ok chosen
      exact word_recognized .true rfl (isTrue ▸ begun) found
    · split at chosen
      · rename_i isFalse
        obtain ⟨_, found, -⟩ := Reading.map_ok chosen
        exact word_recognized .false rfl (isFalse ▸ begun) found
      · split at chosen
        · rename_i isMinus
          obtain ⟨_, found, -⟩ := Reading.map_ok chosen
          obtain ⟨whole, places, power, magnitude, passed⟩ := number_passed found
          exact negative_recognized magnitude (isMinus ▸ begun) passed
        · split at chosen
          · obtain ⟨_, found, -⟩ := Reading.map_ok chosen
            obtain ⟨whole, places, power, magnitude, passed⟩ := number_passed found
            exact numeral_recognized (.unsigned magnitude) passed
          · split at chosen
            · rename_i isQuote
              obtain ⟨_, found, -⟩ := Reading.map_ok chosen
              exact text_recognized (isQuote ▸ begun) found
            · split at chosen
              · rename_i isSquare
                obtain ⟨_, found, -⟩ := Reading.map_ok chosen
                cases depth with
                | zero => cases found
                | succ depth =>
                    obtain ⟨docs, each, covers⟩ := elements_passed (inner depth rfl) found
                    exact array_recognized each (isSquare ▸ begun) covers
              · split at chosen
                · rename_i isCurly
                  cases depth with
                  | zero => cases chosen
                  | succ depth =>
                      obtain ⟨_, found, -⟩ := Reading.map_ok chosen
                      obtain ⟨members, each, covers⟩ := members_passed
                        (fun name state cursor changed place stored =>
                          behind_colon ((inner depth rfl).map fun value => putMember name value state)
                            stored) found
                      exact object_recognized each (isCurly ▸ begun) covers
                · cases chosen

theorem kept_recognizes : kept.Recognizes := by
  intro depth
  induction depth with
  | zero => exact kept_recognizes_step fun _ impossible => by cases impossible
  | succ depth induction => exact kept_recognizes_step fun _ same => by cases same; exact induction

end Decoder

/-! ## Records -/

namespace Record

variable {record : Record ρ}

theorem member_recognizes {depth : Nat}
    (fields : ∀ field ∈ record.fields, Json.Recognizes (field.store.read depth)) :
    RecognizesMember (record.readMember depth) := by
  intro name draft cursor changed place read
  rw [readMember] at read
  split at read
  · cases read
  · exact behind_colon (skip_recognizes.map fun _ => draft) read
  · rename_i field stored
    have listed : field ∈ record.fields :=
      List.mem_of_find?_eq_some (stored_field_known stored)
    exact behind_colon ((fields field listed).map fun change => draft.put name change) read

theorem fields_passed {depth : Nat} {fields : List (Field ρ)}
    (recognizes : ∀ field ∈ fields, Json.Recognizes (field.store.read depth)) {number : Nat}
    {first : Bool} {value result : ρ}
    (read : record.readFields depth number first fields value cursor = .ok (result, place)) :
    ∃ docs : List Doc, (∀ doc ∈ docs, doc.WellFormed) ∧
      Covers (remaining first (docs.map Doc.tokens) ++ [[0x5D]]) cursor place := by
  induction fields generalizing number first value cursor with
  | nil =>
      rw [readFields] at read
      obtain ⟨_, closed, -⟩ := Reading.map_ok read
      refine ⟨[], List.forall_mem_nil _, ?_⟩
      cases first <;> exact close_list_passed closed
  | cons field fields induction =>
      obtain ⟨here, others⟩ := List.forall_mem_cons.mp recognizes
      rw [readFields] at read
      obtain ⟨more, following, next, goesOn⟩ := Reading.and_then_ok read
      rcases next_element_passed next with ⟨rfl, rfl, closes⟩ | ⟨rfl, announced⟩
      · rw [if_neg Bool.false_ne_true] at goesOn
        split at goesOn
        · cases goesOn
        · obtain ⟨docs, each, covers⟩ := induction others goesOn
          have given : ∃ token tokens,
              remaining first (docs.map Doc.tokens) ++ [[0x5D]] = token :: tokens :=
            List.exists_cons_of_ne_nil (by simp)
          obtain ⟨token, tokens, same⟩ := given
          rw [same] at covers
          exact ⟨docs, each, same ▸ covers.skip⟩
      · rw [if_pos rfl] at goesOn
        obtain ⟨change, behind, found, rest⟩ := Reading.and_then_ok goesOn
        obtain ⟨doc, formed, covers⟩ := here found
        obtain ⟨docs, each, later⟩ := induction others rest
        exact ⟨doc :: docs, List.forall_mem_cons.mpr ⟨formed, each⟩,
          covers_next announced (Doc.tokens_cons formed) covers later⟩

theorem record_recognizes (fields : ∀ field ∈ record.fields, field.store.Recognizes) :
    record.decoder.Recognizes := by
  intro depth cursor value place read
  simp only [decoder, Record.read] at read
  obtain ⟨byte, begun, chosen⟩ := at_value_passed read
  split at chosen
  · rename_i isSquare
    split at chosen
    · cases chosen
    · rename_i depth
      obtain ⟨docs, each, covers⟩ :=
        fields_passed (fun field listed => fields field listed depth) chosen
      exact array_recognized each (isSquare ▸ begun) covers
  · split at chosen
    · rename_i isCurly
      split at chosen
      · cases chosen
      · rename_i depth
        obtain ⟨draft, following, found, completed⟩ := Reading.and_then_ok chosen
        obtain ⟨members, each, covers⟩ :=
          members_passed (member_recognizes fun field listed => fields field listed depth) found
        split at completed
        · cases completed
          exact object_recognized each (isCurly ▸ begun) covers
        · cases completed
    · exact absurd chosen refuse_kind_not_ok

end Record

/-! ## Whole texts -/

theorem finish_passed {reading : Reading α} {value : α} (finished : finish reading = .ok value) :
    ∃ place, reading = .ok (value, place) ∧ Blank place.rest := by
  rcases reading with failure | ⟨found, place⟩
  · cases finished
  · rw [finish] at finished
    split at finished
    · rename_i ended
      cases finished
      refine ⟨place, rfl, ?_⟩
      rw [Cursor.peek_eq, Cursor.rest_skip_blanks, List.head?_eq_none_iff,
        List.dropWhile_eq_nil_iff] at ended
      exact ended
    · cases finished

/-- A text is accepted exactly if it spells a well-formed document with a meaning, and it comes to that
meaning. -/
theorem accepted_iff {reader : Cursor → Reading α} (uniform : Uniform reader)
    (recognizes : Recognizes reader) {text : Bytes} {value : α} :
    finish (reader (Cursor.start text)) = .ok value ↔
      ∃ doc : Doc, doc.WellFormed ∧ doc.Spells text ∧ meaning reader doc = some value := by
  constructor
  · intro finished
    obtain ⟨place, read, blank⟩ := finish_passed finished
    obtain ⟨doc, formed, body, spaced, rest⟩ := recognizes read
    have spells : doc.Spells text := ⟨body, place.rest, spaced, blank, rest⟩
    exact ⟨doc, formed, spells, (finish_reading uniform formed.toLexical spells value).mp finished⟩
  · rintro ⟨doc, formed, spells, means⟩
    exact (finish_reading uniform formed.toLexical spells value).mpr means

theorem Decoder.accepted_text_iff {decoder : Decoder α} (uniform : decoder.IsUniform)
    (recognizes : decoder.Recognizes) {text : Bytes} {value : α} :
    decoder.fromText text = .ok value ↔
      ∃ doc : Doc, doc.WellFormed ∧ doc.Spells text ∧
        meaning (decoder.read maximalDepth) doc = some value :=
  accepted_iff (uniform maximalDepth) (recognizes maximalDepth)

theorem parsed_iff {text : Bytes} {value : Value} :
    Value.parse text = .ok value ↔
      ∃ doc : Doc, doc.WellFormed ∧ doc.Spells text ∧
        Decoder.keptAt? maximalDepth doc = some value := by
  have accepted : Value.parse text = .ok value ↔ _ :=
    accepted_iff (Decoder.kept_is_uniform maximalDepth) (Decoder.kept_recognizes maximalDepth)
  rw [accepted]
  refine exists_congr fun doc => and_congr_right fun formed => ?_
  have means := (Decoder.kept_yields formed.toLexical maximalDepth).meaning_eq
  rw [← means]
  rfl

end LocalNet.Json
