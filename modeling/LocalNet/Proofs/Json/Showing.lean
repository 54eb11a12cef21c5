import LocalNet.Proofs.Json.Order
import LocalNet.Proofs.Json.Values
import Mathlib.Data.List.Perm.Basic

/-!
# Text and value decode alike

A document shows a value if it is JSON text of it: its strings and numbers may be spelled in any
way, and the members of its objects may stand in any order. What a decoder makes of the value it
makes of the document too, as long as that is not nested too deep.
-/

namespace LocalNet.Json

variable {α β ρ : Type}

inductive Doc.Shows : Doc → Value → Prop where
  | null : Shows (.word .null) .null
  | true : Shows (.word .true) (.boolean true)
  | false : Shows (.word .false) (.boolean false)
  | number {literal : Bytes} {number : Number} (spelled : numberOf? literal = some number) :
      Shows (.number literal) (.number number)
  | text {body : Bytes} {text : String} (spelled : textOf? body = some text) :
      Shows (.text body) (.text text)
  | array {elements : List Doc} {values : List Value} (each : List.Forall₂ Shows elements values) :
      Shows (.array elements) (.array values)
  | object {members : List (Bytes × Doc)} {named values : List (String × Value)}
      (names : List.Forall₂ (fun member entry => textOf? member.1 = some entry.1) members named)
      (each : List.Forall₂ (fun member entry => Shows member.2 entry.2) members named)
      (permuted : named.Perm values) : Shows (.object members) (.object values)

def ShowsMember (member : Bytes × Doc) (entry : String × Value) : Prop :=
  textOf? member.1 = some entry.1 ∧ member.2.Shows entry.2

theorem Doc.Shows.named {members : List (Bytes × Doc)} {values : List (String × Value)}
    (shows : (Doc.object members).Shows (.object values)) :
    ∃ named, List.Forall₂ ShowsMember members named ∧ named.Perm values := by
  cases shows with
  | object names each permuted =>
      refine ⟨_, ?_, permuted⟩
      clear permuted
      induction names with
      | nil => exact List.Forall₂.nil
      | cons name _ induction =>
          obtain _ | ⟨first, others⟩ := each
          exact List.Forall₂.cons ⟨name, first⟩ (induction others)

theorem Doc.Shows.aligned {members : List (Bytes × Doc)} {values : List (String × Value)}
    (shows : (Doc.object members).Shows (.object values)) :
    ∃ others, members.Perm others ∧ List.Forall₂ ShowsMember others values := by
  obtain ⟨named, each, permuted⟩ := shows.named
  have composed : Relation.Comp (List.Forall₂ ShowsMember) List.Perm members values :=
    ⟨named, each, permuted⟩
  rw [List.forall₂_comp_perm_eq_perm_comp_forall₂] at composed
  exact composed

theorem except_map_ok {ε : Type} {outcome : Except ε α} {change : α → β} {result : β}
    (success : outcome.map change = .ok result) :
    ∃ value, outcome = .ok value ∧ change value = result := by
  cases outcome with
  | error reason => cases success
  | ok value =>
      cases success
      exact ⟨value, rfl, rfl⟩

namespace Decoder

/-- The two routes lead to the same result for this value. -/
def Agrees (decoder : Decoder α) (value : Value) : Prop :=
  ∀ (depth : Nat) (doc : Doc) (result : α), doc.WellFormed → doc.Shows value →
    value.NestedWithin depth → decoder.ofValue value = .ok result →
    meaning (decoder.read depth) doc = some result

theorem boolean_agrees (value : Value) : boolean.Agrees value := by
  intro depth doc result formed shows _ decoded
  rw [(boolean_yields formed.toLexical depth).meaning_eq]
  cases shows <;> cases decoded <;> rfl

theorem text_agrees (expected : String) (value : Value) : (text expected).Agrees value := by
  intro depth doc result formed shows _ decoded
  rw [(text_yields formed.toLexical depth).meaning_eq]
  cases shows with
  | text spelled =>
      cases decoded
      exact spelled
  | _ => cases decoded

theorem integer_agrees (least greatest : Int) (expected : String) (value : Value) :
    (integer least greatest expected).Agrees value := by
  intro depth doc result formed shows _ decoded
  rw [(integer_yields formed.toLexical depth).meaning_eq]
  cases shows with
  | @number literal number spelled =>
      have judged : integerOf least greatest expected number = .ok result := decoded
      simp [Doc.number?, spelled, judged, Except.toOption]
  | _ => cases decoded

theorem map_agrees {decoder : Decoder α} {value : Value} (change : α → β)
    (agrees : decoder.Agrees value) : (decoder.map change).Agrees value := by
  intro depth doc result formed shows within decoded
  obtain ⟨first, found, rfl⟩ := except_map_ok decoded
  rw [map_reads, agrees depth doc first formed shows within found]
  rfl

/-! ## Lists -/

theorem map_each_ok {decode : Value → Except Mismatch α} {values : List Value} {results : List α}
    (decoded : mapEach decode values = .ok results) :
    List.Forall₂ (fun value result => decode value = .ok result) values results := by
  induction values generalizing results with
  | nil =>
      cases decoded
      exact List.Forall₂.nil
  | cons value values induction =>
      rw [mapEach] at decoded
      split at decoded
      · cases decoded
      · rename_i first found
        obtain ⟨rest, others, rfl⟩ := except_map_ok decoded
        exact List.Forall₂.cons found (induction others)

theorem list_of_agrees {item : Decoder α} {values : List Value}
    (agrees : ∀ value ∈ values, item.Agrees value) {depth : Nat} {elements : List Doc}
    {results : List α} (formed : (Doc.array elements).WellFormed)
    (shows : (Doc.array elements).Shows (.array values))
    (within : (Value.array values).NestedWithin depth)
    (decoded : mapEach item.ofValue values = .ok results) :
    listOf? item depth (.array elements) = some results := by
  cases within with
  | @array depth _ nested =>
      cases shows with
      | array each =>
          rw [listOf?]
          rw [Doc.well_formed_array_iff] at formed
          have found := map_each_ok decoded
          clear decoded
          induction each generalizing results with
          | nil =>
              cases found
              rfl
          | @cons element value elements values first others induction =>
              obtain _ | ⟨one, rest⟩ := found
              have read := agrees value (by simp) depth element _ (formed element (by simp)) first
                (nested value (by simp)) one
              have remaining := induction (fun other member => agrees other (by simp [member]))
                (fun other member => formed other (by simp [member]))
                (fun other member => nested other (by simp [member])) rest
              rw [meanings, read, remaining]
              rfl

theorem list_agrees {item : Decoder α} (uniform : item.IsUniform) {values : List Value}
    (agrees : ∀ value ∈ values, item.Agrees value) : (list item).Agrees (.array values) := by
  intro depth doc results formed shows within decoded
  cases shows with
  | array each =>
      rw [(list_yields uniform formed.toLexical depth).meaning_eq]
      exact list_of_agrees agrees formed (.array each) within decoded

theorem list_agrees_all {item : Decoder α} (uniform : item.IsUniform)
    (agree : ∀ {value : Value}, value.WellFormed → item.Agrees value) {value : Value}
    (wellFormed : value.WellFormed) : (list item).Agrees value := by
  cases wellFormed with
  | array each => exact list_agrees uniform fun element listed => agree (each element listed)
  | _ =>
      intro depth doc result _ _ _ decoded
      cases decoded

theorem bytes_agrees (value : Value) : bytes.Agrees value := by
  intro depth doc result formed shows within decoded
  rw [(bytes_yields formed.toLexical depth).meaning_eq]
  cases shows with
  | text spelled =>
      cases decoded
      exact bytes_of_text spelled
  | array each =>
      exact list_of_agrees
        (fun value _ => map_agrees _ (integer_agrees _ _ _ value)) formed (.array each) within decoded
  | _ => cases decoded

/-! ## Values that are kept -/

theorem map_each_kept (values : List Value) : mapEach kept.ofValue values = .ok values := by
  induction values with
  | nil => rfl
  | cons value values induction =>
      rw [mapEach, induction]
      rfl

theorem walk_kept {depth : Nat} {members : List (Bytes × Doc)} {named : List (String × Value)}
    (reads : ∀ member ∈ members, ∀ entry ∈ named, member.2.Shows entry.2 →
      meaning (readValue depth) member.2 = some entry.2)
    (shows : List.Forall₂ ShowsMember members named) (held : List (String × Value)) :
    walkMembers (fun held name doc =>
      (meaning (readValue depth) doc).map fun value => putMember name value held) held members =
      some (named.foldl (fun held entry => putMember entry.1 entry.2 held) held) := by
  induction shows generalizing held with
  | nil => rfl
  | @cons member entry members named first others induction =>
      obtain ⟨spelled, shown⟩ := first
      rw [walkMembers, spelled, Option.bind_some, reads member (by simp) entry (by simp) shown,
        Option.map_some, Option.bind_some, List.foldl_cons]
      exact induction (fun other inside named listed =>
        reads other (by simp [inside]) named (by simp [listed])) _

theorem agrees_of_kept {value : Value} (shown : ∀ {depth : Nat} {doc : Doc}, doc.WellFormed →
    doc.Shows value → value.NestedWithin depth → keptAt? depth doc = some value) :
    kept.Agrees value := by
  intro depth doc result formed shows within decoded
  cases decoded
  exact (kept_yields formed.toLexical depth).meaning_eq.trans (shown formed shows within)

theorem kept_of_shows {value : Value} (wellFormed : value.WellFormed) {depth : Nat} {doc : Doc}
    (formed : doc.WellFormed) (shows : doc.Shows value) (within : value.NestedWithin depth) :
    keptAt? depth doc = some value := by
  induction wellFormed generalizing depth doc with
  | null =>
      cases shows
      rfl
  | boolean => cases shows <;> rfl
  | number =>
      cases shows with
      | number spelled =>
          rw [keptAt?, spelled]
          rfl
  | text =>
      cases shows with
      | text spelled =>
          rw [keptAt?, spelled]
          rfl
  | @array values _ induction =>
      have agrees : ∀ value ∈ values, kept.Agrees value :=
        fun value listed => agrees_of_kept (induction value listed)
      cases shows with
      | array each =>
          rw [keptAt?, list_of_agrees agrees formed (.array each) within (map_each_kept values)]
          rfl
  | @object values ascending _ induction =>
      cases shows with
      | @object members named _ names each permuted =>
          have shows : (Doc.object members).Shows (.object values) := .object names each permuted
          obtain ⟨named, each, permuted⟩ := shows.named
          cases within with
          | @object depth _ nested =>
              -- The members of the document stand in an order of their own.
              have formed := Doc.well_formed_object_iff.mp formed
              have reads : ∀ member ∈ members, ∀ entry ∈ named, member.2.Shows entry.2 →
                  meaning (readValue depth) member.2 = some entry.2 := by
                intro member inside entry listed shown
                have stored := permuted.mem_iff.mp listed
                have value := (formed member inside).2
                exact (kept_yields value.toLexical depth).meaning_eq.trans
                  (induction entry stored value shown (nested entry stored))
              rw [keptAt?, walk_kept reads each [], put_all_eq permuted ascending]
              rfl

theorem kept_agrees {value : Value} (wellFormed : value.WellFormed) : kept.Agrees value :=
  agrees_of_kept (kept_of_shows wellFormed)

theorem optional_agrees {decoder : Decoder α} (uniform : decoder.IsUniform) {value : Value}
    (agrees : decoder.Agrees value) : (optional decoder).Agrees value := by
  intro depth doc result formed shows within decoded
  refine (optional_yields uniform formed.toLexical depth).meaning_eq.trans ?_
  by_cases absent : value = .null
  · subst absent
    cases shows
    cases decoded
    rfl
  · have present : optionalOf? decoder depth doc = (meaning (decoder.read depth) doc).map some := by
      rw [optionalOf?]
      rintro rfl
      cases shows
      exact absent rfl
    have stored : (decoder.ofValue value).map some = .ok result := by
      cases value <;> first | exact absurd rfl absent | exact decoded
    obtain ⟨first, found, rfl⟩ := except_map_ok stored
    rw [present, agrees depth doc first formed shows within found]
    rfl

end Decoder

/-! ## Records -/

namespace Record

theorem walk_agrees {record : Record ρ} {depth : Nat} {members : List (String × Value)}
    (agrees : ∀ member ∈ members, ∀ field, record.field? member.1 = some field →
      field.store.Agrees member.2)
    (within : ∀ member ∈ members, member.2.NestedWithin depth) {docs : List (Bytes × Doc)}
    (formed : ∀ doc ∈ docs, doc.2.WellFormed) (shows : List.Forall₂ ShowsMember docs members)
    {draft result : Draft ρ} (put : record.putMembers members draft = .ok result) :
    walkMembers (record.memberAt? depth) draft docs = some result := by
  induction shows generalizing draft with
  | nil =>
      cases put
      rfl
  | @cons doc member docs members first others induction =>
      obtain ⟨spelled, shown⟩ := first
      rw [putMembers] at put
      rw [walkMembers, spelled, Option.bind_some, memberAt?]
      have remaining (draft : Draft ρ) (put : record.putMembers members draft = .ok result) :
          walkMembers (record.memberAt? depth) draft docs = some result :=
        induction (fun other inside => agrees other (by simp [inside]))
          (fun other inside => within other (by simp [inside]))
          (fun other inside => formed other (by simp [inside])) put
      cases usage : record.useOf draft member.1 with
      | refuse reason =>
          rw [usage] at put
          cases put
      | passOver =>
          rw [usage] at put
          simp only [(formed doc (by simp)).noControls, ↓reduceIte, Option.bind_some]
          exact remaining draft put
      | store field =>
          rw [usage] at put
          dsimp only at put ⊢
          split at put
          · cases put
          · rename_i change stored
            have known : record.field? member.1 = some field := stored_field_known usage
            rw [agrees member (by simp) field known depth doc.2 change (formed doc (by simp)) shown
              (within member (by simp)) stored]
            exact remaining _ put

theorem object_agrees {record : Record ρ} (orderless : record.Orderless)
    (uniform : ∀ field ∈ record.fields, field.store.IsUniform) {members : List (String × Value)}
    (agrees : ∀ member ∈ members, ∀ field, record.field? member.1 = some field →
      field.store.Agrees member.2) : record.decoder.Agrees (.object members) := by
  intro depth doc result formed shows within decoded
  cases shows with
  | @object docs named _ names each permuted =>
      have shows : (Doc.object docs).Shows (.object members) := .object names each permuted
      obtain ⟨others, reordered, aligned⟩ := shows.aligned
      cases within with
      | @object depth _ nested =>
          simp only [decoder, ofValue] at decoded
          split at decoded
          · cases decoded
          · rename_i draft put
            have members := Doc.well_formed_object_iff.mp formed
            have walked := walk_agrees agrees nested
              (fun doc inside => (members doc (reordered.mem_iff.mpr inside)).2) aligned put
            have object := object_yields depth
              (fun field member => uniform field member depth) formed.toLexical
            refine object.meaning_eq.trans ?_
            rw [object_perm orderless reordered, objectAt?, walked, Option.bind_some, decoded]
            rfl

theorem fill_agrees {depth : Nat} {fields : List (Field ρ)} {values : List Value}
    (agrees : ∀ entry ∈ fields.zip values, entry.1.store.Agrees entry.2)
    (within : ∀ value ∈ values, value.NestedWithin depth) {docs : List Doc}
    (formed : ∀ doc ∈ docs, doc.WellFormed) (shows : List.Forall₂ Doc.Shows docs values)
    {record : Record ρ} {total place : Nat} {start result : ρ}
    (put : record.putElements total place fields values start = .ok result) :
    fill? (fun field => meaning (field.store.read depth)) fields docs start = some result := by
  induction fields generalizing docs values place start with
  | nil =>
      cases shows with
      | nil =>
          cases put
          rfl
      | cons => cases put
  | cons field fields induction =>
      cases shows with
      | nil =>
          rw [putElements] at put
          rw [fill?]
          split at put
          · cases put
          · rename_i optional
            rw [if_neg optional]
            exact induction (by simp) (by simp) (by simp) .nil put
      | @cons doc value docs values first others =>
          rw [List.zip_cons_cons, List.forall_mem_cons] at agrees
          rw [List.forall_mem_cons] at within formed
          rw [putElements] at put
          split at put
          · cases put
          · rename_i change stored
            rw [fill?, agrees.1 depth doc change formed.1 first within.1 stored]
            exact induction agrees.2 within.2 formed.2 others put

theorem array_agrees {record : Record ρ}
    (uniform : ∀ field ∈ record.fields, field.store.IsUniform) {elements : List Value}
    (agrees : ∀ entry ∈ record.fields.zip elements, entry.1.store.Agrees entry.2) :
    record.decoder.Agrees (.array elements) := by
  intro depth doc result formed shows within decoded
  cases shows with
  | array each =>
      cases within with
      | @array depth _ nested =>
          have array := array_yields depth
            (fun field member => uniform field member depth) formed.toLexical
          refine array.meaning_eq.trans ?_
          exact fill_agrees agrees nested (Doc.well_formed_array_iff.mp formed) each decoded

theorem record_agrees {record : Record ρ} (orderless : record.Orderless)
    (uniform : ∀ field ∈ record.fields, field.store.IsUniform)
    (agree : ∀ field ∈ record.fields, ∀ value : Value, value.WellFormed → field.store.Agrees value)
    {value : Value} (wellFormed : value.WellFormed) : record.decoder.Agrees value := by
  cases wellFormed with
  | array each =>
      refine array_agrees uniform fun entry listed => ?_
      obtain ⟨field, element⟩ := List.of_mem_zip listed
      exact agree _ field _ (each _ element)
  | object _ each =>
      exact object_agrees orderless uniform fun member listed field known =>
        agree field (field_of_name known).1 _ (each member listed)
  | _ =>
      intro depth doc result _ _ _ decoded
      cases decoded

end Record

end LocalNet.Json
