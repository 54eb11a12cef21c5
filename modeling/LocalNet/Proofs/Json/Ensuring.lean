import Mathlib.Data.List.DropRight
import LocalNet.Proofs.Json.Showing

/-!
# What a decoder ensures

Whatever text or value a decoder is given, what it comes to has the properties listed here. A
record keeps a property that its blank form has and that every field keeps.
-/

namespace LocalNet.Json

variable {α β ρ : Type}

structure Decoder.Ensures (decoder : Decoder α) (good : α → Prop) : Prop where
  read : ∀ depth cursor result place, decoder.read depth cursor = .ok (result, place) → good result
  stored : ∀ value result, value.WellFormed → decoder.ofValue value = .ok result → good result

inductive Decoder.Produces (decoder : Decoder α) (result : α) : Prop where
  | text (document : Bytes) (decoded : decoder.fromText document = .ok result)
  | value (value : Value) (wellFormed : value.WellFormed)
      (decoded : decoder.ofValue value = .ok result)

theorem finish_ok {reading : Reading α} {result : α} (finished : finish reading = .ok result) :
    ∃ place, reading = .ok (result, place) := by
  rcases reading with failure | ⟨value, cursor⟩
  · cases finished
  · rw [finish] at finished
    split at finished
    · cases finished
      exact ⟨cursor, rfl⟩
    · cases finished

theorem at_value_ok {choose : UInt8 → Cursor → Reading α} {before place : Cursor} {result : α}
    (read : atValue before choose = .ok (result, place)) :
    ∃ byte, choose byte before.skipBlanks = .ok (result, place) := by
  rw [atValue] at read
  split at read
  · cases read
  · exact ⟨_, read⟩

theorem refuse_kind_not_ok {expected : String} {cursor : Cursor} {result : α × Cursor} :
    refuseKind expected cursor ≠ .ok result := by
  intro read
  have seen := Reading.seen_refuse_kind (α := α) expected cursor
  rw [read] at seen
  cases seen

namespace Decoder

theorem Ensures.produced {decoder : Decoder α} {good : α → Prop} (ensures : decoder.Ensures good)
    {result : α} (produced : decoder.Produces result) : good result := by
  cases produced with
  | text document decoded =>
      obtain ⟨place, read⟩ := finish_ok decoded
      exact ensures.read _ _ result place read
  | value value wellFormed decoded => exact ensures.stored value result wellFormed decoded

theorem Ensures.meant {decoder : Decoder α} {good : α → Prop} (ensures : decoder.Ensures good)
    {depth : Nat} {doc : Doc} {result : α}
    (means : meaning (decoder.read depth) doc = some result) :
    good result := by
  obtain ⟨⟨value, rest⟩, seen, rfl⟩ := Option.map_eq_some_iff.mp means
  cases read : decoder.read depth (Cursor.start doc.compact) with
  | error failure =>
      rw [read] at seen
      cases seen
  | ok found =>
      rw [read] at seen
      cases seen
      exact ensures.read depth _ found.1 found.2 read

theorem ensures_nothing (decoder : Decoder α) : decoder.Ensures fun _ => True :=
  ⟨fun _ _ _ _ _ => trivial, fun _ _ _ _ => trivial⟩

theorem map_ensures {decoder : Decoder α} {good : α → Prop} {better : β → Prop} {change : α → β}
    (ensures : decoder.Ensures good) (carries : ∀ value, good value → better (change value)) :
    (decoder.map change).Ensures better where
  read depth cursor result place decoded := by
    obtain ⟨first, found, rfl⟩ := Reading.map_ok decoded
    exact carries first (ensures.read depth cursor first place found)
  stored value result wellFormed decoded := by
    obtain ⟨first, found, rfl⟩ := except_map_ok decoded
    exact carries first (ensures.stored value first wellFormed found)

theorem map_each_good {decode : Value → Except Mismatch α} {good : α → Prop} {values : List Value}
    (each : ∀ value ∈ values, ∀ result, decode value = .ok result → good result) {results : List α}
    (decoded : mapEach decode values = .ok results) : ∀ result ∈ results, good result := by
  have found := map_each_ok decoded
  clear decoded
  induction found with
  | nil => exact List.forall_mem_nil _
  | cons first _ induction =>
      rw [List.forall_mem_cons] at each ⊢
      exact ⟨each.1 _ first, induction each.2⟩

theorem list_ensures {item : Decoder α} {good : α → Prop} (ensures : item.Ensures good) :
    (list item).Ensures fun values => ∀ value ∈ values, good value where
  read depth cursor values place decoded := by
    simp only [list] at decoded
    obtain ⟨byte, chosen⟩ := at_value_ok decoded
    split at chosen
    · exact read_list_each _ (fun inner _ => ensures.read inner) chosen
    · exact absurd chosen refuse_kind_not_ok
  stored value values wellFormed decoded := by
    cases wellFormed with
    | array each =>
        exact map_each_good (fun value member result found =>
          ensures.stored value result (each value member) found) decoded
    | _ => cases decoded

theorem skip_blanks_again (cursor : Cursor) :
    cursor.skipBlanks.skipBlanks.rest = cursor.skipBlanks.rest := by
  rw [Cursor.rest_skip_blanks, Cursor.rest_skip_blanks, List.dropWhile_idempotent]

/-- What is kept of a present value is never null. -/
theorem optional_kept_ensures :
    (optional kept).Ensures fun held => ∀ value, held = some value →
      value.WellFormed ∧ value ≠ .null where
  read depth cursor held place decoded := by
    simp only [optional] at decoded
    split at decoded
    · obtain ⟨_, -, rfl⟩ := Reading.map_ok decoded
      exact fun _ none => (by cases none)
    · rename_i notNull
      obtain ⟨value, found, rfl⟩ := Reading.map_ok decoded
      rintro _ ⟨⟩
      refine ⟨kept_well_formed found, ?_⟩
      rintro rfl
      cases kept_read found with
      | null first =>
          -- The option looks behind the blanks that the kept value then skips once more.
          refine notNull ?_
          rwa [Cursor.peek_eq, skip_blanks_again, ← Cursor.peek_eq] at first
  stored value held wellFormed decoded := by
    cases value with
    | null =>
        cases decoded
        exact fun _ none => (by cases none)
    | _ =>
        cases decoded
        rintro _ ⟨⟩
        exact ⟨wellFormed, by simp⟩

end Decoder

/-! ## Records -/

/-- A field keeps a property of records, whatever it is given. -/
def Field.Keeps (field : Field ρ) (good : ρ → Prop) : Prop :=
  field.store.Ensures fun change => ∀ value, good value → good (change value)

namespace Record

variable {record : Record ρ} {good : ρ → Prop}

theorem complete_ok {draft : Draft ρ} {result : ρ}
    (completed : record.complete draft = .ok result) : draft.value = result := by
  rw [complete] at completed
  split at completed
  · cases completed
  · cases completed
    rfl

theorem put_members_keep {members : List (String × Value)}
    (keeps : ∀ member ∈ members, ∀ field change value, record.field? member.1 = some field →
      field.store.ofValue member.2 = .ok change → good value → good (change value))
    {draft result : Draft ρ} (before : good draft.value)
    (put : record.putMembers members draft = .ok result) : good result.value := by
  induction members generalizing draft with
  | nil =>
      cases put
      exact before
  | cons member members induction =>
      rw [List.forall_mem_cons] at keeps
      rw [putMembers] at put
      cases usage : record.useOf draft member.1 with
      | refuse reason =>
          rw [usage] at put
          cases put
      | passOver =>
          rw [usage] at put
          exact induction keeps.2 before put
      | store field =>
          rw [usage] at put
          dsimp only at put
          split at put
          · cases put
          · rename_i change stored
            exact induction keeps.2 (keeps.1 field change _ (stored_field_known usage) stored before)
              put

theorem put_elements_keep {total place : Nat} {fields : List (Field ρ)} {elements : List Value}
    (keeps : ∀ entry ∈ fields.zip elements, ∀ change value,
      entry.1.store.ofValue entry.2 = .ok change → good value → good (change value))
    {value result : ρ} (before : good value)
    (put : record.putElements total place fields elements value = .ok result) : good result := by
  induction fields generalizing elements place value with
  | nil =>
      cases elements with
      | nil =>
          cases put
          exact before
      | cons => cases put
  | cons field fields induction =>
      cases elements with
      | nil =>
          rw [putElements] at put
          split at put
          · cases put
          · exact induction (by simp) before put
      | cons element elements =>
          rw [List.zip_cons_cons, List.forall_mem_cons] at keeps
          rw [putElements] at put
          split at put
          · cases put
          · rename_i change stored
            exact induction keeps.2 (keeps.1 change value stored before) put

theorem of_object_keeps {members : List (String × Value)}
    (keeps : ∀ member ∈ members, ∀ field change value, record.field? member.1 = some field →
      field.store.ofValue member.2 = .ok change → good value → good (change value))
    (blank : good record.blank) {result : ρ}
    (decoded : record.ofValue (.object members) = .ok result) : good result := by
  rw [ofValue] at decoded
  split at decoded
  · cases decoded
  · rename_i draft put
    rw [← complete_ok decoded]
    have before : good record.start.value := blank
    exact put_members_keep keeps before put

theorem of_array_keeps {elements : List Value}
    (keeps : ∀ entry ∈ record.fields.zip elements, ∀ change value,
      entry.1.store.ofValue entry.2 = .ok change → good value → good (change value))
    (blank : good record.blank) {result : ρ}
    (decoded : record.ofValue (.array elements) = .ok result) : good result :=
  put_elements_keep keeps blank decoded

theorem read_fields_keep {depth place : Nat} {first : Bool} {fields : List (Field ρ)}
    (keep : ∀ field ∈ fields, field.Keeps good) {value result : ρ} {cursor behind : Cursor}
    (before : good value)
    (read : record.readFields depth place first fields value cursor = .ok (result, behind)) :
    good result := by
  induction fields generalizing place first value cursor with
  | nil =>
      obtain ⟨_, -, rfl⟩ := Reading.map_ok read
      exact before
  | cons field fields induction =>
      rw [List.forall_mem_cons] at keep
      rw [readFields] at read
      obtain ⟨more, following, -, goesOn⟩ := Reading.and_then_ok read
      split at goesOn
      · obtain ⟨change, rest, found, others⟩ := Reading.and_then_ok goesOn
        exact induction keep.2 (keep.1.read depth following change rest found value before) others
      · split at goesOn
        · cases goesOn
        · exact induction keep.2 before goesOn

theorem read_member_keeps {depth : Nat} (keep : ∀ field ∈ record.fields, field.Keeps good)
    {name : String} {draft result : Draft ρ} {cursor place : Cursor} (before : good draft.value)
    (read : record.readMember depth name draft cursor = .ok (result, place)) :
    good result.value := by
  rw [readMember] at read
  cases usage : record.useOf draft name with
  | refuse reason =>
      rw [usage] at read
      cases read
  | passOver =>
      rw [usage] at read
      obtain ⟨_, following, -, skipped⟩ := Reading.and_then_ok read
      obtain ⟨_, -, rfl⟩ := Reading.map_ok skipped
      exact before
  | store field =>
      rw [usage] at read
      obtain ⟨_, following, -, stored⟩ := Reading.and_then_ok read
      obtain ⟨change, found, rfl⟩ := Reading.map_ok stored
      have listed := List.mem_of_find?_eq_some (stored_field_known usage)
      exact (keep field listed).read depth following change place found draft.value before

/-- What the blank record has and every field keeps, every decoded record has. -/
theorem record_ensures (keep : ∀ field ∈ record.fields, field.Keeps good)
    (blank : good record.blank) : record.decoder.Ensures good where
  read depth cursor result place decoded := by
    simp only [decoder, Record.read] at decoded
    obtain ⟨byte, chosen⟩ := at_value_ok decoded
    split at chosen
    · cases depth with
      | zero => cases chosen
      | succ depth => exact read_fields_keep keep blank chosen
    · split at chosen
      · cases depth with
        | zero => cases chosen
        | succ depth =>
            obtain ⟨draft, following, read, finished⟩ := Reading.and_then_ok chosen
            have kept := read_members_keep (fun draft : Draft ρ => good draft.value)
              (fun name draft cursor changed place before found =>
                read_member_keeps keep before found) blank read
            split at finished
            · rename_i value completed
              cases finished
              rw [← complete_ok completed]
              exact kept
            · cases finished
      · exact absurd chosen refuse_kind_not_ok
  stored value result wellFormed decoded := by
    cases wellFormed with
    | array each =>
        refine of_array_keeps (fun entry listed change value stored => ?_) blank decoded
        obtain ⟨field, element⟩ := List.of_mem_zip listed
        exact (keep _ field).stored _ change (each _ element) stored value
    | object _ each =>
        refine of_object_keeps (fun member listed field change value known stored => ?_) blank decoded
        exact (keep field (List.mem_of_find?_eq_some known)).stored _ change (each member listed)
          stored value
    | _ => cases decoded

theorem defaulted_keeps {name : String} {decoder : Decoder α} {fine : α → Prop}
    {set : α → ρ → ρ} (ensures : decoder.Ensures fine)
    (keeps : ∀ given value, fine given → good value → good (set given value)) :
    (defaulted name decoder set).Keeps good :=
  Decoder.map_ensures ensures fun given isFine value => keeps given value isFine

theorem untouched_keeps {name : String} {decoder : Decoder α} {set : α → ρ → ρ}
    (keeps : ∀ given value, good value → good (set given value)) :
    (defaulted name decoder set).Keeps good :=
  defaulted_keeps (Decoder.ensures_nothing decoder) fun given value _ => keeps given value

end Record

end LocalNet.Json
