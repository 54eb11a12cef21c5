import LocalNet.Proofs.Json.Restoring
import LocalNet.Proofs.Tables

/-!
# Closed records

An object decodes to a closed record exactly if it names fields only, each of them once, and those that
have to be there, and every member is stored by its field. What a field comes to then depends on its own
member alone, or is the default.
-/

namespace LocalNet.Json

variable {ρ α : Type}

/-- What is found under a name that may be left out. -/
def Given (default : α) (spelled : Value → α → Prop) : (given : Option Value) → (found : α) → Prop
  | none, found => found = default
  | some value, found => spelled value found

theorem Given.unique {default : α} {spelled : Value → α → Prop} {given : Option Value}
    {found other : α} (one : Given default spelled given found)
    (two : Given default spelled given other)
    (functional : ∀ value, spelled value found → spelled value other → found = other) :
    found = other := by
  cases given with
  | none => exact Eq.trans one (Eq.symm two)
  | some value => exact functional value one two

namespace Record

variable {record : Record ρ} {name : String} {value : Value} {change : ρ → ρ}

theorem draft_complete_iff {draft : Draft ρ} {result : ρ} :
    record.complete draft = .ok result ↔
      (∀ field ∈ record.fields, field.requiredByName = true → field.name ∈ draft.present) ∧
        draft.value = result := by
  unfold complete missing?
  cases lacking : record.fields.find? fun field =>
      field.requiredByName && !draft.present.contains field.name with
  | none =>
      have present := List.find?_eq_none.mp lacking
      simp only [Option.map_none, Except.ok.injEq, iff_and_self]
      intro _ field listed required
      simpa [required] using present field listed
  | some field =>
      have listed := List.mem_of_find?_eq_some lacking
      have absent := List.find?_some lacking
      simp only [Bool.and_eq_true, Bool.not_eq_true', List.contains_eq_mem,
        decide_eq_false_iff_not] at absent
      simp only [Option.map_some, reduceCtorEq, false_iff, not_and]
      intro present
      exact absurd (present field listed absent.1) absent.2

/-- A closed record stores every member of an object, each under a name of its own. -/
theorem put_members_closed (closed : record.closed = true) {members : List (String × Value)}
    {draft result : Draft ρ} (put : record.putMembers members draft = .ok result) :
    (members.map Prod.fst).Nodup ∧ (∀ member ∈ members, member.1 ∉ draft.present) ∧
      (∀ name, name ∈ result.present ↔ name ∈ members.map Prod.fst ∨ name ∈ draft.present) ∧
      ∃ changes, List.Forall₂ record.Stores members changes ∧
        result.value = changes.foldl (fun value change => change value) draft.value := by
  induction members generalizing draft with
  | nil =>
      cases put
      exact ⟨List.nodup_nil, by simp, by simp, [], .nil, rfl⟩
  | cons member members induction =>
      obtain ⟨name, value⟩ := member
      rw [putMembers] at put
      cases usage : record.useOf draft name with
      | refuse reason =>
          rw [usage] at put
          cases put
      | passOver =>
          unfold useOf at usage
          split at usage
          · split at usage <;> cases usage
          · rw [closed] at usage
            cases usage
      | store field =>
          have known := stored_field_known usage
          have fresh : name ∉ draft.present := by
            intro present
            simp [useOf, known, present] at usage
          rw [usage] at put
          dsimp only at put
          split at put
          · cases put
          · rename_i change stored
            obtain ⟨distinct, unlike, present, changes, others, folded⟩ := induction put
            simp only [Draft.put, List.mem_cons, not_or] at unlike present folded
            refine ⟨?_, ?_, ?_, change :: changes, .cons ⟨field, known, stored⟩ others, folded⟩
            · refine List.nodup_cons.mpr ⟨fun again => ?_, distinct⟩
              obtain ⟨later, listed, same⟩ := List.mem_map.mp again
              exact (unlike later listed).1 same
            · rw [List.forall_mem_cons]
              exact ⟨fresh, fun later listed => (unlike later listed).2⟩
            · intro other
              rw [present, List.map_cons, List.mem_cons]
              tauto

theorem of_closed_object_iff (closed : record.closed = true) {members : List (String × Value)}
    {result : ρ} :
    record.ofValue (.object members) = .ok result ↔
      (members.map Prod.fst).Nodup ∧
        (∀ field ∈ record.fields, field.requiredByName = true →
          field.name ∈ members.map Prod.fst) ∧
        ∃ changes, List.Forall₂ record.Stores members changes ∧
          result = changes.foldl (fun value change => change value) record.blank := by
  constructor
  · intro decoded
    rw [ofValue] at decoded
    split at decoded
    · cases decoded
    · rename_i draft put
      obtain ⟨distinct, -, present, changes, stored, folded⟩ := put_members_closed closed put
      obtain ⟨required, rfl⟩ := draft_complete_iff.mp decoded
      refine ⟨distinct, fun field listed needed => ?_, changes, stored, folded⟩
      simpa [start] using (present field.name).mp (required field listed needed)
  · rintro ⟨distinct, required, changes, stored, rfl⟩
    have unlike : ∀ member ∈ members, member.1 ∉ record.start.present := by simp [start]
    have filled := put_members_stored stored distinct unlike
    rw [ofValue]
    cases put : record.putMembers members record.start with
    | error reason => simp [put, Except.toOption] at filled
    | ok draft =>
        obtain ⟨-, -, present, -⟩ := put_members_closed closed put
        refine draft_complete_iff.mpr ⟨fun field listed needed => ?_, ?_⟩
        · exact (present field.name).mpr (.inl (required field listed needed))
        · rw [put] at filled
          exact Option.some.inj filled

/-- One part of a record: the member of its name settles it, and no other member touches it. -/
structure Column (record : Record ρ) (name : String) (spelled : Value → α → Prop) (get : ρ → α) :
    Prop where
  own : ∀ {value change}, record.Stores (name, value) change →
    ∀ start, spelled value (get (change start))
  others : ∀ {member change}, member.1 ≠ name → record.Stores member change →
    ∀ start, get (change start) = get start

theorem Column.found {spelled : Value → α → Prop} {get : ρ → α}
    (column : record.Column name spelled get) {members : List (String × Value)}
    {changes : List (ρ → ρ)} (stored : List.Forall₂ record.Stores members changes)
    (distinct : (members.map Prod.fst).Nodup) (start : ρ) :
    Given (get start) spelled (members.lookup name)
      (get (changes.foldl (fun value change => change value) start)) := by
  induction stored generalizing start with
  | nil => exact rfl
  | @cons member change members changes first others induction =>
      obtain ⟨known, value⟩ := member
      obtain ⟨unlisted, distinct⟩ := List.nodup_cons.mp distinct
      have rest := induction distinct (change start)
      rw [List.foldl_cons, List.lookup_cons]
      by_cases same : name = known
      · subst same
        have absent : members.lookup name = none := by
          refine List.lookup_eq_none_iff.mpr fun later listed => ?_
          have apart : later.1 ≠ name := fun again => unlisted (List.mem_map.mpr ⟨later, listed, again⟩)
          simpa using Ne.symm apart
        rw [absent] at rest
        rw [beq_self_eq_true]
        have kept : get (changes.foldl (fun value change => change value) (change start)) =
          get (change start) := rest
        exact kept ▸ column.own first start
      · have passed : (name == known) = false := by simpa using same
        rw [passed]
        rw [column.others (Ne.symm same) first start] at rest
        exact rest

theorem stored_known {members : List (String × Value)} {changes : List (ρ → ρ)}
    (stored : List.Forall₂ record.Stores members changes) :
    ∀ member ∈ members, member.1 ∈ record.names := by
  induction stored with
  | nil => exact List.forall_mem_nil _
  | cons first _ induction =>
      obtain ⟨field, known, -⟩ := first
      obtain ⟨listed, named⟩ := field_of_name known
      exact List.forall_mem_cons.mpr ⟨List.mem_map.mpr ⟨field, listed, named⟩, induction⟩

theorem stores_iff {byName byPlace : Bool} {decoder : Decoder α} {set : α → ρ → ρ}
    (known : record.field? name = some ⟨name, byName, byPlace, decoder.map set⟩) :
    record.Stores (name, value) change ↔
      ∃ given, decoder.ofValue value = .ok given ∧ change = set given := by
  constructor
  · rintro ⟨field, found, stored⟩
    obtain rfl := Option.some.inj (known.symm.trans found)
    obtain ⟨given, decoded, rfl⟩ := except_map_ok stored
    exact ⟨given, decoded, rfl⟩
  · rintro ⟨given, decoded, rfl⟩
    exact ⟨_, known, Decoder.map_of_value decoded set⟩

/-! ## Arrays -/

theorem field_of_member (distinct : record.names.Nodup) {field : Field ρ}
    (listed : field ∈ record.fields) : record.field? field.name = some field := by
  have named : field.name ∈ record.names := List.mem_map.mpr ⟨field, listed, rfl⟩
  obtain ⟨other, known⟩ := field_of_listed named
  obtain ⟨alsoListed, same⟩ := field_of_name known
  rw [known, List.inj_on_of_nodup_map distinct alsoListed listed same]

theorem stored_iff {field : Field ρ} (known : record.field? field.name = some field) :
    stored? field value = some change ↔ record.Stores (field.name, value) change := by
  rw [stored?, to_option_iff]
  constructor
  · exact fun stored => ⟨field, known, stored⟩
  · rintro ⟨other, found, stored⟩
    obtain rfl := Option.some.inj (known.symm.trans found)
    exact stored

theorem fill_iff {fields : List (Field ρ)}
    (known : ∀ field ∈ fields, record.field? field.name = some field) {elements : List Value}
    {start result : ρ} :
    fill? stored? fields elements start = some result ↔
      elements.length ≤ fields.length ∧
        (∀ field ∈ fields.drop elements.length, field.requiredByPlace = false) ∧
        ∃ changes, List.Forall₂ record.Stores ((fields.map Field.name).zip elements) changes ∧
          result = changes.foldl (fun value change => change value) start := by
  induction fields generalizing elements start with
  | nil =>
      cases elements with
      | nil =>
          rw [fill?]
          simp [@eq_comm ρ result]
      | cons element elements =>
          rw [fill?]
          simp
  | cons field fields induction =>
      rw [List.forall_mem_cons] at known
      cases elements with
      | nil =>
          rw [fill?]
          cases required : field.requiredByPlace with
          | true => simp [required]
          | false => simp [required, induction known.2]
      | cons element elements =>
          rw [fill?, Option.bind_eq_some_iff]
          simp only [stored_iff known.1, induction known.2, List.length_cons, List.drop_succ_cons,
            Nat.add_le_add_iff_right, List.map_cons, List.zip_cons_cons, List.forall₂_cons_left_iff]
          constructor
          · rintro ⟨change, first, short, optional, changes, others, rfl⟩
            exact ⟨short, optional, change :: changes, ⟨change, changes, first, others, rfl⟩, rfl⟩
          · rintro ⟨short, optional, _, ⟨change, changes, first, others, rfl⟩, rfl⟩
            exact ⟨change, first, short, optional, changes, others, rfl⟩

theorem of_array_zip_iff (distinct : record.names.Nodup) {elements : List Value} {result : ρ} :
    record.ofValue (.array elements) = .ok result ↔
      elements.length ≤ record.fields.length ∧
        (∀ field ∈ record.fields.drop elements.length, field.requiredByPlace = false) ∧
        ∃ changes, List.Forall₂ record.Stores (record.names.zip elements) changes ∧
          result = changes.foldl (fun value change => change value) record.blank := by
  exact of_array_iff.trans (fill_iff fun field listed => field_of_member distinct listed)

theorem zip_distinct {names : List String} (distinct : names.Nodup) (elements : List Value) :
    ((names.zip elements).map Prod.fst).Nodup := by
  rw [List.zip_eq_zip_take_min, List.map_fst_zip (by simp)]
  exact distinct.sublist (List.take_sublist _ _)

theorem lookup_zip {names : List String} (distinct : names.Nodup) {name : String} {place : Nat}
    (stands : names[place]? = some name) (elements : List Value) :
    (names.zip elements).lookup name = elements[place]? := by
  induction names generalizing place elements with
  | nil => cases stands
  | cons first names induction =>
      obtain ⟨unlisted, distinct⟩ := List.nodup_cons.mp distinct
      cases elements with
      | nil => rfl
      | cons element elements =>
          rw [List.zip_cons_cons, List.lookup_cons]
          cases place with
          | zero =>
              obtain rfl : first = name := by simpa using stands
              rw [beq_self_eq_true]
              rfl
          | succ place =>
              have later : name ∈ names := List.mem_of_getElem? (by simpa using stands)
              have passed : (name == first) = false := by
                simpa using fun same : name = first => unlisted (same ▸ later)
              rw [passed]
              exact induction distinct (by simpa using stands) elements

end Record

namespace Decoder

theorem text_of_value_iff {expected : String} {value : Value} {found : String} :
    (text expected).ofValue value = .ok found ↔ value = .text found := by
  cases value <;> simp [text]

theorem texts_of_value_iff {expected : String} {value : Value} {found : List String} :
    (list (text expected)).ofValue value = .ok found ↔ value = .array (found.map .text) := by
  constructor
  · intro decoded
    cases value with
    | array elements =>
        have each := (map_each_ok decoded).imp fun _ _ => text_of_value_iff.mp
        have same : List.Forall₂ (· = ·) elements (found.map Value.text) :=
          List.forall₂_map_right_iff.mpr each
        rw [List.forall₂_eq_eq_eq] at same
        rw [same]
    | _ => cases decoded
  · rintro rfl
    exact map_each_map fun item _ => rfl

end Decoder

end LocalNet.Json
