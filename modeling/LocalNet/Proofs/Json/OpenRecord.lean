import LocalNet.Proofs.Json.ClosedRecord
import LocalNet.Proofs.Json.Denoting
import LocalNet.Proofs.Json.Order

/-!
# Open records

An object decodes to an open record exactly if its keys denote texts, no field is named twice, and every
field that is named or has to be decodes its own member. Members of other names are passed over, and the
order of the members makes no difference.
-/

namespace LocalNet.Json

variable {ρ σ δ : Type}

def Named (members : List (Bytes × Doc)) (entries : List (String × Doc)) : Prop :=
  List.Forall₂ (fun member entry => Denotes member.1 (Bytes.ofText entry.1) ∧ entry.2 = member.2)
    members entries

def Once (names : List String) (entries : List (String × δ)) : Prop :=
  ∀ name ∈ names, (entries.map Prod.fst).count name ≤ 1

theorem Named.each {members : List (Bytes × Doc)} {entries : List (String × Doc)}
    (named : Named members entries) (holds : Doc → Prop)
    (each : ∀ member ∈ members, holds member.2) : ∀ entry ∈ entries, holds entry.2 := by
  induction named with
  | nil => exact List.forall_mem_nil _
  | cons first _ induction =>
      obtain ⟨here, others⟩ := List.forall_mem_cons.mp each
      exact List.forall_mem_cons.mpr ⟨first.2 ▸ here, induction others⟩

theorem walk_named_iff {step : σ → String → Doc → Option σ} {members : List (Bytes × Doc)}
    (keys : ∀ member ∈ members, Body member.1) {state result : σ} :
    walkMembers step state members = some result ↔
      ∃ entries, Named members entries ∧
        entries.foldlM (fun state entry => step state entry.1 entry.2) state = some result := by
  induction members generalizing state with
  | nil =>
      rw [walkMembers]
      constructor
      · intro same
        exact ⟨[], .nil, same⟩
      · rintro ⟨_, ⟨⟩, same⟩
        exact same
  | cons member members induction =>
      obtain ⟨here, others⟩ := List.forall_mem_cons.mp keys
      simp only [walkMembers, Option.bind_eq_some_iff, text_of_iff here, induction others]
      constructor
      · rintro ⟨name, spelled, changed, stepped, entries, named, walked⟩
        refine ⟨(name, member.2) :: entries, .cons ⟨spelled, rfl⟩ named, ?_⟩
        rw [List.foldlM_cons, stepped]
        exact walked
      · rintro ⟨_, named, walked⟩
        obtain _ | @⟨_, ⟨name, doc⟩, _, entries, ⟨spelled, same⟩, named⟩ := named
        obtain rfl : doc = member.2 := same
        rw [List.foldlM_cons] at walked
        obtain ⟨changed, stepped, rest⟩ := Option.bind_eq_some_iff.mp walked
        exact ⟨name, spelled, changed, stepped, entries, named, rest⟩

namespace Record

/-- Fields filled by their names, each from the entry of its name. -/
def gather? (make : Field ρ → δ → Option (ρ → ρ)) (entries : List (String × δ)) :
    List (Field ρ) → ρ → Option ρ
  | [], value => some value
  | field :: fields, value =>
    match entries.lookup field.name with
    | none => if field.requiredByName then none else gather? make entries fields value
    | some given =>
      (make field given).bind fun change => gather? make entries fields (change value)

variable {record : Record ρ} {depth : Nat}

/-- The entries that fields take, whichever those are. -/
def taken (record : Record ρ) (entries : List (String × δ)) : List (String × δ) :=
  entries.filter fun entry => (record.field? entry.1).isSome

/-- How the field of its name changes a record by an entry. -/
def take? (record : Record ρ) (depth : Nat) (entry : String × Doc) : Option (ρ → ρ) :=
  (record.field? entry.1).bind fun field => meaning (field.store.read depth) entry.2

def takeAll? (record : Record ρ) (depth : Nat) : List (String × Doc) → ρ → Option ρ
  | [], value => some value
  | entry :: entries, value =>
    (record.take? depth entry).bind fun change => record.takeAll? depth entries (change value)

theorem walk_open_iff (opened : record.closed = false) {entries : List (String × Doc)}
    (clean : ∀ entry ∈ entries, entry.2.noControls = true) {draft result : Draft ρ} :
    entries.foldlM (fun draft entry => record.memberAt? depth draft entry.1 entry.2) draft =
        some result ↔
      ((record.taken entries).map Prod.fst).Nodup ∧
        (∀ entry ∈ record.taken entries, entry.1 ∉ draft.present) ∧
        record.takeAll? depth (record.taken entries) draft.value = some result.value ∧
        result.present = ((record.taken entries).map Prod.fst).reverse ++ draft.present := by
  induction entries generalizing draft with
  | nil =>
      obtain ⟨value, present⟩ := draft
      obtain ⟨other, alsoPresent⟩ := result
      simp [taken, takeAll?, eq_comm]
  | cons entry entries induction =>
      obtain ⟨name, doc⟩ := entry
      obtain ⟨here, others⟩ := List.forall_mem_cons.mp clean
      rw [List.foldlM_cons]
      cases known : record.field? name with
      | none =>
          have passed : record.taken ((name, doc) :: entries) = record.taken entries := by
            simp [taken, known]
          rw [passed, ← induction others, member_at_unknown known opened, if_pos here]
          rfl
      | some field =>
          have stored : record.taken ((name, doc) :: entries) =
              (name, doc) :: record.taken entries := by
            simp [taken, known]
          have take : record.take? depth (name, doc) = meaning (field.store.read depth) doc := by
            simp [take?, known]
          rw [stored, member_at_known known, takeAll?, take, List.forall_mem_cons, List.map_cons,
            List.nodup_cons]
          by_cases present : name ∈ draft.present
          · -- A field that was stored before is not stored again.
            simp [present]
          · cases made : meaning (field.store.read depth) doc with
            | none => simp [present]
            | some change =>
                have unlike : (∀ entry ∈ record.taken entries, entry.1 ∉ name :: draft.present) ↔
                    name ∉ (record.taken entries).map Prod.fst ∧
                      ∀ entry ∈ record.taken entries, entry.1 ∉ draft.present := by
                  simp only [List.mem_cons, not_or, forall_and, List.mem_map, not_exists, not_and]
                rw [if_neg present, Option.map_some, Option.bind_eq_bind, Option.bind_some,
                  Option.bind_some, induction others]
                simp only [Draft.put, unlike, List.reverse_cons, List.append_assoc,
                  List.singleton_append, present, not_false_eq_true, true_and]
                tauto

/-! ## The fields in their own order -/

theorem take_makes {entry : String × Doc} {change : ρ → ρ}
    (taken : record.take? depth entry = some change) :
    ∃ field ∈ record.fields, field.name = entry.1 ∧ field.Makes change := by
  obtain ⟨field, known, made⟩ := Option.bind_eq_some_iff.mp taken
  obtain ⟨listed, named⟩ := field_of_name known
  exact ⟨field, listed, named, depth, entry.2, made⟩

theorem take_all_perm (apart : record.fields.Pairwise Field.Apart)
    {entries others : List (String × Doc)} (permuted : entries.Perm others)
    (distinct : (entries.map Prod.fst).Nodup) (value : ρ) :
    record.takeAll? depth entries value = record.takeAll? depth others value := by
  induction permuted generalizing value with
  | nil => rfl
  | cons entry _ induction =>
      rw [takeAll?, takeAll?]
      exact Option.bind_congr fun change _ => induction (List.nodup_cons.mp distinct).2 _
  | swap first second entries =>
      have differ : second.1 ≠ first.1 := by
        intro same
        simp [same] at distinct
      simp only [takeAll?]
      cases made : record.take? depth first with
      | none => simp
      | some change =>
          cases alsoMade : record.take? depth second with
          | none => simp
          | some other =>
              obtain ⟨field, listed, named, makes⟩ := take_makes made
              obtain ⟨another, alsoListed, alsoNamed, alsoMakes⟩ := take_makes alsoMade
              have fields : field ≠ another := by
                rintro rfl
                exact differ (alsoNamed.symm.trans named)
              have swapped := apart.forall listed alsoListed fields change other makes alsoMakes
              simp [swapped]
  | trans first _ one two =>
      exact (one distinct value).trans (two ((first.map Prod.fst).nodup_iff.mp distinct) value)

theorem gather_congr (make : Field ρ → δ → Option (ρ → ρ)) {entries others : List (String × δ)}
    {fields : List (Field ρ)}
    (same : ∀ field ∈ fields, entries.lookup field.name = others.lookup field.name) (value : ρ) :
    gather? make entries fields value = gather? make others fields value := by
  induction fields generalizing value with
  | nil => rfl
  | cons field fields induction =>
      obtain ⟨here, rest⟩ := List.forall_mem_cons.mp same
      rw [gather?, gather?, here]
      simp only [induction rest]

theorem gather_required {make : Field ρ → δ → Option (ρ → ρ)} {entries : List (String × δ)}
    {fields : List (Field ρ)} {value result : ρ}
    (gathered : gather? make entries fields value = some result) :
    ∀ field ∈ fields, field.requiredByName = true → field.name ∈ entries.map Prod.fst := by
  induction fields generalizing value with
  | nil => exact List.forall_mem_nil _
  | cons field fields induction =>
      rw [gather?] at gathered
      rw [List.forall_mem_cons]
      split at gathered
      · split at gathered
        · cases gathered
        · rename_i optional
          exact ⟨fun needed => absurd needed optional, induction gathered⟩
      · rename_i given found
        obtain ⟨change, -, others⟩ := Option.bind_eq_some_iff.mp gathered
        obtain ⟨before, after, split, -⟩ := List.lookup_eq_some_iff.mp found
        exact ⟨fun _ => by simp [split], induction others⟩

theorem take_all_gathered (apart : record.fields.Pairwise Field.Apart)
    {fields : List (Field ρ)} (known : ∀ field ∈ fields, record.field? field.name = some field)
    (separate : (fields.map Field.name).Nodup) {entries : List (String × Doc)}
    (distinct : (entries.map Prod.fst).Nodup)
    (covered : ∀ name ∈ entries.map Prod.fst, name ∈ fields.map Field.name)
    (required : ∀ field ∈ fields, field.requiredByName = true →
      field.name ∈ entries.map Prod.fst) (value : ρ) :
    record.takeAll? depth entries value =
      gather? (fun field => meaning (field.store.read depth)) entries fields value := by
  induction fields generalizing entries value with
  | nil =>
      have none : entries = [] := by
        cases entries with
        | nil => rfl
        | cons entry entries => exact absurd (covered entry.1 (by simp)) List.not_mem_nil
      rw [none, takeAll?, gather?]
  | cons field fields induction =>
      obtain ⟨here, others⟩ := List.forall_mem_cons.mp known
      obtain ⟨unlisted, separate⟩ := List.nodup_cons.mp separate
      obtain ⟨needed, alsoNeeded⟩ := List.forall_mem_cons.mp required
      rw [gather?]
      cases found : entries.lookup field.name with
      | none =>
          have absent : field.name ∉ entries.map Prod.fst := by
            intro inside
            obtain ⟨entry, listed, same⟩ := List.mem_map.mp inside
            simpa [same] using List.lookup_eq_none_iff.mp found entry listed
          have optional : field.requiredByName = false := by
            simpa using mt needed absent
          simp only [optional, Bool.false_eq_true, if_false]
          refine induction others separate distinct (fun name inside => ?_) alsoNeeded value
          exact (List.mem_cons.mp (covered name inside)).resolve_left
            fun same => absent (same ▸ inside)
      | some given =>
          obtain ⟨before, after, rfl, -⟩ := List.lookup_eq_some_iff.mp found
          have permuted : (before ++ (field.name, given) :: after).Perm
              ((field.name, given) :: (before ++ after)) := List.perm_middle
          have names := permuted.map Prod.fst
          obtain ⟨alone, rest⟩ := List.nodup_cons.mp (names.nodup_iff.mp distinct)
          have take : record.take? depth (field.name, given) =
              meaning (field.store.read depth) given := by
            simp [take?, here]
          rw [take_all_perm apart permuted distinct, takeAll?, take]
          refine Option.bind_congr fun change _ => ?_
          have same : ∀ other ∈ fields,
              (before ++ (field.name, given) :: after).lookup other.name =
                (before ++ after).lookup other.name := by
            intro other listed
            have differ : other.name ≠ field.name := fun equal =>
              unlisted (equal ▸ List.mem_map_of_mem listed)
            rw [List.lookup_append, List.lookup_append, List.lookup_cons,
              beq_false_of_ne differ]
          rw [gather_congr _ same]
          refine induction others separate rest (fun name inside => ?_)
            (fun other listed needs => ?_) _
          · have among := covered name (names.mem_iff.mpr (.tail _ inside))
            exact (List.mem_cons.mp among).resolve_left fun equal => alone (equal ▸ inside)
          · have among := names.mem_iff.mp (alsoNeeded other listed needs)
            exact (List.mem_cons.mp among).resolve_left
              fun equal : other.name = field.name => unlisted (equal ▸ List.mem_map_of_mem listed)

/-! ## Objects -/

theorem known_iff {name : String} : (record.field? name).isSome = true ↔ name ∈ record.names := by
  rw [Option.isSome_iff_exists]
  constructor
  · rintro ⟨field, known⟩
    obtain ⟨listed, rfl⟩ := field_of_name known
    exact List.mem_map_of_mem listed
  · exact field_of_listed

theorem taken_names (entries : List (String × δ)) :
    (record.taken entries).map Prod.fst =
      (entries.map Prod.fst).filter fun name => (record.field? name).isSome := by
  rw [taken, List.filter_map]
  rfl

theorem mem_taken_names {entries : List (String × δ)} {name : String} :
    name ∈ (record.taken entries).map Prod.fst ↔
      name ∈ entries.map Prod.fst ∧ name ∈ record.names := by
  rw [taken_names, List.mem_filter, known_iff]

theorem taken_nodup_iff {entries : List (String × δ)} :
    ((record.taken entries).map Prod.fst).Nodup ↔ Once record.names entries := by
  have counted {name : String} (listed : name ∈ record.names) :
      ((record.taken entries).map Prod.fst).count name = (entries.map Prod.fst).count name := by
    rw [taken_names]
    exact List.count_filter (known_iff.mpr listed)
  rw [List.nodup_iff_count_le_one]
  constructor
  · intro once name listed
    exact counted listed ▸ once name
  · intro once name
    by_cases listed : name ∈ record.names
    · exact (counted listed).symm ▸ once name listed
    · rw [List.count_eq_zero.mpr fun inside => listed (mem_taken_names.mp inside).2]
      exact Nat.zero_le 1

theorem taken_lookup {name : String} (listed : name ∈ record.names) (entries : List (String × δ)) :
    (record.taken entries).lookup name = entries.lookup name := by
  rw [taken, lookup_filter_key entries fun name => (record.field? name).isSome,
    if_pos (known_iff.mpr listed)]

theorem open_object_iff (opened : record.closed = false)
    (apart : record.fields.Pairwise Field.Apart) (distinct : record.names.Nodup)
    {members : List (Bytes × Doc)} (formed : (Doc.object members).WellFormed) {result : ρ} :
    record.objectAt? depth members = some result ↔
      ∃ entries, Named members entries ∧ Once record.names entries ∧
        gather? (fun field => meaning (field.store.read depth)) entries record.fields record.blank =
          some result := by
  have keys : ∀ member ∈ members, Body member.1 := fun member => formed.toLexical.key
  have clean {entries : List (String × Doc)} (named : Named members entries) :
      ∀ entry ∈ entries, entry.2.noControls = true :=
    named.each (·.noControls = true)
      fun member listed => (Doc.well_formed_object_iff.mp formed member listed).2.noControls
  have known : ∀ field ∈ record.fields, record.field? field.name = some field :=
    fun field => field_of_member distinct
  have same (entries : List (String × Doc)) : ∀ field ∈ record.fields,
      (record.taken entries).lookup field.name = entries.lookup field.name :=
    fun field listed => taken_lookup (List.mem_map_of_mem listed) entries
  simp only [objectAt?, Option.bind_eq_some_iff, walk_named_iff keys, to_option_iff,
    draft_complete_iff]
  constructor
  · rintro ⟨draft, ⟨entries, named, walked⟩, required, rfl⟩
    obtain ⟨once, -, all, present⟩ := (walk_open_iff opened (clean named)).mp walked
    rw [start, List.append_nil] at present
    refine ⟨entries, named, taken_nodup_iff.mp once, ?_⟩
    rw [← gather_congr _ (same entries), ← take_all_gathered apart known distinct once]
    · exact all
    · exact fun name inside => (mem_taken_names.mp inside).2
    · intro field listed needed
      simpa [present] using required field listed needed
  · rintro ⟨entries, named, once, gathered⟩
    have nodup := taken_nodup_iff.mpr once
    have required : ∀ field ∈ record.fields, field.requiredByName = true →
        field.name ∈ (record.taken entries).map Prod.fst := fun field listed needed =>
      mem_taken_names.mpr
        ⟨gather_required gathered field listed needed, List.mem_map_of_mem listed⟩
    have all : record.takeAll? depth (record.taken entries) record.blank = some result := by
      rw [take_all_gathered apart known distinct nodup
        (fun name inside => (mem_taken_names.mp inside).2) required, gather_congr _ (same entries)]
      exact gathered
    refine ⟨⟨result, ((record.taken entries).map Prod.fst).reverse⟩, ⟨entries, named, ?_⟩, ?_, rfl⟩
    · refine (walk_open_iff opened (clean named)).mpr ⟨nodup, ?_, all, ?_⟩
      · simp [start]
      · exact (List.append_nil _).symm
    · simpa using required

end Record

end LocalNet.Json
