import Mathlib.Data.List.Basic
import Mathlib.Data.List.Forall2

/-!
# Tables

A table is a list of entries under keys, and an update takes the old entries of its key out. So it is felt
under this key alone, and among distinct keys every entry is found. Two lists are related entry by entry
if each entry of the one has its counterpart at the same place of the other.
-/

namespace LocalNet

variable {Key Value : Type} [DecidableEq Key] [BEq Key] [LawfulBEq Key]

theorem lookup_iff_mem {entries : List (Key × Value)} (distinct : (entries.map Prod.fst).Nodup)
    {key : Key} {value : Value} :
    entries.lookup key = some value ↔ (key, value) ∈ entries := by
  induction entries with
  | nil => simp
  | cons entry rest ih =>
      obtain ⟨first, held⟩ := entry
      obtain ⟨absent, distinct⟩ := List.nodup_cons.mp distinct
      by_cases same : key = first
      · subst same
        have missing : (key, value) ∉ rest := fun later =>
          absent (List.mem_map.mpr ⟨_, later, rfl⟩)
        simp [missing, eq_comm]
      · have skipped : (key == first) = false := by simpa using same
        simp only [List.lookup_cons, skipped, ih distinct, List.mem_cons, Prod.mk.injEq, same,
          false_and, false_or]

theorem lookup_filter_key (entries : List (Key × Value)) (keeps : Key → Bool) (key : Key) :
    (entries.filter fun entry => keeps entry.1).lookup key =
      if keeps key then entries.lookup key else none := by
  induction entries with
  | nil => simp
  | cons entry rest ih =>
      obtain ⟨first, value⟩ := entry
      by_cases same : key = first
      · subst same
        cases kept : keeps key <;> simp [kept, ih]
      · have skipped : (key == first) = false := by simpa using same
        cases kept : keeps first <;> simp [kept, ih, List.lookup_cons, skipped]

theorem lookup_filter_self (entries : List (Key × Value)) (key : Key) :
    (entries.filter (·.1 ≠ key)).lookup key = none := by
  rw [lookup_filter_key entries (· ≠ key)]
  simp

theorem lookup_filter_other (entries : List (Key × Value)) {key other : Key}
    (different : other ≠ key) :
    (entries.filter (·.1 ≠ key)).lookup other = entries.lookup other := by
  rw [lookup_filter_key entries (· ≠ key)]
  simp [different]

/-! ## Entry by entry -/

section Related

variable {α β : Type} {related : α → β → Prop}

theorem related_each {items : List α} {others : List β}
    (each : List.Forall₂ related items others) :
    ∀ item ∈ items, ∃ other ∈ others, related item other := by
  induction each with
  | nil => exact List.forall_mem_nil _
  | cons here _ induction =>
      refine List.forall_mem_cons.mpr ⟨⟨_, List.mem_cons_self, here⟩, fun item listed => ?_⟩
      obtain ⟨other, inside, same⟩ := induction item listed
      exact ⟨other, List.mem_cons_of_mem _ inside, same⟩

theorem related_middle {before after : List α} {item : α} {others : List β}
    (each : List.Forall₂ related (before ++ item :: after) others) :
    ∃ front other back, others = front ++ other :: back ∧ related item other ∧
      List.Forall₂ related after back := by
  induction before generalizing others with
  | nil =>
      obtain _ | ⟨here, later⟩ := each
      exact ⟨[], _, _, rfl, here, later⟩
  | cons first before induction =>
      obtain _ | ⟨-, later⟩ := each
      obtain ⟨front, other, back, rfl, here, behind⟩ := induction later
      exact ⟨_ :: front, other, back, rfl, here, behind⟩

theorem related_list_iff {items : List α} :
    (∃ others, List.Forall₂ related items others) ↔ ∀ item ∈ items, ∃ other, related item other := by
  induction items with
  | nil => simp
  | cons item items induction =>
      rw [List.forall_mem_cons, ← induction]
      constructor
      · rintro ⟨_, _ | ⟨first, others⟩⟩
        exact ⟨⟨_, first⟩, _, others⟩
      · rintro ⟨⟨other, first⟩, others, rest⟩
        exact ⟨other :: others, .cons first rest⟩

end Related

end LocalNet
