import Mathlib.Data.List.Infix
import LocalNet.Proofs.Files.Walk

/-!
# Texts that are made of components

The directories that lead to a path are made under texts that are put together from the path's own
components. Such a text is read as those components again, it is no longer than the text that they come
from, and it names a place on the way of the path.
-/

namespace LocalNet.Files.Path

/-- The text of a path with no more in it than its components. -/
def spell (absolute : Bool) (components : List String) : String :=
  (if absolute then "/" else "") ++ String.intercalate "/" components

def Step (component : String) : Prop :=
  isStep component.toList = true ∧ '/' ∉ component.toList

/-- A place that a path comes through, from where it starts to where it leads. -/
def OnWay (base : Place) (text : String) (place : Place) : Prop :=
  ∃ shown, shown <+: (ofText text).components ∧
    place = walk (if (ofText text).absolute then [] else base) shown

variable {base place : Place} {text name directory : String} {absolute : Bool}
variable {components : List String}

/-! ## Components -/

theorem mem_pieces {chars piece : List Char} (member : piece ∈ pieces chars) :
    '/' ∉ piece ∧ piece ⊆ chars := by
  induction chars generalizing piece with
  | nil => simp_all [pieces]
  | cons char rest induction =>
      unfold pieces at member
      split at member
      · rcases List.mem_cons.mp member with rfl | later
        · exact ⟨List.not_mem_nil, List.nil_subset _⟩
        · exact ⟨(induction later).1, List.subset_cons_of_subset _ (induction later).2⟩
      · rename_i unsplit
        split at member
        · rename_i missing
          exact absurd missing (pieces_ne_nil rest)
        · rename_i first others cut
          rcases List.mem_cons.mp member with rfl | later
          · obtain ⟨clean, within⟩ := induction (cut ▸ List.mem_cons_self)
            exact ⟨by simp [clean, Ne.symm unsplit], List.cons_subset_cons char within⟩
          · obtain ⟨clean, within⟩ := induction (cut ▸ List.mem_cons_of_mem first later)
            exact ⟨clean, List.subset_cons_of_subset _ within⟩

theorem mem_components {component : String} (member : component ∈ (ofText text).components) :
    Step component ∧ component.toList ⊆ text.toList := by
  simp only [ofText, List.mem_map, List.mem_filter] at member
  obtain ⟨piece, ⟨cut, counts⟩, rfl⟩ := member
  obtain ⟨clean, within⟩ := mem_pieces cut
  rw [Step, String.toList_ofList]
  exact ⟨⟨counts, clean⟩, within⟩

theorem Step.ne_nil {component : String} (step : Step component) : component.toList ≠ [] := by
  intro blank
  simp [Step, blank, isStep] at step

theorem pieces_intercalate {parts : List (List Char)} (given : parts ≠ [])
    (clean : ∀ part ∈ parts, '/' ∉ part) : pieces (['/'].intercalate parts) = parts := by
  induction parts with
  | nil => exact absurd rfl given
  | cons part others induction =>
      have alone := pieces_unsplit (clean part List.mem_cons_self)
      cases others with
      | nil => simpa [List.intercalate] using alone
      | cons next rest =>
          have further := induction (List.cons_ne_nil next rest)
            fun part member => clean part (List.mem_cons_of_mem _ member)
          rw [List.intercalate_cons_cons, List.append_assoc, List.singleton_append, pieces_append,
            alone, further, List.singleton_append]

theorem pieces_spell (absolute : Bool) (given : components ≠ [])
    (steps : ∀ component ∈ components, Step component) :
    pieces (spell absolute components).toList =
      (if absolute then [[]] else []) ++ components.map String.toList := by
  have cut : pieces (['/'].intercalate (components.map String.toList)) = components.map String.toList :=
    pieces_intercalate (by simpa using given)
      (List.forall_mem_map.mpr fun component member => (steps component member).2)
  cases absolute <;> simp [spell, String.toList_intercalate, pieces, cut]

theorem head_of_spell (absolute : Bool) (steps : ∀ component ∈ components, Step component) :
    (spell absolute components).toList.head? = some '/' ↔ absolute = true := by
  cases absolute with
  | true => simp [spell]
  | false =>
      simp only [spell, Bool.false_eq_true, if_false, String.empty_append, iff_false]
      cases components with
      | nil => simp
      | cons first others =>
          have step := steps first List.mem_cons_self
          have headed : (String.intercalate "/" (first :: others)).toList.head? = first.toList.head? := by
            cases others with
            | nil => simp
            | cons next rest =>
                rw [String.intercalate_cons_cons, String.toList_append, String.toList_append,
                  List.append_assoc, List.head?_append_of_ne_nil _ step.ne_nil]
          rw [headed]
          exact fun slash => step.2 (List.mem_of_mem_head? slash)

theorem of_text_spell (absolute : Bool) (steps : ∀ component ∈ components, Step component) :
    (ofText (spell absolute components)).absolute = absolute ∧
      (ofText (spell absolute components)).components = components ∧
      (components ≠ [] → (ofText (spell absolute components)).directoryOnly = false) := by
  have headed : (ofText (spell absolute components)).absolute = absolute := by
    rw [Bool.eq_iff_iff, ← head_of_spell absolute steps]
    simp [ofText]
  by_cases given : components = []
  · subst given
    exact ⟨headed, by cases absolute <;> decide, fun given => absurd rfl given⟩
  · have counts : ∀ piece ∈ components.map String.toList, isStep piece = true :=
      List.forall_mem_map.mpr fun component member => (steps component member).1
    have blank : (if absolute then [[]] else []).filter isStep = [] := by cases absolute <;> rfl
    refine ⟨headed, ?_, fun _ => ?_⟩
    · simp only [ofText, pieces_spell absolute given steps, List.filter_append, blank,
        List.filter_eq_self.mpr counts, List.nil_append, List.map_map]
      simp
    · obtain rfl | ⟨before, last, rfl⟩ := List.eq_nil_or_concat' components
      · exact absurd rfl given
      · have counts := (steps last (by simp)).1
        simp only [ofText, pieces_spell absolute given steps, List.map_append, List.map_cons, List.map_nil,
          ← List.append_assoc, List.getLast?_concat, Option.getD_some, counts, Bool.not_true]

theorem place_of_spell (base : Place) (absolute : Bool)
    (steps : ∀ component ∈ components, Step component) :
    placeOf base (spell absolute components) = walk (if absolute then [] else base) components := by
  obtain ⟨same, read, -⟩ := of_text_spell absolute steps
  rw [placeOf, same, read]

/-! ## Length -/

/-- What parts take up, each with a slash after it. -/
def bulk : List String → Nat
  | [] => 0
  | part :: others => part.utf8ByteSize + 1 + bulk others

theorem bulk_pieces (chars : List Char) :
    bulk ((pieces chars).map String.ofList) = (String.ofList chars).utf8ByteSize + 1 := by
  induction chars with
  | nil => rfl
  | cons char rest induction =>
      rw [String.ofList_cons, String.utf8ByteSize_append, String.utf8ByteSize_singleton]
      unfold pieces
      split
      · rename_i slash
        have wide : char.utf8Size = 1 := by rw [slash]; decide
        have blank : (String.ofList []).utf8ByteSize = 0 := rfl
        rw [List.map_cons, bulk, induction, blank, wide]
        omega
      · split
        · rename_i missing
          exact absurd missing (pieces_ne_nil rest)
        · rename_i first others cut
          rw [cut, List.map_cons, bulk] at induction
          rw [List.map_cons, bulk, String.ofList_cons, String.utf8ByteSize_append,
            String.utf8ByteSize_singleton]
          omega

theorem bulk_sublist {kept parts : List String} (sublist : kept.Sublist parts) :
    bulk kept ≤ bulk parts := by
  induction sublist with
  | slnil => exact Nat.le_refl _
  | cons part _ induction => exact induction.trans (Nat.le_add_left _ _)
  | cons_cons part _ induction => exact Nat.add_le_add_left induction _

theorem size_intercalate (components : List String) :
    (String.intercalate "/" components).utf8ByteSize = bulk components - 1 := by
  induction components with
  | nil => rfl
  | cons first others induction =>
      cases others with
      | nil => simp [bulk]
      | cons next rest =>
          have slash : "/".utf8ByteSize = 1 := rfl
          rw [String.intercalate_cons_cons, String.utf8ByteSize_append, String.utf8ByteSize_append,
            induction, slash]
          simp only [bulk]
          omega

theorem size_spell (text : String) :
    (spell (ofText text).absolute (ofText text).components).utf8ByteSize ≤ text.utf8ByteSize := by
  have whole := bulk_pieces text.toList
  rw [String.ofList_toList] at whole
  have kept : bulk (ofText text).components ≤ bulk ((pieces text.toList).map String.ofList) :=
    bulk_sublist (List.filter_sublist.map _)
  rw [spell, String.utf8ByteSize_append, size_intercalate]
  cases leads : (ofText text).absolute with
  | false =>
      have none : "".utf8ByteSize = 0 := rfl
      simp only [Bool.false_eq_true, if_false, none]
      omega
  | true =>
      have one : "/".utf8ByteSize = 1 := rfl
      -- The slash at the start cuts off a blank piece, which does not count.
      obtain ⟨rest, begins⟩ : ∃ rest, text.toList = '/' :: rest := by
        cases given : text.toList with
        | nil => simp [ofText, given] at leads
        | cons first rest => exact ⟨rest, by simp_all [ofText]⟩
      have shorter : bulk (ofText text).components ≤ bulk ((pieces rest).map String.ofList) := by
        simp only [ofText, begins, pieces, if_true, List.filter_cons, show isStep [] = false from rfl,
          Bool.false_eq_true, if_false]
        exact bulk_sublist (List.filter_sublist.map _)
      have sized : text.utf8ByteSize = (String.ofList rest).utf8ByteSize + 1 := by
        have same : String.ofList text.toList = text := String.ofList_toList
        rw [← same, begins, String.ofList_cons, String.utf8ByteSize_append]
        exact Nat.add_comm _ _
      rw [bulk_pieces] at shorter
      simp only [if_true, one]
      omega
theorem mem_intercalate {char : Char} (member : char ∈ (String.intercalate "/" components).toList) :
    char = '/' ∨ ∃ component ∈ components, char ∈ component.toList := by
  induction components with
  | nil => simp at member
  | cons first others induction =>
      cases others with
      | nil => exact .inr ⟨first, List.mem_cons_self, by simpa using member⟩
      | cons next rest =>
          rw [String.intercalate_cons_cons, String.toList_append, String.toList_append, List.append_assoc,
            List.mem_append, List.mem_append] at member
          rcases member with here | slash | later
          · exact .inr ⟨first, List.mem_cons_self, here⟩
          · exact .inl (by simpa using slash)
          · exact (induction later).imp_right fun ⟨component, shows, here⟩ =>
              ⟨component, List.mem_cons_of_mem first shows, here⟩

/-- What is spelled from the components of a text has no characters but the text's, and slashes. -/
theorem mem_spell {char : Char}
    (member : char ∈ (spell absolute (ofText text).components).toList) :
    char = '/' ∨ char ∈ text.toList := by
  rw [spell, String.toList_append, List.mem_append] at member
  rcases member with slash | later
  · refine .inl ?_
    cases absolute with
    | true => simpa using slash
    | false => simp at slash
  · rcases mem_intercalate later with slash | ⟨component, shows, here⟩
    · exact .inl slash
    · exact .inr ((mem_components shows).2 here)

/-! ## Places on the way -/

theorem mem_above {reversed : List String} (member : text ∈ Tree.above absolute reversed) :
    ∃ shown, shown <+: reversed.reverse ∧ text = spell absolute shown := by
  induction reversed with
  | nil => cases member
  | cons last parents induction =>
      rw [List.reverse_cons]
      rcases List.mem_cons.mp member with rfl | further
      · exact ⟨parents.reverse, List.prefix_append _ _, rfl⟩
      · obtain ⟨shown, begins, whole⟩ := induction further
        exact ⟨shown, begins.trans (List.prefix_append _ _), whole⟩

theorem on_way_self (base : Place) (text : String) : OnWay base text (placeOf base text) :=
  ⟨_, List.prefix_refl _, rfl⟩

/-- The directories that are made before a path are on its way. -/
theorem on_way_ancestor {parent : String} (base : Place)
    (member : parent ∈ Tree.ancestors (ofText text)) : OnWay base text (placeOf base parent) := by
  obtain ⟨shown, begins, rfl⟩ := mem_above member
  rw [List.reverse_reverse] at begins
  refine ⟨shown, begins, place_of_spell base _ fun component shows => ?_⟩
  exact (mem_components (begins.subset shows)).1

theorem on_way_join (plain : Plain name) :
    OnWay base (join directory name) place ↔
      OnWay base directory place ∨ place = placeOf base directory ++ [name] := by
  simp only [OnWay, of_text_join plain, List.prefix_concat_iff, placeOf]
  constructor
  · rintro ⟨shown, rfl | begins, rfl⟩
    · exact .inr (by rw [walk_append, walk_plain plain])
    · exact .inl ⟨shown, begins, rfl⟩
  · rintro (⟨shown, begins, rfl⟩ | rfl)
    · exact ⟨shown, .inr begins, rfl⟩
    · exact ⟨_, .inl rfl, by rw [walk_append, walk_plain plain]⟩

end LocalNet.Files.Path
