import LocalNet.Proofs.Files.Spelling
import LocalNet.Proofs.Files.Writing

/-!
# What work on a tree may change

Whether an operation succeeds or fails midway, the tree that it leaves grew out of the one it found by
directories made where there was nothing, and by files put where there was nothing or a file. So what
changed lies where something was to be made, a directory stays one, and so does a file.
-/

namespace LocalNet.Files

/-- What comes of a tree by directories that are made at places of `ways`, and files that are written
at places of `written`. -/
inductive Grows (ways written : Place → Prop) (before : Tree) : Tree → Prop where
  | start : Grows ways written before before
  | makes {reached : Tree} {place : Place} (grown : Grows ways written before reached)
      (way : ways place) (free : reached.entry? place = none) :
    Grows ways written before (reached.put place .directory)
  /-- A file that is written again keeps its access. -/
  | writes {reached : Tree} {place : Place} {content : Bytes} {access : Access}
      (grown : Grows ways written before reached) (here : written place)
      (free : reached.entry? place = none ∨
        ∃ old, reached.entry? place = some (.file old access)) :
    Grows ways written before (reached.put place (.file content access))

/-- Directories are still there, and so are files with their access. -/
def Retains (before after : Tree) : Prop :=
  ∀ place, (before.entry? place = some .directory → after.entry? place = some .directory) ∧
    ∀ content access, before.entry? place = some (.file content access) →
      ∃ content, after.entry? place = some (.file content access)

theorem Retains.refl (tree : Tree) : Retains tree tree :=
  fun _ => ⟨id, fun content _ there => ⟨content, there⟩⟩

theorem Retains.trans {first second third : Tree} (early : Retains first second)
    (late : Retains second third) : Retains first third := by
  intro place
  refine ⟨fun there => (late place).1 ((early place).1 there), fun content access there => ?_⟩
  obtain ⟨content, there⟩ := (early place).2 content access there
  exact (late place).2 content access there

theorem Tree.apart_of_free {tree : Tree} {place : Place}
    (free : tree.entry? place ≠ some .directory) : place ≠ [] :=
  fun top => free (by simp [top, Tree.entry?])

theorem Retains.find {before after : Tree} {base place : Place} {text : String}
    (retained : Retains before after) (found : before.find base text = .ok (place, .directory)) :
    after.find base text = .ok (place, .directory) :=
  Tree.find_kept (fun place => (retained place).1) found ((retained place).1 (Tree.find_iff.mp found).2)

namespace Grows

variable {ways written : Place → Prop} {before after : Tree}

theorem mono {ways' written' : Place → Prop} (grown : Grows ways written before after)
    (more : ∀ place, ways place → ways' place) (moreWritten : ∀ place, written place → written' place) :
    Grows ways' written' before after := by
  induction grown with
  | start => exact .start
  | makes _ way free induction => exact induction.makes (more _ way) free
  | writes _ here free induction => exact induction.writes (moreWritten _ here) free

theorem trans {last : Tree} (early : Grows ways written before after)
    (late : Grows ways written after last) : Grows ways written before last := by
  induction late with
  | start => exact early
  | makes _ way free induction => exact induction.makes way free
  | writes _ here free induction => exact induction.writes here free

/-- What changed is a directory that was made where there was nothing, or was to be written. -/
theorem confined (grown : Grows ways written before after) (place : Place) :
    after.entry? place = before.entry? place ∨
      (ways place ∧ before.entry? place = none ∧ after.entry? place = some .directory) ∨
      written place := by
  induction grown with
  | start => exact .inl rfl
  | @makes reached made _ way free induction =>
      have vacant : reached.entry? made ≠ some .directory := by simp [free]
      have apart := Tree.apart_of_free vacant
      rw [Tree.entry_put apart]
      by_cases here : place = made
      · subst here
        rw [if_pos rfl]
        rcases induction with same | ⟨-, -, there⟩ | region
        · exact .inr (.inl ⟨way, same ▸ free, rfl⟩)
        · simp [free] at there
        · exact .inr (.inr region)
      · rw [if_neg here]
        exact induction
  | @writes reached put content access _ region free induction =>
      have vacant : reached.entry? put ≠ some .directory := by
        rcases free with free | ⟨old, free⟩ <;> simp [free]
      have apart := Tree.apart_of_free vacant
      rw [Tree.entry_put apart]
      by_cases here : place = put
      · exact .inr (.inr (here ▸ region))
      · rw [if_neg here]
        exact induction

theorem retains (grown : Grows ways written before after) : Retains before after := by
  induction grown with
  | start => exact .refl _
  | @makes reached made _ way free induction =>
      have vacant : reached.entry? made ≠ some .directory := by simp [free]
      have apart := Tree.apart_of_free vacant
      refine induction.trans fun place => ?_
      rw [Tree.entry_put apart]
      by_cases here : place = made
      · simp [here, free]
      · rw [if_neg here]
        exact Retains.refl _ place
  | @writes reached put content access _ region free induction =>
      have vacant : reached.entry? put ≠ some .directory := by
        rcases free with free | ⟨old, free⟩ <;> simp [free]
      have apart := Tree.apart_of_free vacant
      refine induction.trans fun place => ?_
      rw [Tree.entry_put apart]
      by_cases here : place = put
      · rcases free with free | ⟨old, free⟩ <;> simp [here, free]
      · rw [if_neg here]
        exact Retains.refl _ place

end Grows

namespace Tree

variable {tree made : Tree} {base : Place} {text : String}

def nowhere (_ : Place) : Prop :=
  False

theorem make_directory_grows (performed : tree.makeDirectory base text = .ok made) :
    Grows (· = Path.placeOf base text) nowhere tree made := by
  unfold makeDirectory at performed
  split at performed
  · cases performed
  · rename_i place resolved
    split at performed
    · cases performed
    · rename_i free
      cases performed
      exact Grows.start.makes (resolve_place resolved) free

theorem make_all_grows (tree : Tree) (base : Place) (text : String) (ancestors : List String) :
    Grows (fun place => ∃ shown ∈ text :: ancestors, place = Path.placeOf base shown) nowhere tree
      (tree.makeAll base text ancestors).2 := by
  have alone {text : String} {ancestors : List String} {tree made : Tree}
      (performed : tree.makeDirectory base text = .ok made) :
      Grows (fun place => ∃ shown ∈ text :: ancestors, place = Path.placeOf base shown) nowhere tree
        made :=
    (make_directory_grows performed).mono (fun _ here => ⟨text, List.mem_cons_self, here⟩) fun _ => id
  induction ancestors generalizing text with
  | nil =>
      unfold makeAll
      split
      · exact .start
      · split
        · rename_i performed
          exact alone performed
        · exact .start
        · split <;> exact .start
  | cons parent others induction =>
      unfold makeAll
      split
      · exact .start
      · split
        · rename_i performed
          exact alone performed
        · have above : Grows (fun place => ∃ shown ∈ text :: parent :: others,
              place = Path.placeOf base shown) nowhere tree (tree.makeAll base parent others).2 :=
            (induction parent).mono
              (fun _ ⟨shown, member, here⟩ => ⟨shown, List.mem_cons_of_mem text member, here⟩) fun _ => id
          simp only
          split
          · rename_i failed
            rw [failed] at above
            exact above
          · rename_i reached performed
            rw [performed] at above
            split
            · rename_i last
              exact above.trans (alone last)
            · split <;> exact above
        · split <;> exact .start

theorem make_directories_grows (tree : Tree) (base : Place) (text : String) :
    Grows (Path.OnWay base text) nowhere tree (tree.makeDirectories base text).2 := by
  refine (make_all_grows tree base text _).mono (fun place ⟨shown, member, here⟩ => ?_) fun _ => id
  rw [here]
  rcases List.mem_cons.mp member with rfl | above
  · exact Path.on_way_self base shown
  · exact Path.on_way_ancestor base above

theorem write_grows (tree : Tree) (base : Place) (text : String) (content : Bytes) :
    Grows nowhere (· = Path.placeOf base text) tree (tree.write base text content).2 := by
  unfold write change
  split
  · exact .start
  · rename_i place written performed
    split at performed
    · cases performed
    · rename_i found resolved
      have here := resolve_place (resolve_of_file resolved)
      split at performed
      · cases performed
      · rename_i old access there
        split at performed
        · cases performed
          exact Grows.start.writes here (.inr ⟨old, there⟩)
        · cases performed
      · rename_i there
        cases performed
        exact Grows.start.writes here (.inl there)

theorem entry_remove {place other : Place} (apart : place ≠ []) :
    Tree.entry? (tree.remove place) other = if place <+: other then none else tree.entry? other := by
  unfold Tree.entry? remove
  rw [lookup_filter_key tree.entries (!place.isPrefixOf ·)]
  by_cases top : other = []
  · simp [top, apart]
  · by_cases under : place <+: other
    · have taken : place.isPrefixOf other = true := List.isPrefixOf_iff_prefix.mpr under
      simp [top, under, taken]
    · have spared : place.isPrefixOf other = false :=
        Bool.eq_false_iff.mpr fun taken => under (List.isPrefixOf_iff_prefix.mp taken)
      simp [top, under, spared]

end Tree

end LocalNet.Files
