import LocalNet.Proofs.Files.Walk
import LocalNet.Proofs.Tables

/-!
# What writing does to a tree

A directory that stands stays a directory, whatever is written or made, so what could be reached can still
be reached. A write changes one place, which then holds what was written; the making of directories takes
nothing away.
-/

namespace LocalNet.Files.Tree

/-- Whatever was a directory still is one. -/
def Keeps (before after : Tree) : Prop :=
  ∀ place, before.entry? place = some .directory → after.entry? place = some .directory

/-- Nothing that stood was changed. -/
def Extends (before after : Tree) : Prop :=
  ∀ place entry, before.entry? place = some entry → after.entry? place = some entry

/-- A path leads to a file that holds just this content. -/
def Holds (tree : Tree) (base : Place) (text : String) (content : Bytes) : Prop :=
  ∃ access, tree.find base text = .ok (Path.placeOf base text, .file content access)

theorem Keeps.refl (tree : Tree) : Keeps tree tree :=
  fun _ there => there

theorem Keeps.trans {first second third : Tree} (early : Keeps first second)
    (late : Keeps second third) : Keeps first third :=
  fun place there => late place (early place there)

theorem Extends.refl (tree : Tree) : Extends tree tree :=
  fun _ _ there => there

theorem Extends.trans {first second third : Tree} (early : Extends first second)
    (late : Extends second third) : Extends first third :=
  fun place entry there => late place entry (early place entry there)

theorem Extends.keeps {before after : Tree} (extended : Extends before after) :
    Keeps before after :=
  fun place there => extended place .directory there

variable {tree before after : Tree} {base place other : Place} {text : String}

theorem enter_kept {next : Place} {component : String} (keeps : Keeps before after)
    (entered : before.enter place component = .ok next) :
    after.enter place component = .ok next := by
  obtain ⟨there, -⟩ := enter_walk entered
  simpa only [enter, there, keeps place there] using entered

theorem follow_kept {last : Place} {components : List String} (keeps : Keeps before after)
    (followed : before.follow place components = .ok last) :
    after.follow place components = .ok last := by
  induction components generalizing place with
  | nil => exact followed
  | cons component rest ih =>
      unfold follow at followed ⊢
      split at followed
      · cases followed
      · rename_i next entered
        rw [enter_kept keeps entered]
        exact ih followed

theorem resolve_kept (keeps : Keeps before after)
    (resolved : before.resolve base text = .ok place) : after.resolve base text = .ok place := by
  obtain ⟨clean, named, short, located⟩ := resolve_by_iff.mp resolved
  exact resolve_by_iff.mpr ⟨clean, named, short, follow_kept keeps located⟩

theorem find_kept {entry : Entry} (keeps : Keeps before after)
    (found : before.find base text = .ok (place, entry))
    (unchanged : after.entry? place = some entry) :
    after.find base text = .ok (place, entry) := by
  exact find_iff.mpr ⟨resolve_kept keeps (find_iff.mp found).1, unchanged⟩

theorem entry_put (apart : place ≠ []) (entry : Entry) :
    Tree.entry? (tree.put place entry) other =
      if other = place then some entry else tree.entry? other := by
  by_cases here : other = place
  · simp [ entry?, put, here, apart]
  · have passed : (other == place) = false := by simpa using here
    simp only [ entry?, put, if_neg here, List.lookup_cons, passed, lookup_filter_other _ here]

theorem put_keeps (free : tree.entry? place ≠ some .directory) (entry : Entry) :
    Keeps tree (tree.put place entry) := by
  have apart : place ≠ [] := fun top => free (by simp [top, entry?])
  intro other there
  have differs : other ≠ place := fun same => free (same ▸ there)
  rw [entry_put apart, if_neg differs]
  exact there

theorem put_extends (free : tree.entry? place = none) (entry : Entry) :
    Extends tree (tree.put place entry) := by
  have apart : place ≠ [] := fun top => by simp [top, entry?] at free
  intro other found there
  have differs : other ≠ place := fun same => by simp [← same, there] at free
  rw [entry_put apart, if_neg differs]
  exact there

theorem resolve_of_file (resolved : resolveBy (tree.locateFile base) text = .ok place) :
    tree.resolve base text = .ok place := by
  obtain ⟨clean, named, short, located⟩ := resolve_by_iff.mp resolved
  refine resolve_by_iff.mpr ⟨clean, named, short, ?_⟩
  unfold locateFile at located
  split at located
  · dsimp only at located
    split at located <;> cases located
  · exact located

theorem change_ok {update : Bytes → Bytes} {changed : Tree}
    (performed : tree.change base text update = .ok (place, changed)) :
    ∃ old access, tree.resolve base text = .ok place ∧ tree.entry? place ≠ some .directory ∧
      changed = tree.put place (.file (update old) access) := by
  unfold change at performed
  split at performed
  · cases performed
  · rename_i found resolved
    have resolved := resolve_of_file resolved
    split at performed
    · cases performed
    · rename_i old access there
      split at performed
      · cases performed
        exact ⟨old, access, resolved, by simp [there], rfl⟩
      · cases performed
    · rename_i there
      cases performed
      exact ⟨[], {}, resolved, by simp [there], rfl⟩

theorem write_ok {content : Bytes} {written : Tree}
    (performed : tree.write base text content = (.ok (), written)) :
    ∃ place access, tree.resolve base text = .ok place ∧ tree.entry? place ≠ some .directory ∧
      written = tree.put place (.file content access) := by
  unfold write at performed
  split at performed
  · cases performed
  · rename_i place changed done
    cases performed
    obtain ⟨-, access, resolved, free, whole⟩ := change_ok done
    exact ⟨place, access, resolved, free, whole⟩

theorem make_directory_ok {made : Tree} (performed : tree.makeDirectory base text = .ok made) :
    Extends tree made ∧ made.isDirectory base text = true := by
  unfold makeDirectory at performed
  split at performed
  · cases performed
  · rename_i place resolved
    split at performed
    · cases performed
    · rename_i free
      cases performed
      have extended := put_extends free .directory
      refine ⟨extended, ?_⟩
      have apart : place ≠ [] := fun top => by simp [top, entry?] at free
      have stands : Tree.entry? (tree.put place .directory) place = some .directory := by
        rw [entry_put apart, if_pos rfl]
      simp only [isDirectory, find, resolve_kept extended.keeps resolved, stands]

def Settles (tree : Tree) (base : Place) (text : String) (made : Tree) : Prop :=
  tree.makeDirectory base text = .ok made ∨ made = tree ∧ tree.isDirectory base text = true

theorem Settles.spec {made : Tree} (settles : Settles tree base text made) :
    Extends tree made ∧ made.isDirectory base text = true := by
  rcases settles with performed | ⟨rfl, stands⟩
  · exact make_directory_ok performed
  · exact ⟨.refl _, stands⟩

/-- Nothing is to be done, or one directory is settled, at once or after those above it. -/
theorem make_all_course {ancestors : List String} {made : Tree}
    (performed : tree.makeAll base text ancestors = (.ok (), made)) :
    text = "" ∧ made = tree ∨ Settles tree base text made ∨
      ∃ parent others reached, ancestors = parent :: others ∧
        tree.makeAll base parent others = (.ok (), reached) ∧ Settles reached base text made := by
  unfold makeAll at performed
  split at performed
  · rename_i blank
    cases performed
    exact .inl ⟨blank, rfl⟩
  · right
    split at performed
    · rename_i alone
      cases performed
      exact .inl (.inl alone)
    · split at performed
      · cases performed
      · rename_i parent others
        split at performed
        · cases performed
        · rename_i reached above
          right
          refine ⟨parent, others, reached, rfl, above, ?_⟩
          split at performed
          · rename_i last
            cases performed
            exact .inl last
          · split at performed
            · rename_i stands
              cases performed
              exact .inr ⟨rfl, stands⟩
            · cases performed
    · split at performed
      · rename_i stands
        cases performed
        exact .inl (.inr ⟨rfl, stands⟩)
      · cases performed

theorem make_all_extends {ancestors : List String} {made : Tree}
    (performed : tree.makeAll base text ancestors = (.ok (), made)) : Extends tree made := by
  induction ancestors generalizing text made with
  | nil =>
      rcases make_all_course performed with ⟨-, rfl⟩ | settles | ⟨parent, others, reached, none, -⟩
      · exact .refl _
      · exact settles.spec.1
      · cases none
  | cons parent others ih =>
      rcases make_all_course performed with ⟨-, rfl⟩ | settles | ⟨_, _, reached, same, above, settles⟩
      · exact .refl _
      · exact settles.spec.1
      · cases same
        exact (ih above).trans settles.spec.1

theorem make_directories_ok {made : Tree} (named : text ≠ "")
    (performed : tree.makeDirectories base text = (.ok (), made)) :
    Extends tree made ∧
      made.find base text = .ok (Path.placeOf base text, .directory) := by
  refine ⟨make_all_extends performed, ?_⟩
  have stands : made.isDirectory base text = true := by
    rcases make_all_course performed with ⟨blank, -⟩ | settles | ⟨_, _, _, -, -, settles⟩
    · exact absurd blank named
    · exact settles.spec.2
    · exact settles.spec.2
  unfold isDirectory at stands
  split at stands
  · rename_i found
    rw [found, (find_place found).1]
  · cases stands

end LocalNet.Files.Tree
