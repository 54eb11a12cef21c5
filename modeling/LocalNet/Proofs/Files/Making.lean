import LocalNet.Proofs.Files.Confinement

/-!
# What can be made in a directory

Where a directory stands and a name in it is free, a directory can be made under that name, or a file,
and two directories can be made at once, one in the other. Whoever keeps some names of a directory free
while working elsewhere can use them later.
-/

namespace LocalNet.Files

/-- A text that is not turned down before its path is looked at. -/
def Path.Fits (text : String) : Prop :=
  '\x00' ∉ text.toList ∧ text.utf8ByteSize < Tree.tooLongPath

/-- A name that a directory can hold. -/
structure Path.Name (name : String) : Prop where
  plain : Path.Plain name
  short : name.utf8ByteSize ≤ Tree.longestName

instance (name : String) : Decidable (Path.Name name) :=
  decidable_of_iff (Path.Plain name ∧ name.utf8ByteSize ≤ Tree.longestName)
    ⟨fun ⟨plain, short⟩ => ⟨plain, short⟩, fun named => ⟨named.plain, named.short⟩⟩

theorem Path.Fits.of_join {directory name : String} (plain : Path.Plain name)
    (fits : Fits (join directory name)) : Fits directory := by
  obtain ⟨rest, whole⟩ := join_extends plain directory
  rw [Fits, whole, String.toList_append, List.mem_append, String.utf8ByteSize_append] at fits
  exact ⟨fun zero => fits.1 (.inl zero), by omega⟩

theorem Path.Fits.spell {text : String} (fits : Fits text) :
    Fits (spell (ofText text).absolute (ofText text).components) := by
  constructor
  · intro zero
    rcases mem_spell zero with slash | here
    · exact absurd slash (by decide)
    · exact fits.1 here
  · exact (size_spell text).trans_lt fits.2

namespace Tree

variable {tree : Tree} {base place : Place} {directory first second name : String}

theorem follow_of_resolve (resolved : tree.resolve base directory = .ok place) :
    tree.follow (if (Path.ofText directory).absolute then [] else base)
      (Path.ofText directory).components = .ok place := by
  obtain ⟨-, -, -, located⟩ := resolve_by_iff.mp resolved
  cases reached : tree.follow (if (Path.ofText directory).absolute then [] else base)
      (Path.ofText directory).components with
  | error reason =>
      rw [locate, follow_append, reached] at located
      cases located
  | ok middle => rw [follow_walk reached, resolve_place resolved, Path.placeOf]

theorem follow_join (tree : Tree) (base : Place) (plain : Path.Plain name) (directory : String) :
    tree.follow (if (Path.ofText (Path.join directory name)).absolute then [] else base)
        (Path.ofText (Path.join directory name)).components =
      (tree.follow (if (Path.ofText directory).absolute then [] else base)
        (Path.ofText directory).components).bind fun place => tree.enter place name := by
  simp only [Path.of_text_join plain, follow_append, follow]
  congr 1
  funext place
  cases tree.enter place name <;> rfl

theorem locate_join (tree : Tree) (base : Place) (plain : Path.Plain name) (directory : String) :
    tree.locate base (Path.ofText (Path.join directory name)) =
      (tree.follow (if (Path.ofText directory).absolute then [] else base)
        (Path.ofText directory).components).bind fun place => tree.enter place name := by
  have closed : (Path.ofText (Path.join directory name)).directoryOnly = false := by
    rw [Path.of_text_join plain]
  rw [← follow_join tree base plain, locate, closed]
  simp

theorem enter_name (named : Path.Name name) (there : tree.entry? place = some .directory) :
    tree.enter place name = .ok (place ++ [name]) := by
  have short : ¬longestName < name.utf8ByteSize := by
    have := named.short
    omega
  simp only [enter, there, named.plain.not_here, named.plain.not_up, short, if_false]

theorem resolve_join (named : Path.Name name) (fits : Path.Fits (Path.join directory name))
    (found : tree.find base directory = .ok (place, .directory)) :
    tree.resolve base (Path.join directory name) = .ok (place ++ [name]) := by
  refine resolve_by_iff.mpr ⟨fits.1, Path.join_ne_blank named.plain directory, fits.2, ?_⟩
  rw [locate_join tree base named.plain, follow_of_resolve (find_iff.mp found).1]
  exact enter_name named (find_iff.mp found).2

theorem make_directory_join (named : Path.Name name) (fits : Path.Fits (Path.join directory name))
    (found : tree.find base directory = .ok (place, .directory))
    (free : tree.entry? (place ++ [name]) = none) :
    tree.makeDirectory base (Path.join directory name) =
      .ok (tree.put (place ++ [name]) .directory) := by
  simp only [makeDirectory, resolve_join named fits found, free]

theorem write_join (named : Path.Name name) (fits : Path.Fits (Path.join directory name))
    (found : tree.find base directory = .ok (place, .directory))
    (free : tree.entry? (place ++ [name]) = none) (content : Bytes) :
    tree.write base (Path.join directory name) content =
      (.ok (), tree.put (place ++ [name]) (.file content {})) := by
  obtain ⟨zero, blank, short, located⟩ := resolve_by_iff.mp (resolve_join named fits found)
  have resolved : resolveBy (tree.locateFile base) (Path.join directory name) = .ok (place ++ [name]) := by
    refine resolve_by_iff.mpr ⟨zero, blank, short, ?_⟩
    have open_ended : (Path.ofText (Path.join directory name)).endsInSlash = false := by
      rw [Path.of_text_join named.plain]
    simp only [locateFile, open_ended, Bool.false_eq_true, if_false, located]
  simp only [write, change, resolved, free]

theorem find_put {other : Place} {entry : Entry} (free : tree.entry? other = none)
    (found : tree.find base directory = .ok (place, .directory)) :
    (tree.put other entry).find base directory = .ok (place, .directory) := by
  have kept := (put_extends free entry).keeps
  exact find_kept kept found (kept _ (find_iff.mp found).2)

theorem find_made (named : Path.Name name) (fits : Path.Fits (Path.join directory name))
    (found : tree.find base directory = .ok (place, .directory))
    (free : tree.entry? (place ++ [name]) = none) :
    (tree.put (place ++ [name]) .directory).find base (Path.join directory name) =
      .ok (place ++ [name], .directory) := by
  have apart : place ++ [name] ≠ [] := by simp
  refine find_iff.mpr ⟨resolve_kept (put_extends free .directory).keeps (resolve_join named fits found), ?_⟩
  rw [entry_put apart, if_pos rfl]

theorem resolve_spelled {text : String} (given : (Path.ofText text).components ≠ [])
    (closed : (Path.ofText text).directoryOnly = false) (resolved : tree.resolve base text = .ok place) :
    Path.spell (Path.ofText text).absolute (Path.ofText text).components ≠ "" ∧
      tree.resolve base (Path.spell (Path.ofText text).absolute (Path.ofText text).components) =
        .ok place := by
  obtain ⟨zero, -, short, located⟩ := resolve_by_iff.mp resolved
  have fits : Path.Fits text := ⟨zero, short⟩
  obtain ⟨same, components, ends⟩ := Path.of_text_spell (Path.ofText text).absolute
    fun component shows => (Path.mem_components shows).1
  have marked : Path.spell (Path.ofText text).absolute (Path.ofText text).components ≠ "" := by
    intro blank
    rw [blank] at components
    exact given components.symm
  refine ⟨marked, resolve_by_iff.mpr ⟨fits.spell.1, marked, fits.spell.2, ?_⟩⟩
  rw [locate, closed] at located
  rw [locate, same, components, ends given]
  exact located

theorem make_all_made {text : String} {made : Tree} (given : text ≠ "")
    (performed : tree.makeDirectory base text = .ok made) (ancestors : List String) :
    tree.makeAll base text ancestors = (.ok (), made) := by
  unfold makeAll
  rw [if_neg given, performed]

/-- Two directories are made at once, the second in the first. Even if the second cannot be made, the
first one is. -/
theorem make_directories_join (outer : Path.Name first) (inner : Path.Plain second)
    (fits : Path.Fits (Path.join (Path.join directory first) second))
    (found : tree.find base directory = .ok (place, .directory))
    (free : tree.entry? (place ++ [first]) = none) :
    let made := tree.put (place ++ [first]) .directory
    let text := Path.join (Path.join directory first) second
    (∀ last, made.makeDirectory base text = .ok last →
        tree.makeDirectories base text = (.ok (), last)) ∧
      ∀ reason, made.makeDirectory base text = .error reason →
        (tree.makeDirectories base text).2 = made := by
  intro made text
  have given := Path.join_ne_blank inner (Path.join directory first)
  have fitsOuter := fits.of_join inner
  -- The path leads through the first directory, which is not there.
  have missing : tree.makeDirectory base (Path.join (Path.join directory first) second) =
      .error (.refused .notFound) := by
    have located : tree.locate base (Path.ofText (Path.join (Path.join directory first) second)) =
        .error .notFound := by
      rw [locate_join tree base inner, follow_join tree base outer.plain, follow_of_resolve (find_iff.mp found).1]
      simp only [Except.bind, enter_name outer (find_iff.mp found).2]
      simp only [enter, free]
    have zero : ('\x00' ∈ (Path.join (Path.join directory first) second).toList) = False :=
      eq_false fits.1
    have short : ¬tooLongPath ≤ (Path.join (Path.join directory first) second).utf8ByteSize :=
      Nat.not_le.mpr fits.2
    simp [makeDirectory, resolve, resolveBy, zero, given, short, located]
  have above : ancestors (Path.ofText (Path.join (Path.join directory first) second)) =
      Path.spell (Path.ofText (Path.join directory first)).absolute
        (Path.ofText (Path.join directory first)).components ::
      ancestors (Path.ofText (Path.join directory first)) := by
    rw [Path.of_text_join inner]
    simp [ancestors, above, Path.spell]
  have plain := outer.plain
  obtain ⟨marked, resolved⟩ := resolve_spelled (by simp [Path.of_text_join plain])
    (by simp [Path.of_text_join plain]) (resolve_join outer fitsOuter found)
  have performed : tree.makeDirectory base (Path.spell (Path.ofText (Path.join directory first)).absolute
      (Path.ofText (Path.join directory first)).components) = .ok made := by
    simp only [makeDirectory, resolved, free, made]
  unfold makeDirectories makeAll
  rw [above, if_neg given, missing]
  constructor
  · intro last inside
    simp only [make_all_made marked performed, inside]
  · intro reason failed
    simp only [make_all_made marked performed, failed]
    split <;> rfl

theorem find_after_make_directories (outer : Path.Name first) (inner : Path.Plain second)
    (fits : Path.Fits (Path.join (Path.join directory first) second))
    (found : tree.find base directory = .ok (place, .directory))
    (free : tree.entry? (place ++ [first]) = none) :
    (tree.makeDirectories base (Path.join (Path.join directory first) second)).2.find base
      (Path.join directory first) = .ok (place ++ [first], .directory) := by
  have made := find_made outer (fits.of_join inner) found free
  obtain ⟨goes, fails⟩ := make_directories_join outer inner fits found free
  cases inside : Tree.makeDirectory (tree.put (place ++ [first]) .directory) base
      (Path.join (Path.join directory first) second) with
  | ok last =>
      have kept := (make_directory_ok inside).1.keeps
      rw [goes last inside]
      exact find_kept kept made (kept _ (find_iff.mp made).2)
  | error reason =>
      rw [fails reason inside]
      exact made

/-- Below a file no directory can be made, nor anything on the way to it. -/
theorem make_directories_below_file {content : Bytes} {access : Access} (plain : Path.Plain name)
    (found : tree.find base directory = .ok (place, .file content access)) :
    ∃ reason, tree.makeDirectories base (Path.join directory name) = (.error reason, tree) := by
  obtain ⟨resolved, there⟩ := find_iff.mp found
  have located : tree.locate base (Path.ofText (Path.join directory name)) = .error .notDirectory := by
    rw [locate_join tree base plain, follow_of_resolve resolved]
    simp only [Except.bind, enter, there]
  obtain ⟨reason, refused, present⟩ : ∃ reason,
      tree.resolve base (Path.join directory name) = .error reason ∧ reason ≠ .refused .notFound := by
    unfold resolve resolveBy
    rw [if_neg (Path.join_ne_blank plain directory), located]
    split
    · exact ⟨_, rfl, by decide⟩
    · split <;> exact ⟨_, rfl, by decide⟩
  have closed : tree.isDirectory base (Path.join directory name) = false := by
    simp only [isDirectory, find, refused]
  refine ⟨reason, ?_⟩
  unfold makeDirectories makeAll
  rw [if_neg (Path.join_ne_blank plain directory)]
  simp only [makeDirectory, refused, closed, Bool.false_eq_true, if_false]

/-! ## Names that are kept free -/

structure Room (tree : Tree) (base : Place) (directory : String) (place : Place) (names : List String) :
    Prop where
  found : tree.find base directory = .ok (place, .directory)
  free : ∀ name ∈ names, ∀ other, place ++ [name] <+: other → tree.entry? other = none

namespace Room

variable {names rest : List String}

theorem weaken (room : Room tree base directory place names) (fewer : rest ⊆ names) :
    Room tree base directory place rest :=
  ⟨room.found, fun name member => room.free name (fewer member)⟩

theorem put {inside : Place} (room : Room tree base directory place names) (given : name ∉ names)
    (within : place ++ [name] <+: inside) (vacant : tree.entry? inside = none) (entry : Entry) :
    Room (tree.put inside entry) base directory place names := by
  refine ⟨find_put vacant room.found, fun kept member other below => ?_⟩
  have apart : inside ≠ [] := fun top => by simp [top] at within
  have differs : other ≠ inside := by
    rintro rfl
    have same := List.prefix_or_prefix_of_prefix below within
    simp only [List.prefix_append_right_inj, List.cons_prefix_cons, List.prefix_refl, and_true] at same
    rcases same with rfl | rfl <;> exact given member
  rw [entry_put apart, if_neg differs]
  exact room.free kept member other below

theorem write (room : Room tree base directory place (name :: rest)) (given : name ∉ rest)
    (named : Path.Name name) (fits : Path.Fits (Path.join directory name)) (content : Bytes) :
    ∃ after, tree.write base (Path.join directory name) content = (.ok (), after) ∧
      Room after base directory place rest := by
  have vacant := room.free name List.mem_cons_self _ (List.prefix_refl _)
  exact ⟨_, write_join named fits room.found vacant content,
    (room.weaken (List.subset_cons_self name rest)).put given (List.prefix_refl _) vacant _⟩

theorem make (found : tree.find base directory = .ok (place, .directory))
    (clear : ∀ other, place ++ [first] <+: other → tree.entry? other = none) (outer : Path.Name first)
    (inner : Path.Name second) (fits : Path.Fits (Path.join (Path.join directory first) second))
    (names : List String) :
    ∃ made, tree.makeDirectories base (Path.join (Path.join directory first) second) = (.ok (), made) ∧
      Room made base (Path.join (Path.join directory first) second) (place ++ [first] ++ [second]) names ∧
      ∀ kept, first ∉ kept → Room tree base directory place kept → Room made base directory place kept := by
  have free := clear _ (List.prefix_refl _)
  have outside := find_made outer (fits.of_join inner.plain) found free
  have vacant : Tree.entry? (tree.put (place ++ [first]) .directory) (place ++ [first] ++ [second]) =
      none := by
    rw [entry_put (by simp), if_neg (by simp)]
    exact clear _ (List.prefix_append _ _)
  refine ⟨(tree.put (place ++ [first]) .directory).put (place ++ [first] ++ [second]) .directory,
    ?_, ⟨find_made inner fits outside vacant, fun name _ other below => ?_⟩, fun kept given room => ?_⟩
  · exact (make_directories_join outer inner.plain fits found free).1 _
      (make_directory_join inner fits outside vacant)
  · have longer := below.length_le
    simp only [List.length_append, List.length_cons, List.length_nil] at longer
    rw [entry_put (by simp), if_neg, entry_put (by simp), if_neg]
    · exact clear other (((List.prefix_append _ _).trans (List.prefix_append _ _)).trans below)
    · rintro rfl
      simp only [List.length_append, List.length_cons, List.length_nil] at longer
      omega
    · rintro rfl
      simp only [List.length_append, List.length_cons, List.length_nil] at longer
      omega
  · exact (room.put given (List.prefix_refl _) free _).put given (List.prefix_append _ _) vacant _

end Room

end Tree

end LocalNet.Files
