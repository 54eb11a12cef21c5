import Mathlib.Data.List.Basic
import LocalNet.Files.Tree

/-!
# Where a path leads

Following a path asks at each component whether a directory stands there, but the place it comes to is
settled by the text of the path: `walk` computes it. To name something plain below a directory adds the
name to the components, and changes nothing else.
-/

namespace LocalNet.Files

namespace Path

/-- The place that components lead to, as far as every place on the way is a directory. -/
def walk : Place → List String → Place
  | place, [] => place
  | place, component :: rest =>
    if component = "." then walk place rest
    else if component = ".." then walk place.dropLast rest
    else walk (place ++ [component]) rest

/-- The place that a text names, seen from the directory `base`. -/
def placeOf (base : Place) (text : String) : Place :=
  walk (if (ofText text).absolute then [] else base) (ofText text).components

/-- A name that leads exactly one step down. -/
structure Plain (name : String) : Prop where
  named : name ≠ ""
  not_here : name ≠ "."
  not_up : name ≠ ".."
  unsplit : '/' ∉ name.toList

instance (name : String) : Decidable (Plain name) :=
  decidable_of_iff (name ≠ "" ∧ name ≠ "." ∧ name ≠ ".." ∧ '/' ∉ name.toList)
    ⟨fun ⟨named, notHere, notUp, unsplit⟩ => ⟨named, notHere, notUp, unsplit⟩,
      fun plain => ⟨plain.named, plain.not_here, plain.not_up, plain.unsplit⟩⟩

variable {base place : Place} {directory name text : String}

theorem walk_append (place : Place) (before after : List String) :
    walk place (before ++ after) = walk (walk place before) after := by
  induction before generalizing place with
  | nil => rfl
  | cons component rest ih =>
      simp only [List.cons_append, walk]
      split
      · exact ih place
      · split
        · exact ih place.dropLast
        · exact ih (place ++ [component])

theorem walk_plain (plain : Plain name) (place : Place) : walk place [name] = place ++ [name] := by
  simp [walk, plain.not_here, plain.not_up]

theorem pieces_ne_nil (chars : List Char) : pieces chars ≠ [] := by
  cases chars with
  | nil => simp [pieces]
  | cons char rest =>
      unfold pieces
      split
      · simp
      · split <;> simp

theorem pieces_append (before after : List Char) :
    pieces (before ++ '/' :: after) = pieces before ++ pieces after := by
  induction before with
  | nil => simp [pieces]
  | cons char rest ih =>
      simp only [List.cons_append, pieces, ih]
      split
      · rfl
      · cases begun : pieces rest with
        | nil => exact absurd begun (pieces_ne_nil rest)
        | cons piece others => rfl

theorem pieces_unsplit {chars : List Char} (unsplit : '/' ∉ chars) : pieces chars = [chars] := by
  induction chars with
  | nil => rfl
  | cons char rest ih =>
      have here : char ≠ '/' := fun same => unsplit (by simp [same])
      simp [pieces, here, ih fun later => unsplit (List.mem_cons_of_mem char later)]

theorem Plain.is_step (plain : Plain name) : isStep name.toList = true := by
  have dotted : name.toList ≠ ['.'] := fun same => plain.not_here (String.toList_inj.mp same)
  simp [isStep, plain.named, dotted]

theorem Plain.head_ne_slash (plain : Plain name) : name.toList.head? ≠ some '/' :=
  fun slash => plain.unsplit (List.mem_of_mem_head? slash)

theorem Plain.last_ne_slash (plain : Plain name) : name.toList.getLast? ≠ some '/' :=
  fun slash => plain.unsplit (List.mem_of_getLast? slash)

/-- A slash is put between a directory and a name, unless the directory ends in one or is blank. -/
theorem text_of_join (plain : Plain name) (directory : String) :
    (join directory name).toList = directory.toList ++ name.toList ∧
        (directory.toList = [] ∨ ∃ start, directory.toList = start ++ ['/']) ∨
      (join directory name).toList = directory.toList ++ '/' :: name.toList ∧
        directory.toList ≠ [] := by
  unfold join
  rw [if_neg plain.head_ne_slash]
  by_cases blank : directory = ""
  · simp [blank]
  · by_cases slash : directory.toList.getLast? = some '/'
    · simp only [slash, decide_true, Bool.or_true, if_true, String.toList_append]
      exact .inl ⟨trivial, .inr (List.getLast?_eq_some_iff.mp slash)⟩
    · simp [blank, slash]

/-- However the text of a directory ends, the pieces that count of a path in it are the directory's
own, and the name. -/
theorem pieces_of_join (plain : Plain name) (directory : String) :
    (pieces (join directory name).toList).filter isStep =
        (pieces directory.toList).filter isStep ++ [name.toList] ∧
      (pieces (join directory name).toList).getLast? = some name.toList := by
  have alone := pieces_unsplit plain.unsplit
  have counts : [name.toList].filter isStep = [name.toList] := by simp [plain.is_step]
  have blank : (pieces []).filter isStep = [] := rfl
  rcases text_of_join plain directory with ⟨whole, ended | ⟨start, ended⟩⟩ | ⟨whole, -⟩
  · simp [whole, ended, alone, counts, blank]
  · have opened : pieces (start ++ ['/']) = pieces start ++ pieces [] := pieces_append start []
    simp only [whole, ended, opened, List.append_assoc, List.singleton_append, pieces_append, alone,
      List.filter_append, counts, blank, List.append_nil, List.getLast?_concat, and_self]
  · simp only [whole, pieces_append, alone, List.filter_append, counts, List.getLast?_concat,
      and_self]

theorem head_of_join (plain : Plain name) (directory : String) :
    (join directory name).toList.head? = some '/' ↔ directory.toList.head? = some '/' := by
  rcases text_of_join plain directory with ⟨whole, ended | ⟨start, ended⟩⟩ | ⟨whole, there⟩
  · simp [whole, ended, plain.head_ne_slash]
  · cases start <;> simp [whole, ended]
  · rw [whole, List.head?_append_of_ne_nil _ there]

theorem last_of_join (plain : Plain name) (directory : String) :
    (join directory name).toList.getLast? = name.toList.getLast? := by
  have named : name.toList ≠ [] := by simpa using plain.named
  rcases text_of_join plain directory with ⟨whole, -⟩ | ⟨whole, -⟩
  · rw [whole, List.getLast?_append_of_ne_nil _ named]
  · rw [whole, List.append_cons, List.getLast?_append_of_ne_nil _ named]

theorem of_text_join (plain : Plain name) (directory : String) :
    ofText (join directory name) =
      { absolute := (ofText directory).absolute
        components := (ofText directory).components ++ [name]
        directoryOnly := false
        endsInSlash := false } := by
  obtain ⟨steps, last⟩ := pieces_of_join plain directory
  simp only [ofText, steps, last, head_of_join plain, last_of_join plain, plain.last_ne_slash,
    plain.is_step, List.map_append, List.map_cons, List.map_nil, String.ofList_toList,
    Option.getD_some, Bool.not_true, decide_false, Bool.false_and]

theorem place_of_absolute (absolute : (ofText text).absolute = true) (base other : Place) :
    placeOf base text = placeOf other text := by
  simp only [placeOf, absolute, if_true]

theorem slash_of_absolute (absolute : (ofText text).absolute = true) : '/' ∈ text.toList :=
  List.mem_of_mem_head? (by simpa [ofText] using absolute)

theorem join_extends (plain : Plain name) (directory : String) :
    ∃ rest, join directory name = directory ++ rest := by
  unfold join
  rw [if_neg plain.head_ne_slash]
  split
  · exact ⟨name, rfl⟩
  · exact ⟨"/" ++ name, by rw [String.append_assoc]⟩

theorem join_ne_blank (plain : Plain name) (directory : String) : join directory name ≠ "" := by
  intro blank
  rcases text_of_join plain directory with ⟨whole, -⟩ | ⟨whole, -⟩ <;>
    simp [blank, plain.named] at whole

theorem place_of_join (plain : Plain name) (base : Place) (directory : String) :
    placeOf base (join directory name) = placeOf base directory ++ [name] := by
  simp only [placeOf, of_text_join plain, walk_append, walk_plain plain]

end Path

namespace Tree

variable {tree : Tree}

theorem enter_walk {place next : Place} {component : String}
    (entered : tree.enter place component = .ok next) :
    tree.entry? place = some .directory ∧ next = Path.walk place [component] := by
  unfold enter at entered
  split at entered
  · cases entered
  · cases entered
  · rename_i there
    refine ⟨there, ?_⟩
    split at entered
    · rename_i here
      cases entered
      simp [Path.walk, here]
    · split at entered
      · rename_i up
        cases entered
        simp [Path.walk, up]
      · split at entered
        · cases entered
        · rename_i here up _
          cases entered
          simp [Path.walk, here, up]

theorem follow_walk {place last : Place} {components : List String}
    (followed : tree.follow place components = .ok last) : last = Path.walk place components := by
  induction components generalizing place with
  | nil =>
      cases followed
      rfl
  | cons component rest ih =>
      unfold follow at followed
      split at followed
      · cases followed
      · rename_i next entered
        obtain ⟨-, rfl⟩ := enter_walk entered
        rw [ih followed, ← Path.walk_append]
        rfl

theorem locate_place {base place : Place} {path : Path}
    (located : tree.locate base path = .ok place) :
    place = Path.walk (if path.absolute then [] else base) path.components := by
  have reached := follow_walk located
  rw [reached, Path.walk_append]
  cases path.directoryOnly <;> simp [Path.walk]

theorem resolve_by_iff {locate : Path → Except OsError Place} {text : String} {place : Place} :
    resolveBy locate text = .ok place ↔
      '\x00' ∉ text.toList ∧ text ≠ "" ∧ text.utf8ByteSize < tooLongPath ∧
        locate (Path.ofText text) = .ok place := by
  unfold resolveBy
  constructor
  · intro resolved
    split at resolved
    · cases resolved
    · rename_i clean
      split at resolved
      · cases resolved
      · rename_i named
        split at resolved
        · cases resolved
        · rename_i short
          split at resolved
          · cases resolved
          · rename_i located
            cases resolved
            exact ⟨by simpa using clean, named, by omega, located⟩
  · rintro ⟨clean, named, short, located⟩
    rw [if_neg (by simpa using clean), if_neg named, if_neg (by omega), located]

theorem resolve_place {base place : Place} {text : String}
    (resolved : tree.resolve base text = .ok place) : place = Path.placeOf base text :=
  locate_place (resolve_by_iff.mp resolved).2.2.2

theorem find_iff {base place : Place} {text : String} {entry : Entry} :
    tree.find base text = .ok (place, entry) ↔
      tree.resolve base text = .ok place ∧ tree.entry? place = some entry := by
  unfold find
  constructor
  · intro found
    split at found
    · cases found
    · rename_i resolved
      split at found
      · cases found
      · rename_i there
        cases found
        exact ⟨resolved, there⟩
  · rintro ⟨resolved, there⟩
    simp only [resolved, there]

theorem find_place {base place : Place} {text : String} {entry : Entry}
    (found : tree.find base text = .ok (place, entry)) :
    place = Path.placeOf base text ∧ tree.entry? place = some entry := by
  obtain ⟨resolved, there⟩ := find_iff.mp found
  exact ⟨resolve_place resolved, there⟩

theorem follow_append (place : Place) (before after : List String) :
    tree.follow place (before ++ after) =
      (tree.follow place before).bind fun middle => tree.follow middle after := by
  induction before generalizing place with
  | nil => rfl
  | cons component rest ih =>
      simp only [List.cons_append, follow]
      cases tree.enter place component with
      | error reason => rfl
      | ok next => exact ih next

theorem find_above {base place : Place} {directory name : String} {entry : Entry}
    (plain : Path.Plain name) (named : directory ≠ "")
    (found : tree.find base (Path.join directory name) = .ok (place, entry)) :
    tree.find base directory = .ok (Path.placeOf base directory, .directory) := by
  obtain ⟨clean, -, short, located⟩ := resolve_by_iff.mp (find_iff.mp found).1
  obtain ⟨rest, whole⟩ := Path.join_extends plain directory
  simp only [whole, String.toList_append, List.mem_append, not_or, String.utf8ByteSize_append]
    at clean short
  simp only [locate, Path.of_text_join plain, Bool.false_eq_true, if_false, List.append_nil,
    follow_append] at located
  cases reached : tree.follow (if (Path.ofText directory).absolute then [] else base)
      (Path.ofText directory).components with
  | error reason =>
      rw [reached] at located
      cases located
  | ok middle =>
      have there : tree.entry? middle = some .directory := by
        simp only [reached, Except.bind, follow] at located
        split at located
        · cases located
        · rename_i next entered
          exact (enter_walk entered).1
      have resolved : tree.resolve base directory = .ok middle := by
        refine resolve_by_iff.mpr ⟨clean.1, named, by omega, ?_⟩
        simp only [locate, follow_append, reached, Except.bind]
        split <;> simp [follow, enter, there]
      rw [← resolve_place resolved]
      exact find_iff.mpr ⟨resolved, there⟩

theorem find_absolute {text : String} (absolute : (Path.ofText text).absolute = true)
    (base other : Place) : tree.find base text = tree.find other text := by
  simp only [find, resolve, resolveBy, locate, absolute, if_true]

end Tree

end LocalNet.Files
