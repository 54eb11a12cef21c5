import LocalNet.Proofs.Files.Making
import LocalNet.Proofs.Process.Staged

/-!
# Which names a directory can be made of

The check of node names asks that a name leads exactly one step down. A directory asks two things more
of what it is to hold: no zero byte, and a limited length. A name that the check lets through can be
made a directory exactly if it meets these too, and staging ends at its first step if it does not.
-/

namespace LocalNet

open Files

namespace Files

/-- Why a directory holds no entry of this name, if there is no other fault. -/
def Path.nameFault? (directory name : String) : Option IoFault :=
  if '\x00' ∈ name.toList then some .zeroInPath
  else if Tree.longestName < name.utf8ByteSize ∨
      Tree.tooLongPath ≤ (Path.join directory name).utf8ByteSize then some (.refused .nameTooLong)
  else none

namespace Tree

variable {tree : Tree} {base place : Place} {directory name : String}

theorem zero_of_join (plain : Path.Plain name) (whole : '\x00' ∉ directory.toList) :
    '\x00' ∈ (Path.join directory name).toList ↔ '\x00' ∈ name.toList := by
  rcases Path.text_of_join plain directory with ⟨joined, -⟩ | ⟨joined, -⟩ <;> simp [joined, whole]

theorem enter_plain (plain : Path.Plain name) (there : tree.entry? place = some .directory) :
    tree.enter place name =
      if longestName < name.utf8ByteSize then .error .nameTooLong else .ok (place ++ [name]) := by
  simp only [enter, there, plain.not_here, plain.not_up, if_false]

/-- In a directory that is there, only the name and the length of the whole path are looked at. -/
theorem resolve_in_directory (plain : Path.Plain name)
    (found : tree.find base directory = .ok (place, .directory)) :
    tree.resolve base (Path.join directory name) =
      match Path.nameFault? directory name with
      | some fault => .error fault
      | none => .ok (place ++ [name]) := by
  obtain ⟨resolved, there⟩ := find_iff.mp found
  have zero := zero_of_join plain (resolve_by_iff.mp resolved).1
  have given := Path.join_ne_blank plain directory
  have located : tree.locate base (Path.ofText (Path.join directory name)) =
      if longestName < name.utf8ByteSize then .error .nameTooLong else .ok (place ++ [name]) := by
    rw [locate_join tree base plain, follow_of_resolve resolved]
    exact enter_plain plain there
  simp only [resolve, resolveBy, List.contains_eq_mem, zero, decide_eq_true_eq, given, if_false,
    located, Path.nameFault?]
  by_cases holds : '\x00' ∈ name.toList
  · simp only [holds, if_true]
  · by_cases path : tooLongPath ≤ (Path.join directory name).utf8ByteSize
    · simp only [holds, path, or_true, if_true, if_false]
    · by_cases long : longestName < name.utf8ByteSize
      · simp only [holds, path, long, true_or, if_true, if_false]
      · simp only [holds, path, long, or_self, if_false]

theorem make_named_directory (plain : Path.Plain name)
    (found : tree.find base directory = .ok (place, .directory))
    (free : tree.entry? (place ++ [name]) = none) :
    tree.makeDirectory base (Path.join directory name) =
      match Path.nameFault? directory name with
      | some fault => .error fault
      | none => .ok (tree.put (place ++ [name]) .directory) := by
  rw [makeDirectory, resolve_in_directory plain found]
  cases Path.nameFault? directory name with
  | some fault => rfl
  | none => simp only [free]

theorem name_fault_cases {fault : IoFault} (faulty : Path.nameFault? directory name = some fault) :
    fault = .zeroInPath ∨ fault = .refused .nameTooLong := by
  unfold Path.nameFault? at faulty
  split at faulty
  · exact .inl (Option.some.inj faulty).symm
  · split at faulty
    · exact .inr (Option.some.inj faulty).symm
    · cases faulty

/-- The directories above are there already, so nothing is made but the named one. -/
theorem make_named_directories (plain : Path.Plain name)
    (found : tree.find base directory = .ok (place, .directory))
    (free : tree.entry? (place ++ [name]) = none) :
    tree.makeDirectories base (Path.join directory name) =
      match Path.nameFault? directory name with
      | some fault => (.error fault, tree)
      | none => (.ok (), tree.put (place ++ [name]) .directory) := by
  have given := Path.join_ne_blank plain directory
  have made := make_named_directory plain found free
  cases judged : Path.nameFault? directory name with
  | none =>
      rw [judged] at made
      exact make_all_made given made _
  | some fault =>
      rw [judged] at made
      have lost : tree.find base (Path.join directory name) = .error fault := by
        rw [find, resolve_in_directory plain found, judged]
      have absent : tree.isDirectory base (Path.join directory name) = false := by
        rw [isDirectory, lost]
      unfold makeDirectories makeAll
      rcases name_fault_cases judged with rfl | rfl <;>
        simp only [given, if_false, made, absent, Bool.false_eq_true]

end Tree

end Files

namespace Launcher

variable {launcher : Launcher} {tree : Tree} {place : Place} {name : String}

/-- A name that the check lets through can be made a directory below a root that is there, if it is
free, exactly if it holds no zero byte and neither it nor the whole path is too long. Otherwise nothing
is made, and staging a config of that name fails at its first step and for the name alone, although
nothing was wrong with the settings. -/
theorem accepted_name_fits_directory_iff (accepted : isValidNodeName name = true) (named : name ≠ "")
    (found : tree.find launcher.base launcher.root = .ok (place, .directory))
    (free : tree.entry? (place ++ [name]) = none) :
    ((∃ made, tree.makeDirectory launcher.base (launcher.directoryOf name) = .ok made) ↔
        '\x00' ∉ name.toList ∧ name.utf8ByteSize ≤ Tree.longestName ∧
          (launcher.directoryOf name).utf8ByteSize < Tree.tooLongPath) ∧
      (Path.nameFault? launcher.root name = none →
        tree.makeDirectories launcher.base (launcher.directoryOf name) =
          (.ok (), tree.put (place ++ [name]) .directory)) ∧
      ∀ fault, Path.nameFault? launcher.root name = some fault →
        tree.makeDirectories launcher.base (launcher.directoryOf name) = (.error fault, tree) ∧
          ∀ config settled args, config.name = name → settings config = .ok settled →
            tree.pathExists launcher.base settled.binaryPath = true →
            launcher.spawn tree config args =
              (.error (.setup ("creating node directory " ++
                Text.quoted (launcher.directoryOf name) ++ ": " ++ fault.message)), tree) := by
  have plain := plain_of_valid named accepted
  have made := Tree.make_named_directory plain found free
  have staged := Tree.make_named_directories plain found free
  refine ⟨?_, fun clean => ?_, fun fault faulty => ?_⟩
  · rw [directoryOf, made]
    unfold Path.nameFault?
    by_cases zero : '\x00' ∈ name.toList
    · simp [zero]
    · by_cases long : Tree.longestName < name.utf8ByteSize ∨
          Tree.tooLongPath ≤ (Path.join launcher.root name).utf8ByteSize
      · simp only [zero, long, if_true, if_false, reduceCtorEq, exists_false, not_false_eq_true,
          true_and, false_iff]
        omega
      · simp only [zero, long, if_false, Except.ok.injEq, exists_eq', not_false_eq_true, true_and,
          true_iff]
        omega
  · rw [directoryOf, staged, clean]
  · rw [faulty] at staged
    refine ⟨staged, fun config _ args same usable there => ?_⟩
    have performed : Staging.perform tree launcher.base
        (Staging.steps config (launcher.directoryOf config.name)) =
          (.error ("creating node directory " ++ Text.quoted (launcher.directoryOf name) ++ ": " ++
            fault.message), tree) := by
      rw [same, Staging.steps, List.append_assoc, List.cons_append, Staging.perform,
        StagingStep.perform, directoryOf, staged]
      rfl
    have course := spawn_course launcher tree args usable
    generalize launcher.spawn tree config args = result at course ⊢
    cases course with
    | missing absent =>
        rw [there] at absent
        cases absent
    | unstaged _ failed =>
        rw [performed] at failed
        cases failed
        rfl
    | staged _ done =>
        rw [performed] at done
        cases done

end Launcher

def roomyTree : Files.Tree where
  entries := [(["bin"], .directory), (["bin", "node"], .file [] {}), (["net"], .directory)]

def zeroName : String := "n\x00"

def repeatedLetter (count : Nat) : String := String.ofList (List.replicate count 'n')

/-- One byte more than a directory can hold. -/
def overlongName : String := repeatedLetter (Files.Tree.longestName + 1)

/-- A zero byte passes both checks of the settings, and is found in the first step of the staging. -/
theorem zero_name_fails_in_staging :
    isValidNodeName zeroName = true ∧ zeroName ≠ "" ∧
      roomyTree.find [] "/net" = .ok (["net"], .directory) ∧
      roomyTree.entry? ["net", zeroName] = none ∧
      launcherBelowNet.spawn roomyTree { unnamedNode with name := zeroName } [] =
        (.error (.setup ("creating node directory " ++ Text.quoted "/net/n\x00" ++
          ": file name contained an unexpected NUL byte")), roomyTree) := by
  have accepted : isValidNodeName zeroName = true := by decide
  have named : zeroName ≠ "" := by decide
  have found : roomyTree.find [] "/net" = .ok (["net"], .directory) := by decide
  have free : roomyTree.entry? ["net", zeroName] = none := by decide
  have directory := @Launcher.accepted_name_fits_directory_iff launcherBelowNet roomyTree ["net"]
  obtain ⟨-, -, fails⟩ := directory accepted named found free
  obtain ⟨-, told⟩ := fails .zeroInPath (by decide)
  exact ⟨accepted, named, found, free,
    told { unnamedNode with name := zeroName } { binaryPath := "/bin/node" } [] rfl rfl (by decide)⟩

theorem not_mem_repeated_letter {char : Char} (count : Nat) (other : char ≠ 'n') :
    char ∉ (repeatedLetter count).toList := by
  rw [repeatedLetter, String.toList_ofList, List.mem_replicate]
  exact fun inside => other inside.2

theorem repeated_letter_accepted {count : Nat} (many : 2 < count) :
    isValidNodeName (repeatedLetter count) = true ∧ repeatedLetter count ≠ "" := by
  have apart {name : String} (short : name.toList.length ≤ 2) : repeatedLetter count ≠ name := by
    rintro rfl
    rw [repeatedLetter, String.toList_ofList, List.length_replicate] at short
    omega
  have blank : repeatedLetter count ≠ "" := apart (by decide)
  have here : repeatedLetter count ≠ "." := apart (by decide)
  have up : repeatedLetter count ≠ ".." := apart (by decide)
  have slash : '/' ∉ (repeatedLetter count).toList := not_mem_repeated_letter count (by decide)
  have backslash : '\\' ∉ (repeatedLetter count).toList := not_mem_repeated_letter count (by decide)
  exact ⟨by simp [isValidNodeName, blank, here, up, slash, backslash], blank⟩

/-- The check lets the name through, and its root is there and has no such entry, but no directory of
that name can be made. -/
structure FailsAlone (name : String) : Prop where
  accepted : isValidNodeName name = true
  named : name ≠ ""
  found : roomyTree.find [] "/net" = .ok (["net"], .directory)
  free : roomyTree.entry? ["net", name] = none
  unmade : ¬∃ made, roomyTree.makeDirectory [] (launcherBelowNet.directoryOf name) = .ok made

theorem fails_alone {name : String} {fault : IoFault} (accepted : isValidNodeName name = true)
    (named : name ≠ "") (faulty : Path.nameFault? "/net" name = some fault) : FailsAlone name := by
  have found : roomyTree.find [] "/net" = .ok (["net"], .directory) := by decide
  have free : roomyTree.entry? (["net"] ++ [name]) = none := by
    simp [Files.Tree.entry?, roomyTree, List.lookup_cons]
  refine ⟨accepted, named, found, free, ?_⟩
  have made := Files.Tree.make_named_directory (plain_of_valid named accepted) found free
  rw [faulty] at made
  simp [Launcher.directoryOf, launcherBelowNet, made]

/-- A zero byte is let through, and so is a byte more than fits. -/
theorem accepted_names_make_no_directory : FailsAlone zeroName ∧ FailsAlone overlongName := by
  have long : Tree.longestName < overlongName.utf8ByteSize := by decide +kernel
  have clean : '\x00' ∉ overlongName.toList := not_mem_repeated_letter _ (by decide)
  obtain ⟨accepted, named⟩ : isValidNodeName overlongName = true ∧ overlongName ≠ "" :=
    repeated_letter_accepted (by decide)
  have tooLong : Path.nameFault? "/net" overlongName = some (.refused .nameTooLong) := by
    rw [Path.nameFault?, if_neg clean, if_pos (.inl long)]
  exact ⟨fails_alone (by decide) (by decide) (by decide : _ = some .zeroInPath),
    fails_alone accepted named tooLong⟩

end LocalNet
