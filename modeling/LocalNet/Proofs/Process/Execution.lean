import LocalNet.Process.Machine
import LocalNet.Proofs.Files.Writing

/-!
# What a launch executes

A launch that succeeds has found a file, seen from the directory of the child, and has handed it the
arguments of the plan. A program with a slash is that file itself; one without is looked for in the
directories of the search path.
-/

namespace LocalNet.Machine

open Files

/-- How a path, seen from the directory `place`, comes to be a program that runs: the file that is
executed is known, or is a script that hands itself and its arguments to its interpreter. -/
inductive Loads (machine : Machine) (place : Place) :
    (path : String) → (args : List String) → (file : Place) → Image → Prop where
  | known {path : String} {args : List String} {file : Place} {content : Bytes} {access : Access}
      {native : Native}
      (found : machine.tree.find place path = .ok (file, .file content access))
      (allowed : access.executable = true) (listed : machine.natives.lookup file = some native) :
    Loads machine place path args file ⟨native, path, args⟩
  | script {path : String} {args : List String} {file inner : Place} {content name : Bytes}
      {access : Access} {argument : Option Bytes} {image : Image}
      (found : machine.tree.find place path = .ok (file, .file content access))
      (allowed : access.executable = true) (headed : interpreter? content = some (name, argument))
      (handed : Loads machine place (Text.lossy name)
        ((argument.map Text.lossy).toList ++ path :: args) inner image) :
    Loads machine place path args file image

/-- The path under which a child in the directory `place` comes to its program. -/
inductive Sought (machine : Machine) (program : String) : String → Prop where
  | itself (slash : '/' ∈ program.toList) : Sought machine program program
  | listed {directory : String} (plain : '/' ∉ program.toList)
      (member : directory ∈ machine.searchPath) :
    Sought machine program (Path.join directory program)

/-- A launch that succeeds: the sinks are opened on the machine `ready`, and there the program that is
sought for is loaded from `file` with the arguments of the plan, and run in the node's directory. -/
structure Launches (machine ready : Machine) (plan : LaunchPlan) (path : String) (file : Place)
    (image : Image) (fate : Fate) : Prop where
  base : ready.base = machine.base
  searchPath : ready.searchPath = machine.searchPath
  kept : Tree.Keeps machine.tree ready.tree
  directory : ready.tree.find machine.base plan.directory =
    .ok (Path.placeOf machine.base plan.directory, .directory)
  sought : Sought machine plan.program path
  loaded : Loads ready (Path.placeOf machine.base plan.directory) path plan.args file image
  run : ∃ output errors, fate = fateOf (ready.runImage
    { tree := ready.tree, place := Path.placeOf machine.base plan.directory, script := image.name,
      args := image.args, pid := ready.nextPid, output := output, errors := errors } image patience)

variable {machine ready : Machine} {place file : Place} {path program : String}
variable {args : List String} {image : Image}

theorem Loads.place_of (loaded : Loads machine place path args file image) :
    file = Path.placeOf place path := by
  cases loaded with
  | known found => exact (Tree.find_place found).1
  | script found => exact (Tree.find_place found).1

theorem load_loads {depth : Nat} (loaded : machine.load place path args depth = .ok image) :
    ∃ file, Loads machine place path args file image := by
  induction depth generalizing path args with
  | zero => cases loaded
  | succ depth ih =>
      unfold load at loaded
      split at loaded
      · cases loaded
      · cases loaded
      · cases loaded
      · rename_i file content access found
        split at loaded
        · cases loaded
        · rename_i allowed
          have allowed : access.executable = true := by simpa using allowed
          split at loaded
          · rename_i listed
            cases loaded
            exact ⟨file, .known found allowed listed⟩
          · split at loaded
            · cases loaded
            · rename_i headed
              obtain ⟨inner, handed⟩ := ih loaded
              exact ⟨file, .script found allowed headed handed⟩

theorem search_loads {directories : List String} {otherwise : OsError}
    (found : machine.search place program args directories otherwise = .ok image) :
    ∃ directory ∈ directories, ∃ file,
      Loads machine place (Path.join directory program) args file image := by
  induction directories generalizing otherwise with
  | nil => cases found
  | cons directory rest ih =>
      unfold search at found
      have later : ∀ {reason}, machine.search place program args rest reason = .ok image →
          ∃ other ∈ directory :: rest, ∃ file,
            Loads machine place (Path.join other program) args file image := by
        intro reason further
        obtain ⟨other, member, loads⟩ := ih further
        exact ⟨other, List.mem_cons_of_mem directory member, loads⟩
      split at found
      · rename_i loaded
        cases found
        exact ⟨directory, List.mem_cons_self, load_loads loaded⟩
      · exact later found
      · exact later found
      · exact later found
      · cases found

theorem program_for_loads (found : machine.programFor place program args = .ok image) :
    ∃ path file, Sought machine program path ∧ Loads machine place path args file image := by
  unfold programFor at found
  split at found
  · rename_i slash
    obtain ⟨file, loads⟩ := load_loads found
    exact ⟨program, file, .itself (by simpa using slash), loads⟩
  · rename_i plain
    obtain ⟨directory, member, file, loads⟩ := search_loads found
    exact ⟨_, file, .listed (by simpa using plain) member, loads⟩

theorem open_sink_ok {sink : OutputSink} {output : Shell.Channel} {opened : Machine}
    (done : machine.openSink sink = .ok (output, opened)) :
    opened.base = machine.base ∧ opened.searchPath = machine.searchPath ∧
      Tree.Keeps machine.tree opened.tree := by
  cases sink with
  | inherit =>
      cases done
      exact ⟨rfl, rfl, .refl _⟩
  | null =>
      cases done
      exact ⟨rfl, rfl, .refl _⟩
  | file path =>
      unfold openSink at done
      dsimp only at done
      split at done
      · cases done
      · rename_i place tree changed
        cases done
        obtain ⟨old, access, -, free, whole⟩ := Tree.change_ok changed
        refine ⟨rfl, rfl, ?_⟩
        rw [whole]
        exact Tree.put_keeps free _

theorem execute_ok {plan : LaunchPlan} {output errors : Shell.Channel} {fate : Fate}
    {after : Machine} (executed : machine.execute plan output errors = .ok (fate, after)) :
    ∃ place image,
      machine.tree.find machine.base plan.directory = .ok (place, .directory) ∧
      machine.programFor place plan.program plan.args = .ok image ∧
      fate = fateOf (machine.runImage
        { tree := machine.tree, place := place, script := image.name, args := image.args,
          pid := machine.nextPid, output := output, errors := errors } image patience) := by
  unfold execute at executed
  split at executed
  · cases executed
  · split at executed
    · cases executed
    · cases executed
    · rename_i place there
      split at executed
      · cases executed
      · rename_i image found
        cases executed
        exact ⟨place, image, there, found, rfl⟩

theorem launch_ok {plan : LaunchPlan} {pid : Nat} {fate : Fate} {after : Machine}
    (launched : machine.launch plan = (.ok (pid, fate), after)) :
    ∃ ready path file image, Launches machine ready plan path file image fate := by
  unfold launch at launched
  split at launched
  · cases launched
  · rename_i output opened first
    split at launched
    · cases launched
    · rename_i errors ready second
      split at launched
      · cases launched
      · rename_i executed
        cases launched
        obtain ⟨base, searchPath, kept⟩ := open_sink_ok first
        obtain ⟨sameBase, sameSearch, keptOn⟩ := open_sink_ok second
        obtain ⟨place, image, there, found, ran⟩ := execute_ok executed
        obtain ⟨path, file, sought, loaded⟩ := program_for_loads found
        rw [sameBase, base] at there
        obtain rfl := (Tree.find_place there).1
        refine ⟨ready, path, file, image, sameBase.trans base, sameSearch.trans searchPath,
          kept.trans keptOn, there, ?_, loaded, output, errors, ran⟩
        cases sought with
        | itself slash => exact .itself slash
        | listed plain member =>
            rw [sameSearch, searchPath] at member
            exact .listed plain member

end LocalNet.Machine
