import LocalNet.Proofs.Process.Staged

/-!
# Two viewpoints

The launcher checks the binary and stages the files as they are seen from its own directory. The child
runs in the node's directory, and there it looks for its program and for the files that its flags name.
An absolute path leads to one place from both; a relative one, as a rule, does not.
-/

namespace LocalNet

open Files

namespace Staging

/-- The flags of a config, with the paths that they give. -/
def flagged (config : NodeConfig) (directory : String) : List (String × String) :=
  [("--config-file", configPath directory), ("--genesis", genesisPath directory)] ++
  (if config.cChainConfigFile.isEmpty then []
  else [("--chain-config-dir", chainConfigsPath directory)]) ++
  (if config.hasStakingMaterial then
    [("--staking-tls-cert-file", certPath directory), ("--staking-tls-key-file", keyPath directory)]
  else [])

variable {config : NodeConfig} {directory flag path : String} {tree : Tree} {base : Place}

theorem flags_of_flagged (config : NodeConfig) (directory : String) :
    flags config directory =
      (flagged config directory).map fun (flag, path) => flag ++ "=" ++ path := by
  unfold flags flagged
  split <;> split <;> simp

theorem flagged_cases (member : (flag, path) ∈ flagged config directory) :
    path = configPath directory ∨ path = genesisPath directory ∨
      config.cChainConfigFile ≠ [] ∧ path = chainConfigsPath directory ∨
      (config.stakingCert ≠ [] ∧ config.stakingKey ≠ []) ∧
        (path = certPath directory ∨ path = keyPath directory) := by
  simp only [flagged, List.mem_append, List.mem_cons, List.not_mem_nil, or_false,
    Prod.mk.injEq] at member
  rcases member with ((⟨-, general⟩ | ⟨-, genesis⟩) | chain) | staking
  · exact .inl general
  · exact .inr (.inl genesis)
  · split at chain
    · cases chain
    · rename_i given
      simp only [List.mem_singleton, Prod.mk.injEq] at chain
      exact .inr (.inr (.inl ⟨by simpa using given, chain.2⟩))
  · split at staking
    · rename_i both
      simp only [List.mem_cons, List.not_mem_nil, or_false, Prod.mk.injEq] at staking
      exact .inr (.inr (.inr ⟨(has_staking_iff config).mp both, staking.imp And.right And.right⟩))
    · cases staking

theorem flagged_below (member : (flag, path) ∈ flagged config directory) :
    ∃ name, Path.Plain name ∧ path = Path.join directory name := by
  rcases flagged_cases member with general | genesis | ⟨-, chain⟩ | ⟨-, cert | key⟩
  · exact ⟨"config.json", by decide, general⟩
  · exact ⟨"genesis.json", by decide, genesis⟩
  · exact ⟨"chainConfigs", by decide, chain⟩
  · exact ⟨"staking.crt", by decide, cert⟩
  · exact ⟨"staking.key", by decide, key⟩

theorem flagged_stands (stands : ∀ step ∈ Staging.steps config directory, step.Stands tree base)
    (member : (flag, path) ∈ flagged config directory) :
    ∃ entry, tree.find base path = .ok (Path.placeOf base path, entry) := by
  obtain ⟨⟨_, general⟩, ⟨_, genesis⟩, chain, staking⟩ := holds_of_stands stands
  rcases flagged_cases member with rfl | rfl | ⟨given, rfl⟩ | ⟨both, rfl | rfl⟩
  · exact ⟨_, general⟩
  · exact ⟨_, genesis⟩
  · have named : chainConfigsPath directory ≠ "" := Path.join_ne_blank (by decide) directory
    exact ⟨_, Tree.find_above (by decide) named (chain given).1⟩
  · obtain ⟨⟨_, cert⟩, -⟩ := staking both
    exact ⟨_, cert⟩
  · obtain ⟨-, _, key⟩ := staking both
    exact ⟨_, key⟩

end Staging

/-- A program with a slash is what its path leads to from the node's directory, one without is some
directory's of the search path. -/
theorem Machine.Launches.executes {machine ready : Machine} {plan : LaunchPlan} {path : String}
    {file : Place} {image : Image} {fate : Fate}
    (launches : Machine.Launches machine ready plan path file image fate) :
    let node := Path.placeOf machine.base plan.directory
    ((Path.ofText plan.program).absolute = true →
        file = Path.placeOf machine.base plan.program) ∧
      ('/' ∈ plan.program.toList → file = Path.placeOf node plan.program) ∧
      ('/' ∉ plan.program.toList → ∃ directory ∈ machine.searchPath,
        file = Path.placeOf node (Path.join directory plan.program)) := by
  have stands := launches.loaded.place_of
  cases launches.sought with
  | itself slash =>
      refine ⟨fun absolute => ?_, fun _ => stands, fun none => absurd slash none⟩
      exact stands.trans (Path.place_of_absolute absolute _ _)
  | listed none member =>
      exact ⟨fun absolute => absurd (Path.slash_of_absolute absolute) none,
        fun slash => absurd slash none, fun _ => ⟨_, member, stands⟩⟩

namespace Launcher

variable {launcher : Launcher} {tree staged : Tree} {config : NodeConfig} {args : List String}
variable {plan : LaunchPlan} {flag path : String}

theorem checked_program (spawned : launcher.spawn tree config args = (.ok plan, staged)) :
    ∃ entry, tree.find launcher.base plan.program =
      .ok (Path.placeOf launcher.base plan.program, entry) := by
  obtain ⟨value, found, -, -, -, there, -, rfl⟩ := spawn_ok spawned
  unfold Tree.pathExists at there
  cases seen : tree.find launcher.base found.binaryPath with
  | error reason => simp [seen, Except.isOk, Except.toBool] at there
  | ok pair =>
      obtain ⟨place, entry⟩ := pair
      obtain ⟨rfl, -⟩ := Tree.find_place seen
      exact ⟨entry, seen⟩

theorem flagged_made (spawned : launcher.spawn tree config args = (.ok plan, staged))
    (member : (flag, path) ∈ Staging.flagged config plan.directory) :
    flag ++ "=" ++ path ∈ plan.args ∧
      ∃ entry, staged.find launcher.base path =
        .ok (Path.placeOf launcher.base path, entry) := by
  have stands := spawn_stands spawned
  obtain ⟨value, found, -, -, -, -, -, rfl⟩ := spawn_ok spawned
  refine ⟨?_, Staging.flagged_stands stands member⟩
  have given : flag ++ "=" ++ path ∈ Staging.flags config (launcher.directoryOf config.name) := by
    rw [Staging.flags_of_flagged]
    exact List.mem_map.mpr ⟨(flag, path), member, rfl⟩
  simp only [plan, List.mem_append]
  exact .inl (.inl given)

/-- The path of a flag leads to one place from two directories if the root does. -/
theorem flagged_places (spawned : launcher.spawn tree config args = (.ok plan, staged))
    (member : (flag, path) ∈ Staging.flagged config plan.directory) (first second : Place) :
    ((Path.ofText launcher.root).absolute = true → staged.find first path = staged.find second path) ∧
      (Path.placeOf first path = Path.placeOf second path ↔
        Path.placeOf first launcher.root = Path.placeOf second launcher.root) := by
  obtain ⟨value, found, -, -, plain, -, -, rfl⟩ := spawn_ok spawned
  obtain ⟨name, plainName, rfl⟩ := Staging.flagged_below member
  have below : (launcher.plan config found args).directory =
      Path.join launcher.root config.name := rfl
  rw [below]
  constructor
  · intro absolute
    apply Tree.find_absolute
    rw [Path.of_text_join plainName, Path.of_text_join plain]
    exact absolute
  · have places (base : Place) :
        Path.placeOf base (Path.join (Path.join launcher.root config.name) name) =
          Path.placeOf base launcher.root ++ [config.name] ++ [name] := by
      rw [Path.place_of_join plainName, Path.place_of_join plain]
    rw [places, places, List.append_left_inj, List.append_left_inj]

end Launcher

open Launcher in
/-- Spawn checks and writes what it sees from the launcher's directory, and a child that is launched
sees from the node's directory: a program with a slash is the file that its path leads to from there,
one without is some directory's of the search path, and each flag names what its path leads to from
there. So an absolute program is the file that was checked, and under an absolute root, or one that
leads to one place from both directories, the flags name what was written. -/
theorem child_sees_from_its_directory {launcher : Launcher} {tree staged : Tree} {config : NodeConfig}
    {args : List String} {plan : LaunchPlan}
    (spawned : launcher.spawn tree config args = (.ok plan, staged)) :
    let node := Path.placeOf launcher.base plan.directory
    let checked := Path.placeOf launcher.base plan.program
    (∃ entry, tree.find launcher.base plan.program = .ok (checked, entry)) ∧
      (∀ machine pid fate after, machine.base = launcher.base →
        machine.launch plan = (.ok (pid, fate), after) →
        ∃ ready path file image, Machine.Launches machine ready plan path file image fate ∧
          ((Path.ofText plan.program).absolute = true → file = checked) ∧
          ('/' ∈ plan.program.toList → file = Path.placeOf node plan.program) ∧
          ('/' ∉ plan.program.toList → ∃ directory ∈ machine.searchPath,
            file = Path.placeOf node (Path.join directory plan.program))) ∧
      ∀ flag path, (flag, path) ∈ Staging.flagged config plan.directory →
        flag ++ "=" ++ path ∈ plan.args ∧
        (∃ entry, staged.find launcher.base path =
          .ok (Path.placeOf launcher.base path, entry)) ∧
        ((Path.ofText launcher.root).absolute = true →
          staged.find node path = staged.find launcher.base path) ∧
        (Path.placeOf node path = Path.placeOf launcher.base path ↔
          Path.placeOf node launcher.root = Path.placeOf launcher.base launcher.root) := by
  intro node checked
  refine ⟨checked_program spawned, ?_, ?_⟩
  · intro machine pid fate after sameBase launched
    obtain ⟨ready, path, file, image, launches⟩ := Machine.launch_ok launched
    have executes := launches.executes
    rw [sameBase] at executes
    exact ⟨ready, path, file, image, launches, executes⟩
  · intro flag path member
    obtain ⟨handed, made⟩ := flagged_made spawned member
    obtain ⟨same, places⟩ := flagged_places spawned member node launcher.base
    exact ⟨handed, made, same, places⟩

def launcherBelowSrv : Launcher where
  root := "/srv/net"
  base := ["work"]

/-- A node whose program and standard output are given by these paths. -/
def nodeRunning (name program output : String) : NodeConfig where
  name := name
  genesisFile := [1]
  configFile := [1]
  implConfig := some (.object [("binary_path", .text program),
    ("stdout", .object [("file", .text output)])])

def planRunning (name program output : String) : LaunchPlan :=
  launcherBelowSrv.plan (nodeRunning name program output)
    { binaryPath := program, stdout := .file output } []

/-- A machine with one program, which succeeds whatever it is given. -/
def machineWithTrue : Machine where
  tree := { entries := [(["work"], .directory), (["srv"], .directory), (["usr"], .directory),
    (["usr", "bin"], .directory),
    (["usr", "bin", "true"], .file [0x7F] { executable := true })] }
  base := ["work"]
  natives := [(["usr", "bin", "true"], .constant 0)]

theorem absolute_program_is_checked_file :
    ∃ plan staged,
      launcherBelowSrv.spawn machineWithTrue.tree (nodeRunning "n1" "/usr/bin/true" "log") [] =
        (.ok plan, staged) ∧
      ({ machineWithTrue with tree := staged }.launch plan).1 = .ok (100, .ends (.code 0)) ∧
      ∃ ready path image,
        Machine.Launches { machineWithTrue with tree := staged } ready plan path
          ["usr", "bin", "true"] image (.ends (.code 0)) := by
  have ran :
      (launcherBelowSrv.spawn machineWithTrue.tree (nodeRunning "n1" "/usr/bin/true" "log") []).1 =
        .ok (planRunning "n1" "/usr/bin/true" "log") ∧
      ({ machineWithTrue with
        tree := (launcherBelowSrv.spawn machineWithTrue.tree
          (nodeRunning "n1" "/usr/bin/true" "log") []).2 }.launch
            (planRunning "n1" "/usr/bin/true" "log")).1 = .ok (100, .ends (.code 0)) ∧
      (planRunning "n1" "/usr/bin/true" "log").program = "/usr/bin/true" := by
    decide +kernel
  generalize spawned : launcherBelowSrv.spawn machineWithTrue.tree
    (nodeRunning "n1" "/usr/bin/true" "log") [] = result at ran
  obtain ⟨answer, staged⟩ := result
  generalize planRunning "n1" "/usr/bin/true" "log" = plan at ran
  obtain ⟨rfl, launched, program⟩ := ran
  obtain ⟨-, runs, -⟩ := child_sees_from_its_directory spawned
  generalize done : { machineWithTrue with tree := staged }.launch plan = reply at launched
  obtain ⟨fate, after⟩ := reply
  obtain rfl : fate = .ok (100, .ends (.code 0)) := launched
  obtain ⟨ready, path, file, image, launches, checked, -⟩ := runs _ _ _ _ rfl done
  rw [program] at checked
  have same : file = ["usr", "bin", "true"] :=
    (checked (by decide +kernel)).trans (by decide +kernel)
  exact ⟨plan, staged, rfl, by rw [done], ready, path, image, same ▸ launches⟩

/-- The launcher's directory is none of those that are searched. -/
theorem searched_elsewhere {machine ready : Machine} {path : String} {file : Place}
    {image : Machine.Image} {fate : Fate} (base : machine.base = ["work"])
    (searchPath : machine.searchPath = machineWithTrue.searchPath)
    (launches : Machine.Launches machine ready (planRunning "n2" "true" "log") path file image fate) :
    file ≠ ["work", "true"] := by
  obtain ⟨-, -, searched⟩ := launches.executes
  obtain ⟨directory, listed, found⟩ := searched (by decide +kernel)
  rw [searchPath] at listed
  rw [base] at found
  have elsewhere : ∀ directory ∈ machineWithTrue.searchPath,
      Path.placeOf (Path.placeOf ["work"] (planRunning "n2" "true" "log").directory)
        (Path.join directory (planRunning "n2" "true" "log").program) ≠ ["work", "true"] := by
    decide +kernel
  exact found ▸ elsewhere directory listed

/-- The machine once a node was started whose standard output is the file `true`, as the launcher sees
it. -/
def machineWithOutput : Machine :=
  let staged := launcherBelowSrv.spawn machineWithTrue.tree (nodeRunning "n1" "/usr/bin/true" "true") []
  ({ machineWithTrue with tree := staged.2 }.launch (planRunning "n1" "/usr/bin/true" "true")).2

/-- The file that one node has written to has the name of a program. Another node is accepted with that
name for its program, since the file is there; but what is executed is a program of the search path. -/
theorem searched_program_is_not_checked_file :
    ∃ plan staged,
      launcherBelowSrv.spawn machineWithOutput.tree (nodeRunning "n2" "true" "log") [] =
        (.ok plan, staged) ∧
      machineWithOutput.tree.find launcherBelowSrv.base plan.program =
        .ok (["work", "true"], .file [] {}) ∧
      ({ machineWithOutput with tree := staged }.launch plan).1 = .ok (101, .ends (.code 0)) ∧
      ∀ ready path file image fate,
        Machine.Launches { machineWithOutput with tree := staged } ready plan path file image fate →
          file ≠ ["work", "true"] := by
  have ran :
      (launcherBelowSrv.spawn machineWithOutput.tree (nodeRunning "n2" "true" "log") []).1 =
        .ok (planRunning "n2" "true" "log") ∧
      machineWithOutput.tree.find launcherBelowSrv.base (planRunning "n2" "true" "log").program =
        .ok (["work", "true"], .file [] {}) ∧
      ({ machineWithOutput with
        tree := (launcherBelowSrv.spawn machineWithOutput.tree
          (nodeRunning "n2" "true" "log") []).2 }.launch (planRunning "n2" "true" "log")).1 =
        .ok (101, .ends (.code 0)) ∧
      machineWithOutput.base = ["work"] ∧
      machineWithOutput.searchPath = machineWithTrue.searchPath := by
    decide +kernel
  generalize machineWithOutput = machine at ran ⊢
  generalize spawned : launcherBelowSrv.spawn machine.tree (nodeRunning "n2" "true" "log") [] = result
    at ran
  obtain ⟨answer, staged⟩ := result
  obtain ⟨rfl, checked, launched, base, searchPath⟩ := ran
  exact ⟨_, staged, rfl, checked, launched, fun _ _ _ _ _ => searched_elsewhere base searchPath⟩

end LocalNet
