import LocalNet.Proofs.Process.Admission
import LocalNet.Proofs.Process.Execution

/-!
# What a staging leaves

The files of a node are written to places that differ by the names that follow the node's directory,
so no later step of a staging touches what an earlier one wrote, and what stood there before is gone.
The flags name those very files.
-/

namespace LocalNet

open Files

namespace StagingStep

def path : StagingStep → String
  | .directory _ path => path
  | .file _ path _ => path

def written? (base : Place) : StagingStep → Option Place
  | .directory _ _ => none
  | .file _ path _ => some (Path.placeOf base path)

def Stands (tree : Tree) (base : Place) : StagingStep → Prop
  | .directory _ path => tree.find base path = .ok (Path.placeOf base path, .directory)
  | .file _ path content => tree.Holds base path content

variable {step : StagingStep} {tree before after : Tree} {base : Place}

theorem perform_ok (named : step.path ≠ "") (performed : step.perform tree base = (.ok (), after)) :
    step.Stands after base ∧ Tree.Keeps tree after ∧
      ∀ place entry, step.written? base ≠ some place → tree.entry? place = some entry →
        after.entry? place = some entry := by
  cases step with
  | directory context path =>
      obtain ⟨extended, stands⟩ := Tree.make_directories_ok named performed
      exact ⟨stands, extended.keeps, fun place entry _ there => extended place entry there⟩
  | file context path content =>
      obtain ⟨place, access, resolved, free, rfl⟩ := Tree.write_ok performed
      have kept := Tree.put_keeps free (.file content access)
      have apart : place ≠ [] := fun top => free (by simp [top, Tree.entry?])
      obtain rfl := Tree.resolve_place resolved
      refine ⟨⟨access, ?_⟩, kept, ?_⟩
      · simp only [Tree.find, Tree.resolve_kept kept resolved, Tree.entry_put apart, if_pos]
      · intro other entry spared there
        have differs : other ≠ Path.placeOf base path := fun same => spared (same ▸ rfl)
        rw [Tree.entry_put apart, if_neg differs]
        exact there

theorem Stands.kept (stands : step.Stands before base) (kept : Tree.Keeps before after)
    (spared : ∀ place entry, step.written? base = some place → before.entry? place = some entry →
      after.entry? place = some entry) : step.Stands after base := by
  cases step with
  | directory context path =>
      obtain ⟨-, there⟩ := Tree.find_place stands
      exact Tree.find_kept kept stands (kept _ there)
  | file context path content =>
      obtain ⟨access, found⟩ := stands
      obtain ⟨-, there⟩ := Tree.find_place found
      exact ⟨access, Tree.find_kept kept found (spared _ _ rfl there)⟩

end StagingStep

theorem has_staking_iff (config : NodeConfig) :
    config.hasStakingMaterial = true ↔ config.stakingCert ≠ [] ∧ config.stakingKey ≠ [] := by
  simp [NodeConfig.hasStakingMaterial]

namespace Staging

variable {tree staged : Tree} {base : Place} {steps : List StagingStep}

theorem perform_spares (named : ∀ step ∈ steps, step.path ≠ "")
    (performed : perform tree base steps = (.ok (), staged)) :
    Tree.Keeps tree staged ∧
      ∀ place entry, (∀ step ∈ steps, step.written? base ≠ some place) →
        tree.entry? place = some entry → staged.entry? place = some entry := by
  induction steps generalizing tree with
  | nil =>
      cases performed
      exact ⟨.refl _, fun _ _ _ there => there⟩
  | cons step rest ih =>
      unfold perform at performed
      split at performed
      · cases performed
      · rename_i next done
        obtain ⟨-, kept, spared⟩ := StagingStep.perform_ok (named step List.mem_cons_self) done
        obtain ⟨keptOn, sparedOn⟩ :=
          ih (fun step member => named step (List.mem_cons_of_mem _ member)) performed
        refine ⟨kept.trans keptOn, fun place entry elsewhere there => ?_⟩
        exact sparedOn place entry (fun step member => elsewhere step (List.mem_cons_of_mem _ member))
          (spared place entry (elsewhere step List.mem_cons_self) there)

/-- If no two steps write to one place, everything that the steps are to make is there in the end. -/
theorem perform_stands (named : ∀ step ∈ steps, step.path ≠ "")
    (apart : steps.Pairwise fun first second =>
      ∀ place, first.written? base = some place → second.written? base ≠ some place)
    (performed : perform tree base steps = (.ok (), staged)) :
    ∀ step ∈ steps, step.Stands staged base := by
  induction steps generalizing tree with
  | nil => exact fun _ member => absurd member List.not_mem_nil
  | cons step rest ih =>
      obtain ⟨first, others⟩ := List.pairwise_cons.mp apart
      have namedRest := fun step member => named step (List.mem_cons_of_mem _ member)
      unfold perform at performed
      split at performed
      · cases performed
      · rename_i next done
        obtain ⟨stands, -, -⟩ := StagingStep.perform_ok (named step List.mem_cons_self) done
        obtain ⟨kept, spared⟩ := perform_spares namedRest performed
        intro asked member
        rcases List.mem_cons.mp member with rfl | later
        · exact stands.kept kept fun place entry written there =>
            spared place entry (fun other member => first other member place written) there
        · exact ih namedRest others performed asked later

variable {config : NodeConfig} {directory : String}

theorem steps_named (named : directory ≠ "") :
    ∀ step ∈ Staging.steps config directory, step.path ≠ "" := by
  unfold Staging.steps
  split <;> split <;>
    simp (disch := decide) [StagingStep.path, named, configPath, genesisPath, cChainPath, certPath,
      keyPath, Path.join_ne_blank]

theorem steps_apart (config : NodeConfig) (directory : String) (base : Place) :
    (Staging.steps config directory).Pairwise fun first second =>
      ∀ place, first.written? base = some place → second.written? base ≠ some place := by
  unfold Staging.steps
  split <;> split <;>
    simp (disch := decide) [StagingStep.written?, configPath, genesisPath, chainConfigsPath,
      cChainPath, certPath, keyPath, Path.place_of_join]

/-- Each part of the config that is there is held by a file of its own. -/
theorem holds_of_stands (stands : ∀ step ∈ Staging.steps config directory, step.Stands tree base) :
    tree.Holds base (configPath directory) config.configFile ∧
      tree.Holds base (genesisPath directory) config.genesisFile ∧
      (config.cChainConfigFile ≠ [] →
        tree.find base (cChainPath directory) =
            .ok (Path.placeOf base (cChainPath directory), .directory) ∧
        tree.Holds base (Path.join (cChainPath directory) "config.json") config.cChainConfigFile) ∧
      (config.stakingCert ≠ [] ∧ config.stakingKey ≠ [] →
        tree.Holds base (certPath directory) config.stakingCert ∧
        tree.Holds base (keyPath directory) config.stakingKey) := by
  simp only [Staging.steps, List.forall_mem_append, List.forall_mem_cons] at stands
  obtain ⟨⟨⟨-, general, genesis, -⟩, chain⟩, staking⟩ := stands
  refine ⟨general, genesis, fun given => ?_, fun both => ?_⟩
  · simp only [List.isEmpty_iff, if_neg given, List.forall_mem_cons] at chain
    exact ⟨chain.1, chain.2.1⟩
  · simp only [if_pos ((has_staking_iff config).mpr both), List.forall_mem_cons] at staking
    exact ⟨staking.1, staking.2.1⟩

end Staging

theorem plain_of_valid {name : String} (named : name ≠ "") (valid : isValidNodeName name = true) :
    Path.Plain name := by
  simp only [isValidNodeName, named, decide_false, Bool.false_or, Bool.and_eq_true,
    Bool.not_eq_true', List.contains_eq_mem, decide_eq_false_iff_not, decide_eq_true_eq] at valid
  obtain ⟨⟨⟨unsplit, -⟩, notHere⟩, notUp⟩ := valid
  exact ⟨named, notHere, notUp, unsplit⟩

namespace Launcher

variable {launcher : Launcher} {tree staged : Tree} {config : NodeConfig} {args : List String}
variable {plan : LaunchPlan}

/-- Settings that can be used are those that the config holds, and its name leads one step down. -/
theorem settings_ok {found : LaunchConfig} (usable : settings config = .ok found) :
    Path.Plain config.name ∧
      ∃ value, config.implConfig = some value ∧ LaunchConfig.ofValue value = .ok found := by
  unfold settings at usable
  split at usable
  · cases usable
  · rename_i accepted
    simp only [Bool.or_eq_true, decide_eq_true_eq, Bool.not_eq_true', not_or, Bool.not_eq_false]
      at accepted
    refine ⟨plain_of_valid accepted.1 accepted.2, ?_⟩
    split at usable
    · cases usable
    · rename_i value given
      split at usable
      · cases usable
      · rename_i read
        cases usable
        exact ⟨value, given, read⟩

theorem spawn_ok (spawned : launcher.spawn tree config args = (.ok plan, staged)) :
    ∃ value found, config.implConfig = some value ∧ LaunchConfig.ofValue value = .ok found ∧
      Path.Plain config.name ∧ tree.pathExists launcher.base found.binaryPath = true ∧
      Staging.perform tree launcher.base
        (Staging.steps config (launcher.directoryOf config.name)) = (.ok (), staged) ∧
      plan = launcher.plan config found args := by
  cases usable : settings config with
  | error reason => simp [spawn, usable] at spawned
  | ok found =>
      have course := spawn_course launcher tree args usable
      rw [spawned] at course
      cases course with
      | staged there performed =>
          obtain ⟨plain, value, given, read⟩ := settings_ok usable
          exact ⟨value, found, given, read, plain, there, performed, rfl⟩

theorem spawn_stands (spawned : launcher.spawn tree config args = (.ok plan, staged)) :
    ∀ step ∈ Staging.steps config (launcher.directoryOf config.name),
      step.Stands staged launcher.base := by
  obtain ⟨value, found, -, -, plain, -, performed, -⟩ := spawn_ok spawned
  exact Staging.perform_stands (Staging.steps_named (Path.join_ne_blank plain launcher.root))
    (Staging.steps_apart config _ launcher.base) performed

/-- The flags of the parts that are there come first, then the arguments of the config. -/
theorem plan_args (launcher : Launcher) (config : NodeConfig) (found : LaunchConfig)
    (args : List String) :
    let directory := Path.join launcher.root config.name
    (launcher.plan config found args).args =
      ["--config-file=" ++ Path.join directory "config.json",
        "--genesis=" ++ Path.join directory "genesis.json"] ++
      (if config.cChainConfigFile ≠ [] then
        ["--chain-config-dir=" ++ Path.join directory "chainConfigs"]
      else []) ++
      (if config.stakingCert ≠ [] ∧ config.stakingKey ≠ [] then
        ["--staking-tls-cert-file=" ++ Path.join directory "staking.crt",
          "--staking-tls-key-file=" ++ Path.join directory "staking.key"]
      else []) ++ found.extraArgs ++ args := by
  simp only [plan, Staging.flags, List.isEmpty_iff, has_staking_iff, ne_eq, ite_not]
  rfl

end Launcher

open Launcher in
/-- Whatever files and directories stood in the node's directory before, a spawn that succeeds leaves the
parts of the config in the files that the flags name, and the flags are those of the parts that are
there. A child that is launched from the plan is handed the flags, then the arguments of the config, then
those of the caller. Nothing is said of leftovers that are symbolic or hard links: a tree has none, and
one of the files written through such a link could be another one. -/
theorem staging_matches_command_line {launcher : Launcher} {tree staged : Tree} {config : NodeConfig}
    {args : List String} {plan : LaunchPlan}
    (spawned : launcher.spawn tree config args = (.ok plan, staged)) :
    ∃ value found, config.implConfig = some value ∧ LaunchConfig.ofValue value = .ok found ∧
      let directory := Path.join launcher.root config.name
      let chainConfigs := Path.join directory "chainConfigs"
      plan.args =
        ["--config-file=" ++ Path.join directory "config.json",
          "--genesis=" ++ Path.join directory "genesis.json"] ++
        (if config.cChainConfigFile ≠ [] then ["--chain-config-dir=" ++ chainConfigs] else []) ++
        (if config.stakingCert ≠ [] ∧ config.stakingKey ≠ [] then
          ["--staking-tls-cert-file=" ++ Path.join directory "staking.crt",
            "--staking-tls-key-file=" ++ Path.join directory "staking.key"]
        else []) ++ found.extraArgs ++ args ∧
      staged.Holds launcher.base (Path.join directory "config.json") config.configFile ∧
      staged.Holds launcher.base (Path.join directory "genesis.json") config.genesisFile ∧
      (config.cChainConfigFile ≠ [] →
        staged.Holds launcher.base (Path.join (Path.join chainConfigs "C") "config.json")
          config.cChainConfigFile) ∧
      (config.stakingCert ≠ [] ∧ config.stakingKey ≠ [] →
        staged.Holds launcher.base (Path.join directory "staking.crt") config.stakingCert ∧
        staged.Holds launcher.base (Path.join directory "staking.key") config.stakingKey) ∧
      ∀ machine pid fate after, machine.launch plan = (.ok (pid, fate), after) →
        ∃ ready path file image, Machine.Launches machine ready plan path file image fate := by
  obtain ⟨value, found, given, read, -, -, -, rfl⟩ := spawn_ok spawned
  obtain ⟨general, genesis, chain, staking⟩ := Staging.holds_of_stands (spawn_stands spawned)
  refine ⟨value, found, given, read, ?_, general, genesis, fun given => (chain given).2, staking,
    fun machine pid fate after launched => Machine.launch_ok launched⟩
  exact plan_args launcher config found args

def wholeNode : NodeConfig where
  name := "n1"
  genesisFile := [2]
  configFile := [1]
  cChainConfigFile := [3]
  stakingCert := [4]
  stakingKey := [5]
  implConfig := some (.object [("binary_path", .text "/bin/node"),
    ("extra_args", .array [.text "--first"])])

/-- An earlier node of the same name has left longer files. -/
def usedTree : Files.Tree where
  entries := [(["bin"], .directory), (["bin", "node"], .file [] {}), (["net"], .directory),
    (["net", "n1"], .directory), (["net", "n1", "config.json"], .file [9, 9, 9] {}),
    (["net", "n1", "staking.key"], .file [8, 8] {})]

theorem leftovers_are_replaced :
    let directory := launcherBelowNet.directoryOf "n1"
    ∃ plan staged, launcherBelowNet.spawn usedTree wholeNode ["--second"] = (.ok plan, staged) ∧
      plan.args = ["--config-file=/net/n1/config.json", "--genesis=/net/n1/genesis.json",
        "--chain-config-dir=/net/n1/chainConfigs", "--staking-tls-cert-file=/net/n1/staking.crt",
        "--staking-tls-key-file=/net/n1/staking.key", "--first", "--second"] ∧
      usedTree.Holds [] (Path.join directory "config.json") [9, 9, 9] ∧
      staged.Holds [] (Path.join directory "config.json") [1] ∧
      staged.Holds [] (Path.join directory "staking.key") [5] := by
  have accepted : (launcherBelowNet.spawn usedTree wholeNode ["--second"]).1.map (·.args) =
      .ok ["--config-file=/net/n1/config.json", "--genesis=/net/n1/genesis.json",
        "--chain-config-dir=/net/n1/chainConfigs", "--staking-tls-cert-file=/net/n1/staking.crt",
        "--staking-tls-key-file=/net/n1/staking.key", "--first", "--second"] := by
    decide +kernel
  generalize spawned : launcherBelowNet.spawn usedTree wholeNode ["--second"] = result at accepted
  obtain ⟨answer, staged⟩ := result
  cases answer with
  | error reason => cases accepted
  | ok plan =>
      obtain ⟨value, found, -, -, -, general, -, -, staking, -⟩ :=
        staging_matches_command_line spawned
      exact ⟨plan, staged, rfl, Except.ok.inj accepted, ⟨{}, by decide +kernel⟩, general,
        (staking (by decide)).2⟩

end LocalNet
