import LocalNet.Process.Launcher
import LocalNet.Proofs.Validation.Judgement

/-!
# What validation accepts, the launcher can use

A config passes two gates: it is validated, and later the launcher looks at it again. The launcher finds
no fault with what validation has returned. It may miss the binary, or a step of the staging may fail,
and nothing else goes wrong. The other way round, a named config that the launcher can use is not
turned down by validation for its name or its settings.
-/

namespace LocalNet

open Files

/-- What validation has returned, for a whole network or for one added node. -/
inductive Validated : NodeConfig → Prop where
  | ofNetwork {given accepted : NetworkConfig} {existing : List String}
      {names later : NameAllocator} {config : NodeConfig}
      (judged : validateNetwork given existing names = (.ok accepted, later))
      (listed : config ∈ accepted.nodes) : Validated config
  | ofAdded {given config : NodeConfig} {existing : List String} {names later : NameAllocator}
      (judged : validateAddedNode given existing names = (.ok config, later)) : Validated config

/-- Validation finds fault with something that the launcher looks at as well. -/
def NodeConfigError.ConcernsLaunch : NodeConfigError → Prop
  | .invalidName _ => True
  | .missingImplConfig => True
  | .invalidImplConfig _ => True
  | _ => False

theorem validate_node_settings {config : NodeConfig} (accepted : validateNode config = .ok ()) :
    ∃ value found, config.implConfig = some value ∧ LaunchConfig.ofValue value = .ok found := by
  unfold validateNode at accepted
  split at accepted
  · cases accepted
  · split at accepted
    · cases accepted
    · rename_i value given
      split at accepted
      · cases accepted
      · rename_i found read
        exact ⟨value, found, given, read⟩

theorem Validated.source {config : NodeConfig} (validated : Validated config) :
    config.name ≠ "" ∧ isValidNodeName config.name = true ∧
      ∃ given, Resolves given config ∧ validateNode given = .ok () := by
  cases validated with
  | ofNetwork judged listed =>
      obtain ⟨batch, -⟩ := validate_network_ok judged
      have usable := (validate_batch_ok batch).2.2 config listed
      obtain ⟨accepted, sources⟩ := validate_batch_judged batch
      obtain ⟨given, member, resolves⟩ := sources config listed
      exact ⟨usable.named, usable.valid, given, resolves, accepted given member⟩
  | ofAdded judged =>
      obtain ⟨resolves, usable⟩ := validate_added_node_ok judged
      exact ⟨usable.named, usable.valid, _, resolves, validate_added_node_judged judged⟩

theorem staking_fault_not_launch {config : NodeConfig} {reason : NodeConfigError}
    (refused : validateStaking config = .error reason) : ¬reason.ConcernsLaunch := by
  unfold validateStaking at refused
  split at refused
  · cases refused
  · cases refused
    exact id
  · cases refused
    exact id
  · split at refused
    · cases refused
      exact id
    · cases refused

namespace Launcher

variable {launcher : Launcher} {tree : Tree} {config : NodeConfig} {found : LaunchConfig}
variable {args : List String}

theorem settings_of_validated (validated : Validated config) :
    ∃ value found, config.implConfig = some value ∧ LaunchConfig.ofValue value = .ok found ∧
      settings config = .ok found := by
  obtain ⟨named, valid, given, resolves, accepted⟩ := validated.source
  obtain ⟨value, found, present, read⟩ := validate_node_settings accepted
  have kept : config.implConfig = some value := by
    rw [resolves.1]
    exact present
  refine ⟨value, found, kept, read, ?_⟩
  simp [settings, named, valid, kept, read]

theorem settings_error {reason : ProcessError} (refused : settings config = .error reason) :
    ∃ text, reason = .invalidConfig text := by
  unfold settings at refused
  split at refused
  · cases refused
    exact ⟨_, rfl⟩
  · split at refused
    · cases refused
      exact ⟨_, rfl⟩
    · split at refused
      · cases refused
        exact ⟨_, rfl⟩
      · cases refused

/-- Settings are refused for what validation refuses as well, and for nothing else. -/
theorem settings_refused_iff (named : config.name ≠ "") :
    (∃ reason, settings config = .error reason) ↔
      ∃ reason, validateNode config = .error reason ∧ reason.ConcernsLaunch := by
  unfold settings validateNode
  cases valid : isValidNodeName config.name with
  | false => simp [NodeConfigError.ConcernsLaunch]
  | true =>
      cases config.implConfig with
      | none => simp [named, NodeConfigError.ConcernsLaunch]
      | some value =>
          cases read : LaunchConfig.ofValue value with
          | error mismatch => simp [named, read, NodeConfigError.ConcernsLaunch]
          | ok =>
              -- Both gates are passed: what is left to find fault with is no matter of the launch.
              constructor
              · rintro ⟨reason, refused⟩
                simp [named, read] at refused
              · rintro ⟨reason, refused, concerns⟩
                exfalso
                simp only [Bool.not_true, Bool.false_eq_true, if_false, read] at refused
                split at refused
                · cases refused
                  exact concerns
                · split at refused
                  · cases refused
                    exact concerns
                  · exact staking_fault_not_launch refused concerns

/-- A staging that fails has failed in one of its steps, after all those before it were performed. -/
theorem perform_failed {base : Place} {steps : List StagingStep} {reason : String} {left : Tree}
    (failed : Staging.perform tree base steps = (.error reason, left)) :
    ∃ before step after reached fault, steps = before ++ step :: after ∧
      Staging.perform tree base before = (.ok (), reached) ∧
      step.perform reached base = (.error fault, left) ∧
      reason = step.context ++ ": " ++ fault.message := by
  induction steps generalizing tree with
  | nil => cases failed
  | cons step rest ih =>
      unfold Staging.perform at failed
      split at failed
      · rename_i fault remains broken
        cases failed
        exact ⟨[], step, rest, tree, fault, rfl, rfl, broken, rfl⟩
      · rename_i next performed
        obtain ⟨before, broken, after, reached, fault, rfl, reaches, fails, told⟩ := ih failed
        refine ⟨step :: before, broken, after, reached, fault, rfl, ?_, fails, told⟩
        rw [Staging.perform, performed]
        exact reaches

inductive SpawnCourse (launcher : Launcher) (tree : Tree) (config : NodeConfig)
    (found : LaunchConfig) (args : List String) : Except ProcessError LaunchPlan × Tree → Prop where
  | missing (absent : tree.pathExists launcher.base found.binaryPath = false) :
    SpawnCourse launcher tree config found args (.error (.binaryNotFound found.binaryPath), tree)
  | unstaged {reason : String} {left : Tree}
      (there : tree.pathExists launcher.base found.binaryPath = true)
      (failed : Staging.perform tree launcher.base
        (Staging.steps config (launcher.directoryOf config.name)) = (.error reason, left)) :
    SpawnCourse launcher tree config found args (.error (.setup reason), left)
  | staged {staged : Tree} (there : tree.pathExists launcher.base found.binaryPath = true)
      (performed : Staging.perform tree launcher.base
        (Staging.steps config (launcher.directoryOf config.name)) = (.ok (), staged)) :
    SpawnCourse launcher tree config found args (.ok (launcher.plan config found args), staged)

theorem spawn_course (launcher : Launcher) (tree : Tree) (args : List String)
    (usable : settings config = .ok found) :
    SpawnCourse launcher tree config found args (launcher.spawn tree config args) := by
  simp only [spawn, usable]
  split
  · rename_i absent
    exact .missing (by simpa using absent)
  · rename_i present
    have there : tree.pathExists launcher.base found.binaryPath = true := by simpa using present
    split
    · rename_i failed
      exact .unstaged there failed
    · rename_i performed
      exact .staged there performed

theorem spawn_refused_iff (launcher : Launcher) (tree : Tree) (config : NodeConfig)
    (args : List String) :
    (∃ text, (launcher.spawn tree config args).1 = .error (.invalidConfig text)) ↔
      ∃ reason, settings config = .error reason := by
  cases judged : settings config with
  | error reason =>
      obtain ⟨text, rfl⟩ := settings_error judged
      simp [spawn, judged]
  | ok found =>
      have course := spawn_course launcher tree args judged
      generalize launcher.spawn tree config args = result at course
      cases course <;> simp

end Launcher

open Launcher in
/-- The two gates agree. The launcher never refuses the settings of a validated config: it fails for the
binary exactly if that is not there, leaving the tree as it is, and otherwise it succeeds or one of the
staging steps fails, told with that step's context. For any config with a name, the launcher refuses
its settings exactly if validation rejects its name or its settings. -/
theorem validator_and_launcher_agree (launcher : Launcher) (tree : Tree) (args : List String) :
    (∀ config, Validated config →
      ∃ value found, config.implConfig = some value ∧ LaunchConfig.ofValue value = .ok found ∧
        (∀ reason, (launcher.spawn tree config args).1 ≠ .error (.invalidConfig reason)) ∧
        ((∃ path, (launcher.spawn tree config args).1 = .error (.binaryNotFound path)) ↔
          tree.pathExists launcher.base found.binaryPath = false) ∧
        (tree.pathExists launcher.base found.binaryPath = false →
          launcher.spawn tree config args = (.error (.binaryNotFound found.binaryPath), tree)) ∧
        (tree.pathExists launcher.base found.binaryPath = true →
          (∃ staged,
            Staging.perform tree launcher.base
              (Staging.steps config (launcher.directoryOf config.name)) = (.ok (), staged) ∧
            launcher.spawn tree config args = (.ok (launcher.plan config found args), staged)) ∨
          ∃ before step after reached fault left,
            Staging.steps config (launcher.directoryOf config.name) = before ++ step :: after ∧
            Staging.perform tree launcher.base before = (.ok (), reached) ∧
            step.perform reached launcher.base = (.error fault, left) ∧
            launcher.spawn tree config args =
              (.error (.setup (step.context ++ ": " ++ fault.message)), left))) ∧
      ∀ config : NodeConfig, config.name ≠ "" →
        ((∃ reason, (launcher.spawn tree config args).1 = .error (.invalidConfig reason)) ↔
          ∃ reason, validateNode config = .error reason ∧ reason.ConcernsLaunch) := by
  constructor
  · intro config validated
    obtain ⟨value, found, present, read, usable⟩ := settings_of_validated validated
    have course := spawn_course launcher tree args usable
    generalize launcher.spawn tree config args = result at course
    refine ⟨value, found, present, read, ?_⟩
    cases course with
    | missing absent => simp [absent]
    | staged there performed =>
        simp only [ne_eq, reduceCtorEq, not_false_eq_true, implies_true, there, true_and,
          exists_false, Bool.true_eq_false, false_implies]
        exact fun _ => .inl ⟨_, performed, rfl⟩
    | unstaged there failed =>
        obtain ⟨before, step, after, reached, fault, whole, reaches, fails, rfl⟩ :=
          perform_failed failed
        refine ⟨by simp, by simp [there], by simp [there], fun _ => .inr ?_⟩
        exact ⟨before, step, after, reached, fault, _, whole, reaches, fails, rfl⟩
  · intro config named
    rw [spawn_refused_iff, settings_refused_iff named]

def unnamedNode : NodeConfig where
  genesisFile := [1]
  configFile := [1]
  implConfig := some (.object [("binary_path", .text "/bin/node")])

def launcherBelowNet : Launcher where
  root := "/net"
  base := []

/-- The name that will be filled in stands for a file. -/
def occupiedTree : Files.Tree where
  entries := [(["bin"], .directory), (["bin", "node"], .file [] {}), (["net"], .directory),
    (["net", "node-1"], .file [] {})]

/-- Staging fails where the validated name is occupied, which no gate can foresee; a name that leads
out of the root is refused by both. -/
theorem occupied_name_fails_in_staging :
    let config := { unnamedNode with name := "node-1" }
    Validated config ∧
      (launcherBelowNet.spawn occupiedTree config []).1 =
        .error (.setup "creating node directory \"/net/node-1\": File exists (os error 17)") ∧
      (∀ reason, (launcherBelowNet.spawn occupiedTree config []).1 ≠
        .error (.invalidConfig reason)) ∧
      (launcherBelowNet.spawn occupiedTree { unnamedNode with name := ".." } []).1 =
        .error (.invalidConfig "node name \"..\" cannot be used as a directory name") ∧
      ∃ reason, validateNode { unnamedNode with name := ".." } = .error reason ∧
        reason.ConcernsLaunch := by
  have validated : Validated { unnamedNode with name := "node-1" } :=
    @Validated.ofAdded unnamedNode _ [] {} ⟨2⟩ rfl
  obtain ⟨usable, refused⟩ := validator_and_launcher_agree launcherBelowNet occupiedTree []
  obtain ⟨value, found, -, -, never, -⟩ := usable _ validated
  refine ⟨validated, rfl, never, rfl, ?_⟩
  exact (refused { unnamedNode with name := ".." } (by decide)).mp ⟨_, rfl⟩

end LocalNet
