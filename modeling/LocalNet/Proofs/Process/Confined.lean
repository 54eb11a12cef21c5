import LocalNet.Proofs.Files.Confinement
import LocalNet.Proofs.Process.Staged

/-!
# What a spawn may touch

The paths of all steps of a staging are made from the node's own directory, and an accepted name leads
one step down from the root. So whether a staging succeeds or fails midway, what it changed is the node's
own, or a directory that was missing on the way to it; and what is refused earlier changes nothing.
-/

namespace LocalNet

open Files

/-- A step makes directories at places of `ways` only, and writes only to places of `written`. -/
def StagingStep.KeepsTo (ways written : Place → Prop) (base : Place) : StagingStep → Prop
  | .directory _ path => ∀ place, Path.OnWay base path place → ways place
  | .file _ path _ => written (Path.placeOf base path)

variable {ways written : Place → Prop} {base : Place} {tree : Tree}

theorem StagingStep.perform_grows {step : StagingStep} (keeps : step.KeepsTo ways written base)
    (tree : Tree) : Grows ways written tree (step.perform tree base).2 := by
  cases step with
  | directory context path => exact (Tree.make_directories_grows tree base path).mono keeps fun _ => False.elim
  | file context path content =>
      exact (Tree.write_grows tree base path content).mono (fun _ => False.elim) fun _ here => here ▸ keeps

theorem Staging.perform_grows {steps : List StagingStep}
    (keep : ∀ step ∈ steps, step.KeepsTo ways written base) (tree : Tree) :
    Grows ways written tree (Staging.perform tree base steps).2 := by
  induction steps generalizing tree with
  | nil => exact .start
  | cons step rest induction =>
      have first := StagingStep.perform_grows (keep step List.mem_cons_self) tree
      unfold Staging.perform
      split
      · rename_i failed
        rw [failed] at first
        exact first
      · rename_i next performed
        rw [performed] at first
        exact first.trans (induction (fun step member => keep step (List.mem_cons_of_mem _ member)) next)

def Launcher.nodePlace (launcher : Launcher) (name : String) : Place :=
  Path.placeOf launcher.base launcher.root ++ [name]

def Launcher.MayMake (launcher : Launcher) (name : String) (place : Place) : Prop :=
  Path.OnWay launcher.base launcher.root place ∨ launcher.nodePlace name <+: place

theorem Staging.steps_keep_to {config : NodeConfig} (plain : Path.Plain config.name)
    (launcher : Launcher) :
    ∀ step ∈ Staging.steps config (launcher.directoryOf config.name),
      step.KeepsTo (launcher.MayMake config.name) (launcher.nodePlace config.name <+: ·)
        launcher.base := by
  have own : Path.placeOf launcher.base (launcher.directoryOf config.name) =
      launcher.nodePlace config.name := Path.place_of_join plain _ _
  have way (place : Place) :
      Path.OnWay launcher.base (launcher.directoryOf config.name) place →
        launcher.MayMake config.name place := by
    rw [Launcher.directoryOf, Path.on_way_join plain]
    exact Or.imp_right fun here => here ▸ List.prefix_refl _
  have chain (place : Place) :
      Path.OnWay launcher.base (Staging.cChainPath (launcher.directoryOf config.name)) place →
        launcher.MayMake config.name place := by
    unfold Staging.cChainPath Staging.chainConfigsPath
    rw [Path.on_way_join (by decide), Path.on_way_join (by decide), Path.place_of_join (by decide), own,
      List.append_assoc]
    rintro ((onWay | rfl) | rfl)
    · exact way place onWay
    · exact .inr (List.prefix_append _ _)
    · exact .inr (List.prefix_append _ _)
  unfold Staging.steps
  simp only [List.forall_mem_append, List.forall_mem_cons, List.not_mem_nil, false_implies, implies_true,
    and_true]
  refine ⟨⟨⟨way, ?_, ?_⟩, ?_⟩, ?_⟩
  · simp (disch := decide) [StagingStep.KeepsTo, Staging.configPath, Path.place_of_join, own]
  · simp (disch := decide) [StagingStep.KeepsTo, Staging.genesisPath, Path.place_of_join, own]
  · split
    · exact fun _ listed => absurd listed List.not_mem_nil
    · rw [List.forall_mem_cons]
      refine ⟨chain, ?_⟩
      simp (disch := decide) [StagingStep.KeepsTo, Staging.chainConfigsPath, Staging.cChainPath,
        Path.place_of_join, own]
  · split
    · simp (disch := decide) [StagingStep.KeepsTo, Staging.certPath, Staging.keyPath, Path.place_of_join,
        own]
    · exact fun _ listed => absurd listed List.not_mem_nil

namespace Launcher

theorem spawn_grows (launcher : Launcher) (tree : Tree) (config : NodeConfig) (args : List String) :
    Grows (launcher.MayMake config.name) (launcher.nodePlace config.name <+: ·) tree
      (launcher.spawn tree config args).2 := by
  cases usable : settings config with
  | error reason =>
      simp only [spawn, usable]
      exact .start
  | ok found =>
      have staging := Staging.perform_grows
        (Staging.steps_keep_to (settings_ok usable).1 launcher) tree
      have course := spawn_course launcher tree args usable
      generalize launcher.spawn tree config args = result at course
      cases course with
      | missing absent => exact .start
      | unstaged there failed =>
          rw [failed] at staging
          exact staging
      | staged there performed =>
          rw [performed] at staging
          exact staging

/-- A spawn succeeds, or fails in one of three ways; in the first two nothing was touched. -/
theorem spawn_answers (launcher : Launcher) (tree : Tree) (config : NodeConfig) (args : List String) :
    ((∃ reason, (launcher.spawn tree config args).1 = .error (.invalidConfig reason)) ∨
        ∃ path, (launcher.spawn tree config args).1 = .error (.binaryNotFound path)) ∧
        (launcher.spawn tree config args).2 = tree ∨
      (∃ reason, (launcher.spawn tree config args).1 = .error (.setup reason)) ∨
      ∃ plan, (launcher.spawn tree config args).1 = .ok plan := by
  cases usable : settings config with
  | error reason =>
      obtain ⟨text, rfl⟩ := settings_error usable
      exact .inl (by simp [spawn, usable])
  | ok found =>
      have course := spawn_course launcher tree args usable
      generalize launcher.spawn tree config args = result at course
      cases course with
      | missing absent => exact .inl ⟨.inr ⟨_, rfl⟩, rfl⟩
      | unstaged there failed => exact .inr (.inl ⟨_, rfl⟩)
      | staged there performed => exact .inr (.inr ⟨_, rfl⟩)

theorem name_of_node_place {launcher : Launcher} {name other : String} {place : Place}
    (within : launcher.nodePlace name <+: place) (there : launcher.nodePlace other <+: place) :
    name = other := by
  have same := List.prefix_or_prefix_of_prefix within there
  simpa [nodePlace, List.prefix_append_right_inj, eq_comm] using same

/-- What is refused for its settings or its binary leaves the tree as it is. Otherwise, whether staging
succeeds or fails midway, each place that changed is a directory made where there was nothing on the way
to the root, or lies in the node's own place, one accepted name below the root. So no file in the place
of another accepted name changes, goes or comes. -/
theorem spawn_keeps_to_its_node (launcher : Launcher) (tree : Tree) (config : NodeConfig)
    (args : List String) :
    let answer := (launcher.spawn tree config args).1
    let after := (launcher.spawn tree config args).2
    let root := Path.placeOf launcher.base launcher.root
    (((∃ reason, answer = .error (.invalidConfig reason)) ∨
        ∃ path, answer = .error (.binaryNotFound path)) ∧ after = tree ∨
      (∃ reason, answer = .error (.setup reason)) ∨ ∃ plan, answer = .ok plan) ∧
    (∀ place, after.entry? place ≠ tree.entry? place →
      Path.OnWay launcher.base launcher.root place ∧ tree.entry? place = none ∧
          after.entry? place = some .directory ∨
        root ++ [config.name] <+: place) ∧
    ∀ other, other ≠ "" → isValidNodeName other = true → other ≠ config.name →
      ∀ place, Path.placeOf launcher.base (launcher.directoryOf other) <+: place →
        ∀ content access, after.entry? place = some (.file content access) ↔
          tree.entry? place = some (.file content access) := by
  intro answer after root
  have grown := spawn_grows launcher tree config args
  refine ⟨spawn_answers launcher tree config args, fun place changed => ?_, ?_⟩
  · rcases grown.confined place with same | ⟨way | own, free, made⟩ | own
    · exact absurd same changed
    · exact .inl ⟨way, free, made⟩
    · exact .inr own
    · exact .inr own
  · intro other named valid differs place within content access
    have theirs : launcher.nodePlace other <+: place := by
      rw [directoryOf, Path.place_of_join (plain_of_valid named valid)] at within
      exact within
    rcases grown.confined place with same | ⟨-, free, made⟩ | own
    · rw [same]
    · rw [free, made]
      simp
    · exact absurd (name_of_node_place theirs own) differs

/-- A file is in the way of a directory that is made after two files are written. -/
example :
    let tree : Tree :=
      { entries := [(["bin"], .directory), (["bin", "node"], .file [] {}), (["net"], .directory),
        (["net", "n1"], .directory), (["net", "n1", "chainConfigs"], .file [] {}),
        (["net", "n2"], .directory), (["net", "n2", "config.json"], .file [9] {})] }
    let spawned := launcherBelowNet.spawn tree wholeNode []
    spawned.1 = .error (.setup
        "creating \"/net/n1/chainConfigs/C\": Not a directory (os error 20)") ∧
      Tree.entry? spawned.2 ["net", "n1", "config.json"] = some (.file [1] {}) ∧
      Tree.entry? spawned.2 ["net", "n2", "config.json"] = some (.file [9] {}) := by
  decide +kernel

end Launcher

end LocalNet
