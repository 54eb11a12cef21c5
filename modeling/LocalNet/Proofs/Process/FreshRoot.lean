import LocalNet.Proofs.Files.Making
import LocalNet.Proofs.Process.Confined

/-!
# Staging below a root that is gone, or in the way

Where the root is missing and the directory above it is there, a staging makes the root again, and then
has the whole place of the node to itself, so every step succeeds. Where a file stands for the root, the
first step fails.
-/

namespace LocalNet

open Files

namespace Staging

variable {tree made : Tree} {base place : Place} {before later : List StagingStep}
variable {directory : String} {config : NodeConfig}

theorem perform_append (performed : perform tree base before = (.ok (), made)) :
    perform tree base (before ++ later) = perform made base later := by
  induction before generalizing tree with
  | nil =>
      cases performed
      rfl
  | cons step rest induction =>
      rw [perform] at performed
      rw [List.cons_append, perform]
      cases done : step.perform tree base with
      | mk answer next =>
          cases answer with
          | error reason => simp [done] at performed
          | ok =>
              rw [done] at performed
              exact induction performed

theorem own_directory_mem (config : NodeConfig) (directory : String) :
    .directory ("creating node directory " ++ Text.quoted directory) directory ∈
      steps config directory := by
  simp [steps]

def names : List String :=
  ["config.json", "genesis.json", "chainConfigs", "staking.crt", "staking.key"]

theorem perform_chain (room : Tree.Room tree base directory place (names.drop 2))
    (context told : String) (content : Bytes)
    (fits : Path.Fits (Path.join (cChainPath directory) "config.json")) :
    ∃ after, perform tree base [.directory context (cChainPath directory),
        .file told (Path.join (cChainPath directory) "config.json") content] = (.ok (), after) ∧
      Tree.Room after base directory place (names.drop 3) := by
  obtain ⟨made, performed, inner, kept⟩ :=
    Tree.Room.make room.found (room.free "chainConfigs" (by decide)) (by decide) (by decide)
      (fits.of_join (by decide)) ["config.json"]
  have vacant := inner.free "config.json" (by decide) _ (List.prefix_refl _)
  have wrote := Tree.write_join (by decide) fits inner.found vacant content
  have within : place ++ ["chainConfigs"] <+: place ++ ["chainConfigs"] ++ ["C"] ++ ["config.json"] := by
    rw [List.append_assoc _ ["C"]]
    exact List.prefix_append _ _
  have last := (kept (names.drop 3) (by decide) (room.weaken (by decide))).put (by decide) within vacant
    (.file content {})
  refine ⟨_, ?_, last⟩
  simp only [perform, StagingStep.perform, cChainPath, chainConfigsPath] at performed wrote ⊢
  simp only [performed, wrote]

/-- In a directory with all these names free, everything that a config holds can be written. -/
theorem perform_in_room (room : Tree.Room made base directory place names)
    (performed : tree.makeDirectories base directory = (.ok (), made))
    (fit : ∀ step ∈ steps config directory, Path.Fits step.path) :
    ∃ staged, perform tree base (steps config directory) = (.ok (), staged) := by
  simp only [steps, List.forall_mem_append, List.forall_mem_cons, StagingStep.path] at fit
  obtain ⟨⟨⟨-, fitsConfig, fitsGenesis, -⟩, fitsChain⟩, fitsStaking⟩ := fit
  obtain ⟨first, wroteConfig, room⟩ :=
    room.write (by decide) (by decide) fitsConfig config.configFile
  obtain ⟨second, wroteGenesis, room⟩ :=
    room.write (by decide) (by decide) fitsGenesis config.genesisFile
  have general : perform tree base [.directory ("creating node directory " ++ Text.quoted directory) directory,
      .file (writing (configPath directory)) (configPath directory) config.configFile,
      .file (writing (genesisPath directory)) (genesisPath directory) config.genesisFile] =
        (.ok (), second) := by
    simp only [perform, StagingStep.perform, performed, configPath, wroteConfig, genesisPath, wroteGenesis]
  rw [steps, List.append_assoc, perform_append general]
  obtain ⟨third, chained, room⟩ : ∃ third, perform second base
      (if config.cChainConfigFile.isEmpty then []
      else
        [.directory ("creating " ++ Text.quoted (cChainPath directory)) (cChainPath directory),
          .file "writing C-Chain config" (Path.join (cChainPath directory) "config.json")
            config.cChainConfigFile]) = (.ok (), third) ∧
      Tree.Room third base directory place (names.drop 3) := by
    split
    · exact ⟨second, rfl, room.weaken (by decide)⟩
    · rename_i given
      simp only [given, Bool.false_eq_true, if_false, List.forall_mem_cons] at fitsChain
      exact perform_chain room _ _ _ fitsChain.2.1
  rw [perform_append chained]
  split
  · rename_i both
    simp only [both, if_true, List.forall_mem_cons] at fitsStaking
    obtain ⟨fourth, wroteCert, room⟩ :=
      room.write (by decide) (by decide) fitsStaking.1 config.stakingCert
    obtain ⟨fifth, wroteKey, -⟩ :=
      room.write (by decide) (by decide) fitsStaking.2.1 config.stakingKey
    refine ⟨fifth, ?_⟩
    simp only [perform, StagingStep.perform, certPath, wroteCert, keyPath, wroteKey]
  · exact ⟨third, rfl⟩

end Staging

namespace Launcher

/-- A spawn gets as far as to staging this config. -/
def Reaches (launcher : Launcher) (tree : Tree) (config : NodeConfig) : Prop :=
  ∃ found, settings config = .ok found ∧ tree.pathExists launcher.base found.binaryPath = true

/-- The directory in which the root is to be is there, and has nothing under the root's name. -/
structure RootGone (launcher : Launcher) (tree : Tree) (above name : String) : Prop where
  root : launcher.root = Path.join above name
  named : Path.Name name
  stands : tree.find launcher.base above = .ok (Path.placeOf launcher.base above, .directory)
  gone : ∀ place, Path.placeOf launcher.base launcher.root <+: place → tree.entry? place = none

variable {launcher : Launcher} {tree : Tree} {config : NodeConfig} {above name : String}

theorem Reaches.plain (reaches : launcher.Reaches tree config) : Path.Plain config.name := by
  obtain ⟨found, usable, -⟩ := reaches
  exact (settings_ok usable).1

/-- Where a spawn gets as far as that, its answer is the staging's. -/
theorem Reaches.spawn (reaches : launcher.Reaches tree config) (args : List String) :
    (∃ plan staged, Staging.perform tree launcher.base
          (Staging.steps config (launcher.directoryOf config.name)) = (.ok (), staged) ∧
        launcher.spawn tree config args = (.ok plan, staged)) ∨
      ∃ reason left, Staging.perform tree launcher.base
          (Staging.steps config (launcher.directoryOf config.name)) = (.error reason, left) ∧
        launcher.spawn tree config args = (.error (.setup reason), left) := by
  obtain ⟨found, usable, there⟩ := reaches
  have course := spawn_course launcher tree args usable
  generalize launcher.spawn tree config args = result at course
  cases course with
  | missing absent => simp [there] at absent
  | staged _ performed => exact .inl ⟨_, _, performed, rfl⟩
  | unstaged _ failed => exact .inr ⟨_, _, failed, rfl⟩

theorem staging_retains (plain : Path.Plain config.name) (launcher : Launcher) (tree : Tree) :
    Retains (tree.makeDirectories launcher.base (launcher.directoryOf config.name)).2
      (Staging.perform tree launcher.base
        (Staging.steps config (launcher.directoryOf config.name))).2 := by
  have keep := Staging.steps_keep_to plain launcher
  unfold Staging.steps at keep ⊢
  rw [List.append_assoc, List.cons_append] at keep ⊢
  rw [Staging.perform, StagingStep.perform]
  split
  · rename_i failed
    rw [failed]
    exact .refl _
  · rename_i made performed
    rw [performed]
    exact (Staging.perform_grows (fun step member => keep step (List.mem_cons_of_mem _ member)) made).retains

/-- However a spawn ends that has come to the staging, the root is there again. -/
theorem RootGone.recreated (missing : launcher.RootGone tree above name)
    (reaches : launcher.Reaches tree config) (fits : Path.Fits (launcher.directoryOf config.name))
    (args : List String) :
    (launcher.spawn tree config args).2.find launcher.base launcher.root =
      .ok (Path.placeOf launcher.base launcher.root, .directory) := by
  have place := Path.place_of_join missing.named.plain launcher.base above
  have gone := missing.gone
  rw [directoryOf, missing.root] at fits
  rw [missing.root, place] at gone
  have made := Tree.find_after_make_directories missing.named reaches.plain fits missing.stands
    (gone _ (List.prefix_refl _))
  rw [← place, ← missing.root] at made
  have kept := (staging_retains reaches.plain launcher tree).find made
  rcases reaches.spawn args with ⟨plan, staged, performed, spawned⟩ | ⟨reason, left, failed, spawned⟩
  · rw [performed] at kept
    rw [spawned]
    exact kept
  · rw [failed] at kept
    rw [spawned]
    exact kept

/-- If the texts of the node's paths are not too long, nothing is in the way of a spawn. -/
theorem RootGone.spawns (missing : launcher.RootGone tree above name)
    (reaches : launcher.Reaches tree config) (short : config.name.utf8ByteSize ≤ Tree.longestName)
    (fit : ∀ step ∈ Staging.steps config (launcher.directoryOf config.name), Path.Fits step.path)
    (args : List String) : ∃ plan, (launcher.spawn tree config args).1 = .ok plan := by
  have place := Path.place_of_join missing.named.plain launcher.base above
  have gone := missing.gone
  have fits := fit _ (Staging.own_directory_mem config _)
  rw [StagingStep.path, directoryOf, missing.root] at fits
  rw [missing.root, place] at gone
  obtain ⟨made, performed, room, -⟩ :=
    Tree.Room.make missing.stands gone missing.named ⟨reaches.plain, short⟩ fits Staging.names
  rw [← missing.root] at performed room
  obtain ⟨staged, succeeds⟩ := Staging.perform_in_room room performed fit
  rcases reaches.spawn args with ⟨plan, staged, -, spawned⟩ | ⟨reason, left, failed, -⟩
  · exact ⟨plan, by rw [spawned]⟩
  · cases succeeds.symm.trans failed

/-- Where a file stands for the root, a spawn that comes to the staging fails there at once. -/
theorem Reaches.blocked {place : Place} {content : Bytes} {access : Access}
    (reaches : launcher.Reaches tree config)
    (found : tree.find launcher.base launcher.root = .ok (place, .file content access))
    (args : List String) :
    ∃ reason, launcher.spawn tree config args = (.error (.setup reason), tree) := by
  obtain ⟨fault, failed⟩ := Tree.make_directories_below_file reaches.plain found
  have broken : ∃ reason, Staging.perform tree launcher.base
      (Staging.steps config (launcher.directoryOf config.name)) = (.error reason, tree) := by
    rw [Staging.steps, List.append_assoc, List.cons_append, Staging.perform, StagingStep.perform, directoryOf,
      failed]
    exact ⟨_, rfl⟩
  obtain ⟨reason, broken⟩ := broken
  rcases reaches.spawn args with ⟨plan, staged, performed, -⟩ | ⟨told, left, failed, spawned⟩
  · cases performed.symm.trans broken
  · cases failed.symm.trans broken
    exact ⟨_, spawned⟩

end Launcher

end LocalNet
