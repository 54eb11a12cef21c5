import LocalNet.Process.Spawner
import LocalNet.Proofs.Process.FreshRoot

/-!
# The life of a temporary root

Whatever is done with the handles of a spawner, and in whatever order others change the tree meanwhile, a
spawner counts the handles that live. So a root that it has made for itself goes with the last of them and
not before, and after that nothing is left that could bring it back.
-/

namespace LocalNet

open Files

/-- What is done with a handle of a spawner, or by others around it. -/
inductive Deed where
  | spawn (handle : Nat) (config : NodeConfig) (args : List String)
  | copy (handle fresh : Nat)
  | drop (handle : Nat)
  /-- Others leave the tree like this. -/
  | outside (left : Tree)

structure Holding where
  spawner : Spawner
  /-- The handles that are not yet dropped. -/
  live : List Nat
  tree : Tree

namespace Holding

def start (spawner : Spawner) (tree : Tree) : Holding where
  spawner := spawner
  live := [0]
  tree := tree

/-- A handle that does not live does nothing, and a copy is a new handle. -/
def step? (holding : Holding) : Deed → Option Holding
  | .spawn handle config args =>
    if handle ∈ holding.live then
      some { holding with tree := (holding.spawner.spawn holding.tree config args).2 }
    else none
  | .copy handle fresh =>
    if handle ∈ holding.live ∧ fresh ∉ holding.live then
      some { holding with spawner := holding.spawner.copy, live := fresh :: holding.live }
    else none
  | .drop handle =>
    if handle ∈ holding.live then
      let (spawner, tree, _) := holding.spawner.release holding.tree
      some ⟨spawner, holding.live.erase handle, tree⟩
    else none
  | .outside left => some { holding with tree := left }

def run? (holding : Holding) (deeds : List Deed) : Option Holding :=
  deeds.foldlM step? holding

end Holding

def Spawner.heldBy (handles : Nat) : Spawner → Spawner
  | .given launcher => .given launcher
  | .owning owned => .owning { owned with handles := handles }

namespace Spawner

variable {spawner : Spawner} {tree : Tree} {handles : Nat}

@[simp]
theorem held_launcher (spawner : Spawner) (handles : Nat) :
    (spawner.heldBy handles).launcher = spawner.launcher := by
  cases spawner <;> rfl

theorem held_copy (spawner : Spawner) (handles : Nat) :
    (spawner.heldBy handles).copy = spawner.heldBy (handles + 1) := by
  cases spawner <;> rfl

theorem held_release (spawner : Spawner) (handles : Nat) (tree : Tree) :
    ((spawner.heldBy handles).release tree).1 = spawner.heldBy (handles - 1) := by
  cases spawner with
  | given launcher => rfl
  | owning owned =>
      unfold release heldBy OwnedRoot.release
      by_cases last : handles = 1 <;> simp [last]

theorem release_shared (shared : handles ≠ 1) (spawner : Spawner) (tree : Tree) :
    ((spawner.heldBy handles).release tree).2.1 = tree := by
  cases spawner with
  | given launcher => rfl
  | owning owned => simp [release, heldBy, OwnedRoot.release, shared]

end Spawner

theorem OwnedRoot.remove_root_tree (owned : OwnedRoot) (tree : Tree) {root : Place}
    (apart : root ≠ []) (there : Path.placeOf owned.launcher.base owned.launcher.root = root) :
    (tree.find owned.launcher.base owned.launcher.root = .ok (root, .directory) →
        ∀ place, Tree.entry? (owned.removeRoot tree).1 place =
          if root <+: place then none else tree.entry? place) ∧
      (tree.find owned.launcher.base owned.launcher.root ≠ .ok (root, .directory) →
        (owned.removeRoot tree).1 = tree) := by
  constructor
  · intro found
    simp only [removeRoot, Tree.removeAll, found]
    exact fun place => Tree.entry_remove apart
  · intro differs
    have refused : ∃ reason, tree.removeAll owned.launcher.base owned.launcher.root = .error reason := by
      unfold Tree.removeAll
      split
      · exact ⟨_, rfl⟩
      · exact ⟨_, rfl⟩
      · rename_i place found
        obtain ⟨rfl, -⟩ := Tree.find_place found
        exact absurd (there ▸ found) differs
    obtain ⟨reason, refused⟩ := refused
    unfold removeRoot
    simp only [refused]
    split
    · rename_i removed
      cases removed
    · rfl
    · rfl

namespace Holding

variable {origin : Spawner} {holding next now : Holding} {deed : Deed}

/-- A spawner has as many handles as there are. -/
structure Sound (origin : Spawner) (holding : Holding) : Prop where
  counted : holding.spawner = origin.heldBy holding.live.length
  distinct : holding.live.Nodup

theorem sound_start (single : origin.heldBy 1 = origin) (tree : Tree) : Sound origin (start origin tree) :=
  ⟨single.symm, List.pairwise_singleton _ 0⟩

theorem Sound.step (sound : Sound origin holding) (taken : holding.step? deed = some next) :
    Sound origin next := by
  obtain ⟨counted, distinct⟩ := sound
  cases deed with
  | spawn handle config args =>
      simp only [step?, Option.ite_none_right_eq_some, Option.some.injEq] at taken
      obtain ⟨-, rfl⟩ := taken
      exact ⟨counted, distinct⟩
  | copy handle fresh =>
      simp only [step?, Option.ite_none_right_eq_some, Option.some.injEq] at taken
      obtain ⟨⟨-, absent⟩, rfl⟩ := taken
      refine ⟨?_, List.nodup_cons.mpr ⟨absent, distinct⟩⟩
      rw [counted, Spawner.held_copy, List.length_cons]
  | drop handle =>
      simp only [step?, Option.ite_none_right_eq_some, Option.some.injEq] at taken
      obtain ⟨lives, rfl⟩ := taken
      refine ⟨?_, distinct.erase handle⟩
      rw [counted, Spawner.held_release, List.length_erase_of_mem lives]
  | outside left =>
      cases taken
      exact ⟨counted, distinct⟩

theorem Sound.run {deeds : List Deed} (sound : Sound origin holding)
    (ran : holding.run? deeds = some now) : Sound origin now := by
  induction deeds generalizing holding with
  | nil =>
      cases ran
      exact sound
  | cons deed rest induction =>
      rw [run?, List.foldlM_cons, Option.bind_eq_bind, Option.bind_eq_some_iff] at ran
      obtain ⟨next, taken, further⟩ := ran
      exact induction (sound.step taken) further

theorem Sound.drop_spares {handle : Nat} (sound : Sound origin holding)
    (taken : holding.step? (.drop handle) = some next) (left : next.live ≠ []) :
    next.tree = holding.tree := by
  simp only [step?, Option.ite_none_right_eq_some, Option.some.injEq] at taken
  obtain ⟨lives, rfl⟩ := taken
  have shared : holding.live.length ≠ 1 := by
    intro last
    have emptied : (holding.live.erase handle).length = 0 := by
      rw [List.length_erase_of_mem lives, last]
    exact left (List.length_eq_zero_iff.mp emptied)
  simp only [sound.counted]
  exact Spawner.release_shared shared origin holding.tree

theorem Sound.last_drop {owned : OwnedRoot} {handle : Nat} (sound : Sound (.owning owned) holding)
    (taken : holding.step? (.drop handle) = some next) (last : next.live = []) :
    next.tree = (owned.removeRoot holding.tree).1 := by
  simp only [step?, Option.ite_none_right_eq_some, Option.some.injEq] at taken
  obtain ⟨lives, rfl⟩ := taken
  have single : holding.live.length = 1 := by
    have emptied := congrArg List.length last
    rw [List.length_erase_of_mem lives, List.length_nil] at emptied
    have held := List.length_pos_of_mem lives
    omega
  simp only [sound.counted, single, Spawner.heldBy, Spawner.release, OwnedRoot.release, if_true]
  rfl

/-- Without a handle there is nothing to be done. -/
theorem outside_of_dropped (dropped : holding.live = []) (taken : holding.step? deed = some next) :
    ∃ left, deed = .outside left := by
  cases deed with
  | outside left => exact ⟨left, rfl⟩
  | spawn handle config args => simp [step?, dropped] at taken
  | copy handle fresh => simp [step?, dropped] at taken
  | drop handle => simp [step?, dropped] at taken

theorem Sound.spawn {handle : Nat} {config : NodeConfig} {args : List String}
    (sound : Sound origin holding) (taken : holding.step? (.spawn handle config args) = some next) :
    holding.spawner.spawn holding.tree config args = origin.launcher.spawn holding.tree config args ∧
      next.tree = (origin.launcher.spawn holding.tree config args).2 := by
  simp only [step?, Option.ite_none_right_eq_some, Option.some.injEq] at taken
  obtain ⟨-, rfl⟩ := taken
  have same : holding.spawner.launcher = origin.launcher := by rw [sound.counted, Spawner.held_launcher]
  simp only [Spawner.spawn, same, and_self]

theorem Sound.given_retains {launcher : Launcher} (sound : Sound (.given launcher) holding)
    (taken : holding.step? deed = some next) :
    (∃ left, deed = .outside left) ∨
      Retains holding.tree next.tree ∧ ∀ handle, deed = .drop handle → next.tree = holding.tree := by
  cases deed with
  | outside left => exact .inl ⟨left, rfl⟩
  | spawn handle config args =>
      obtain ⟨-, same⟩ := sound.spawn taken
      rw [same]
      exact .inr ⟨(Launcher.spawn_grows launcher holding.tree config args).retains, by simp⟩
  | copy handle fresh =>
      simp only [step?, Option.ite_none_right_eq_some, Option.some.injEq] at taken
      obtain ⟨-, rfl⟩ := taken
      exact .inr ⟨.refl _, by simp⟩
  | drop handle =>
      simp only [step?, Option.ite_none_right_eq_some, Option.some.injEq, sound.counted, Spawner.heldBy,
        Spawner.release] at taken
      obtain ⟨-, rfl⟩ := taken
      exact .inr ⟨.refl _, fun _ _ => rfl⟩

end Holding

namespace Launcher

variable {launcher : Launcher} {tree : Tree} {config : NodeConfig} {args : List String}

theorem spawn_below_root {plan : LaunchPlan} (spawned : (launcher.spawn tree config args).1 = .ok plan)
    (given : launcher.root ≠ "") :
    plan.directory = Path.join launcher.root config.name ∧
      (launcher.spawn tree config args).2.find launcher.base launcher.root =
        .ok (Path.placeOf launcher.base launcher.root, .directory) ∧
      ∀ step ∈ Staging.steps config plan.directory,
        step.Stands (launcher.spawn tree config args).2 launcher.base := by
  generalize whole : launcher.spawn tree config args = result at spawned
  obtain ⟨answer, staged⟩ := result
  obtain rfl : answer = .ok plan := spawned
  have stands := spawn_stands whole
  obtain ⟨value, found, -, -, plain, -, -, rfl⟩ := spawn_ok whole
  have node : staged.find launcher.base (Path.join launcher.root config.name) =
      .ok (Path.placeOf launcher.base (Path.join launcher.root config.name), .directory) :=
    stands _ (Staging.own_directory_mem config _)
  exact ⟨rfl, Tree.find_above plain given node, stands⟩

end Launcher

theorem temp_name_plain {unique : String} (single : '/' ∉ unique.toList) :
    Path.Plain (Spawner.tempStem ++ unique) := by
  have begins : (Spawner.tempStem ++ unique).toList = 'n' :: "etrunner-".toList ++ unique.toList := by
    rw [String.toList_append]
    rfl
  refine ⟨?_, ?_, ?_, ?_⟩
  · intro blank
    simp [blank] at begins
  · intro dot
    simp [dot] at begins
  · intro dots
    simp [dots] at begins
  · simp [begins, single]

/-- As long as a handle lives, no drop touches anything. The last drop removes the root with everything
below it if that is a directory, and nothing otherwise, and then nothing is left that could stage. A
spawn through any handle stages under the same root and takes nothing away; where a file stands for the
root it fails in staging and leaves that alone, and where the root is gone it makes the root again and is
as good as ever. A spawner that was given its root, and its copies, never take anything away. -/
theorem temp_root_lives_while_held {temporary unique : String} {base : Place} {tree : Tree}
    {deeds : List Deed} {now : Holding} (single : '/' ∉ unique.toList)
    (ran : (Holding.start (Spawner.withTempRoot temporary unique base) tree).run? deeds = some now) :
    let launcher : Launcher := { root := Path.join temporary ("netrunner-" ++ unique), base := base }
    let root := Path.placeOf base launcher.root
    (∀ handle next, now.step? (.drop handle) = some next →
      (next.live ≠ [] → next.tree = now.tree) ∧
      (next.live = [] →
        (now.tree.find base launcher.root = .ok (root, .directory) →
          ∀ place, next.tree.entry? place = if root <+: place then none else now.tree.entry? place) ∧
        (now.tree.find base launcher.root ≠ .ok (root, .directory) → next.tree = now.tree) ∧
        ∀ deed later, next.step? deed = some later → ∃ left, deed = .outside left)) ∧
    (∀ handle config args next, now.step? (.spawn handle config args) = some next →
      let answer := (now.spawner.spawn now.tree config args).1
      Retains now.tree next.tree ∧
      (∀ plan, answer = .ok plan → plan.directory = Path.join launcher.root config.name ∧
        next.tree.find base launcher.root = .ok (root, .directory) ∧
        ∀ step ∈ Staging.steps config plan.directory, step.Stands next.tree base) ∧
      (launcher.Reaches now.tree config →
        (∀ place content access, now.tree.find base launcher.root = .ok (place, .file content access) →
          (∃ reason, answer = .error (.setup reason)) ∧ next.tree = now.tree) ∧
        (launcher.RootGone now.tree temporary ("netrunner-" ++ unique) →
          Path.Fits (launcher.directoryOf config.name) →
          next.tree.find base launcher.root = .ok (root, .directory) ∧
          (config.name.utf8ByteSize ≤ Tree.longestName →
            (∀ step ∈ Staging.steps config (launcher.directoryOf config.name), Path.Fits step.path) →
            ∃ plan, answer = .ok plan)))) ∧
    ∀ root base tree deeds now, (Holding.start (Spawner.new root base) tree).run? deeds = some now →
      ∀ deed next, now.step? deed = some next → (∃ left, deed = .outside left) ∨
        Retains now.tree next.tree ∧ ∀ handle, deed = .drop handle → next.tree = now.tree := by
  intro launcher root
  have plain := temp_name_plain single
  have below : root = Path.placeOf base temporary ++ [Spawner.tempStem ++ unique] :=
    Path.place_of_join plain base temporary
  have fresh : Holding.Sound (Spawner.withTempRoot temporary unique base)
      (Holding.start (Spawner.withTempRoot temporary unique base) tree) := Holding.sound_start rfl tree
  have sound := fresh.run ran
  refine ⟨fun handle next taken => ⟨sound.drop_spares taken, fun last => ?_⟩,
    fun handle config args next taken => ?_, fun root base tree deeds now ran deed next taken => ?_⟩
  · obtain ⟨removed, spared⟩ :=
      @OwnedRoot.remove_root_tree { launcher := launcher } now.tree root (by simp [below]) rfl
    rw [sound.last_drop taken last]
    exact ⟨removed, spared, fun deed later => Holding.outside_of_dropped last⟩
  · obtain ⟨same, whole⟩ := sound.spawn taken
    change now.spawner.spawn now.tree config args = launcher.spawn now.tree config args at same
    change next.tree = (launcher.spawn now.tree config args).2 at whole
    simp only [same, whole]
    refine ⟨(launcher.spawn_grows now.tree config args).retains, fun plan spawned => ?_,
      fun reaches => ⟨fun place content access found => ?_, fun gone fits => ?_⟩⟩
    · exact Launcher.spawn_below_root spawned (Path.join_ne_blank plain temporary)
    · obtain ⟨reason, blocked⟩ := reaches.blocked found args
      rw [blocked]
      exact ⟨⟨reason, rfl⟩, rfl⟩
    · exact ⟨gone.recreated reaches fits args, fun short fit => gone.spawns reaches short fit args⟩
  · exact ((Holding.sound_start rfl tree).run ran).given_retains taken

def treeWithTemp : Files.Tree where
  entries := [(["bin"], .directory), (["bin", "node"], .file [] {}), (["tmp"], .directory)]

/-- The first handle goes, others remove the root, and the second handle stages again and goes. -/
theorem removed_root_comes_back_and_goes :
    let deeds := [.spawn 0 wholeNode [], .copy 0 1, .drop 0, .outside treeWithTemp, .spawn 1 wholeNode []]
    ∃ now next, (Holding.start (Spawner.withTempRoot "/tmp" "1" []) treeWithTemp).run? deeds = some now ∧
      now.tree.entry? ["tmp", "netrunner-1", "n1", "config.json"] = some (.file [1] {}) ∧
      now.step? (.drop 1) = some next ∧
      ∀ place, next.tree.entry? place =
        if ["tmp", "netrunner-1"] <+: place then none else now.tree.entry? place := by
  intro deeds
  have course : (((Holding.start (Spawner.withTempRoot "/tmp" "1" []) treeWithTemp).run? deeds).bind
      fun now => (now.step? (.drop 1)).map fun next =>
        (next.live, now.tree.entry? ["tmp", "netrunner-1", "n1", "config.json"],
          now.tree.find [] "/tmp/netrunner-1")) =
      some ([], some (.file [1] {}), .ok (["tmp", "netrunner-1"], .directory)) := by
    decide +kernel
  obtain ⟨now, ran, course⟩ := Option.bind_eq_some_iff.mp course
  obtain ⟨next, dropped, seen⟩ := Option.map_eq_some_iff.mp course
  simp only [Prod.mk.injEq] at seen
  obtain ⟨alone, config, root⟩ := seen
  obtain ⟨drops, -⟩ := temp_root_lives_while_held (by decide) ran
  obtain ⟨removed, -⟩ := (drops 1 next dropped).2 alone
  have place : Path.placeOf [] (Path.join "/tmp" ("netrunner-" ++ "1")) = ["tmp", "netrunner-1"] := by
    decide +kernel
  rw [place] at removed
  exact ⟨now, next, ran, config, dropped, removed root⟩

end LocalNet
