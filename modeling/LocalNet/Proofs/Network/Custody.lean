import LocalNet.Proofs.Network.Naming

/-!
# Custody of processes

What has started and has not been stopped is held somewhere: by an entry of the registry, or by a call
in flight. The account balances with every turn, and an instance starts once at most, so nothing is
held twice and nothing is stopped twice.
-/

namespace LocalNet

namespace Happening

def starts (instanceId : Nat) : Happening → Bool
  | .started _ other => other = instanceId
  | _ => false

def stops (instanceId : Nat) : Happening → Bool
  | .stopped _ other => other = instanceId
  | _ => false

end Happening

namespace Activity

def nodes : Activity → List Node
  | .unbuilding nodes _ => nodes
  | .committing _ (.ok node) => [node]
  | .withdrawing node => [node]
  | .removing _ node => [node]
  | .stopping nodes _ _ _ => nodes
  | .clearing nodes => nodes
  | _ => []

def carries (instanceId : Nat) (activity : Activity) : Nat :=
  activity.nodes.countP (·.instanceId = instanceId)

def launches (instanceId : Nat) (activity : Activity) : Nat :=
  if activity.launch?.bind Launch.spawned = some instanceId then 1 else 0

end Activity

/-- Who answers for a process: an entry of the registry, or a call in flight. A construction, an add,
a remove, a stop call and the background are calls alike. -/
inductive Owner where
  | entry (name : String)
  | call (call : CallId)
  deriving DecidableEq, Repr

namespace Registry

def carries (instanceId : Nat) (registry : Registry) : Nat :=
  registry.nodes.countP (·.2.instanceId = instanceId)

theorem carries_of_taken {registry : Registry} (sound : registry.NamesSound) {name : String}
    {node : Node} (found : registry.find? name = some node) (instanceId : Nat) :
    registry.carries instanceId =
      (registry.nodes.filter (·.1 ≠ name)).countP (·.2.instanceId = instanceId) +
        if node.instanceId = instanceId then 1 else 0 := by
  have distinct : (registry.nodes.map Prod.fst).Nodup :=
    (List.nodup_append.mp sound.distinct).1
  unfold find? at found
  unfold carries
  generalize registry.nodes = entries at distinct found
  induction entries with
  | nil => cases found
  | cons entry rest ih =>
      obtain ⟨key, value⟩ := entry
      obtain ⟨absent, distinct⟩ := List.nodup_cons.mp distinct
      by_cases same : key = name
      · subst same
        have others : rest.filter (·.1 ≠ key) = rest := by
          apply List.filter_eq_self.mpr
          intro other member
          have different : other.1 ≠ key := fun equal =>
            absent (List.mem_map.mpr ⟨other, member, equal⟩)
          simpa using different
        obtain rfl : value = node := by simpa using found
        rw [List.filter_cons_of_neg (by simp), others, List.countP_cons]
        simp
      · have skipped : (name == key) = false := by simpa using Ne.symm same
        rw [List.lookup_cons, skipped] at found
        rw [List.filter_cons_of_pos (by simpa using same), List.countP_cons, List.countP_cons,
          ih distinct found]
        omega

end Registry

namespace Network

def starts (network : Network) (instanceId : Nat) : Nat :=
  network.happenings.countP (Happening.starts instanceId)

def stops (network : Network) (instanceId : Nat) : Nat :=
  network.happenings.countP (Happening.stops instanceId)

/-- An instance whose start has succeeded and whose stop has not completed. -/
def Live (network : Network) (instanceId : Nat) : Prop :=
  0 < network.starts instanceId ∧ network.stops instanceId = 0

def holdings (network : Network) : List (Owner × Node) :=
  network.registry.nodes.map (fun entry => (.entry entry.1, entry.2)) ++
    network.activities.flatMap fun entry =>
      entry.2.nodes.map fun node => (.call entry.1, node)

structure Custody (network : Network) : Prop where
  balance : ∀ instanceId, network.starts instanceId =
    network.registry.carries instanceId + network.tally (Activity.carries instanceId) +
      network.stops instanceId
  once : ∀ instanceId,
    network.starts instanceId + network.tally (Activity.launches instanceId) ≤
      if instanceId < network.nextInstance then 1 else 0

theorem holdings_count (network : Network) (instanceId : Nat) :
    network.holdings.countP (·.2.instanceId = instanceId) =
      network.registry.carries instanceId + network.tally (Activity.carries instanceId) := by
  have inFlight (entry : CallId × Activity) :
      (entry.2.nodes.map fun node => (Owner.call entry.1, node)).countP
          (·.2.instanceId = instanceId) = entry.2.carries instanceId := by
    rw [List.countP_map]
    rfl
  simp only [holdings, List.countP_append, List.countP_map, List.countP_flatMap]
  apply congrArg (network.registry.carries instanceId + ·)
  exact congrArg List.sum (List.map_congr_left fun entry _ => inFlight entry)

variable {network shared : Network} {call : CallId} {action : Action} {fate : Fate}

theorem launch_fails_happenings {launch : Launch} {reason : ProcessError} {nextInstance : Nat}
    {happenings : List Happening}
    (fails : LaunchFails network call launch action reason nextInstance happenings)
    (instanceId : Nat) :
    happenings.countP (Happening.starts instanceId) = network.starts instanceId ∧
      happenings.countP (Happening.stops instanceId) = network.stops instanceId ∧
      network.nextInstance ≤ nextInstance := by
  cases fails with
  | spawn => exact ⟨rfl, rfl, Nat.le_succ _⟩
  | start => exact ⟨rfl, rfl, Nat.le_refl _⟩

theorem started_happenings (network : Network) (launch : Launch) (started instanceId : Nat) :
    (network.startedHappenings launch started).countP (Happening.starts instanceId) =
        network.starts instanceId + (if started = instanceId then 1 else 0) ∧
      (network.startedHappenings launch started).countP (Happening.stops instanceId) =
        network.stops instanceId := by
  simp [startedHappenings, List.countP_cons, Happening.starts, Happening.stops, starts, stops]

theorem stopped_happenings (network : Network) (node : Node) (instanceId : Nat) :
    (network.stoppedHappenings node).countP (Happening.starts instanceId) =
        network.starts instanceId ∧
      (network.stoppedHappenings node).countP (Happening.stops instanceId) =
        network.stops instanceId + (if node.instanceId = instanceId then 1 else 0) := by
  simp [stoppedHappenings, List.countP_cons, Happening.starts, Happening.stops, starts, stops]

theorem inserted_carries {registry : Registry} {name : String} (fresh : name ∉ registry.taken)
    (node : Node) (instanceId : Nat) :
    (registry.insert name node).carries instanceId =
      registry.carries instanceId + if node.instanceId = instanceId then 1 else 0 := by
  rw [Registry.insert_fresh fresh]
  simp [Registry.carries]

/-- With a turn the account of an instance stays balanced: what is started is held from then on, and
what is no longer held is stopped. -/
theorem turn_balance (sound : Sound network) (names : NamesSound network)
    (turn : Turn network call action shared fate) (instanceId : Nat) :
    shared.registry.carries instanceId + fate.weigh (Activity.carries instanceId) +
        shared.stops instanceId + network.starts instanceId =
      network.registry.carries instanceId +
          (network.activity? call).elim 0 (Activity.carries instanceId) +
        network.stops instanceId + shared.starts instanceId := by
  have handedOver : (network.registry.nodes.map Prod.snd).countP (·.instanceId = instanceId) =
      network.registry.carries instanceId := List.countP_map
  cases turn with
  | refused | answered | reserved =>
      rw [sound.fresh]
      rfl
  | taken running opened found =>
      have taken := Registry.carries_of_taken names.registry found instanceId
      rw [sound.fresh, taken]
      simp only [Registry.carries, Fate.weigh, Activity.carries, Activity.nodes, starts, stops,
        List.countP_singleton, decide_eq_true_eq, Option.elim_none]
      omega
  | drained =>
      rw [sound.fresh]
      simp only [Fate.weigh, Activity.carries, Activity.nodes, handedOver, Option.elim_none]
      simp only [Registry.carries, List.countP_nil, starts, stops]
      omega
  | drainedNone running opened none =>
      rw [sound.fresh]
      simp only [Registry.carries, Fate.weigh, none, starts, stops, Option.elim_none]
  | buildFailed busy fails =>
      obtain ⟨starts, stops, -⟩ := launch_fails_happenings fails instanceId
      rw [busy]
      simp only [Fate.weigh, Activity.carries, Activity.nodes, handedOver, Option.elim_some,
        Network.starts, Network.stops, List.countP_nil] at starts stops ⊢
      simp only [Registry.carries, List.countP_nil, starts, stops]
      omega
  | buildFailedAlone busy fails none =>
      obtain ⟨starts, stops, -⟩ := launch_fails_happenings fails instanceId
      rw [busy]
      simp only [Registry.carries, Fate.weigh, Activity.carries, Activity.nodes, none,
        Option.elim_some, Network.starts, Network.stops, List.countP_nil] at starts stops ⊢
      omega
  | addFailed busy fails =>
      obtain ⟨starts, stops, -⟩ := launch_fails_happenings fails instanceId
      rw [busy]
      simp only [Fate.weigh, Activity.carries, Activity.nodes, Option.elim_some, Network.starts,
        Network.stops, List.countP_nil] at starts stops ⊢
      omega
  | @built launch started _ _ _ busy | @builtLast launch started _ busy =>
      have fresh := (usable_of_building names busy).free
      obtain ⟨starts, stops⟩ := started_happenings network launch started instanceId
      have inserted : (network.registry.insert launch.config.name
          (network.nodeOf launch started)).carries instanceId =
            network.registry.carries instanceId + if started = instanceId then 1 else 0 :=
        inserted_carries fresh _ instanceId
      rw [busy]
      simp only [Fate.weigh, Activity.carries, Activity.nodes, Option.elim_some, Network.starts,
        Network.stops, List.countP_nil] at starts stops inserted ⊢
      omega
  | @started _ launch started busy =>
      obtain ⟨starts, stops⟩ := started_happenings network launch started instanceId
      rw [busy]
      simp only [Fate.weigh, Activity.carries, Activity.nodes, Option.elim_some, Network.starts,
        Network.stops, List.countP_nil, List.countP_singleton, decide_eq_true_eq, nodeOf,
        Node.ofStarted] at starts stops ⊢
      omega
  | @registered _ name node _ busy =>
      have reserved := pending_of_reserved sound names busy rfl
      have free := (names.registry.usable_of_pending reserved).free
      have inserted := inserted_carries free node instanceId
      rw [busy, inserted]
      simp only [Fate.weigh, Activity.carries, Activity.nodes, Option.elim_some,
        List.countP_singleton, decide_eq_true_eq]
      rfl
  | spawnedBuilding busy | spawnedAdding busy | tooLate busy | lost busy | asked busy
  | cancelled busy | left busy =>
      rw [busy]
      rfl
  | @unbuilt node _ _ _ _ _ busy | @unbuiltLast node _ _ _ busy | @withdrawn _ node _ _ busy
  | @removed _ _ node _ _ busy | @stopped _ node _ _ _ _ _ busy | @stoppedLast _ node _ _ _ busy
  | @cleared _ node _ _ _ _ busy | @clearedLast _ node _ _ busy =>
      obtain ⟨starts, stops⟩ := stopped_happenings network node instanceId
      rw [busy]
      simp only [Fate.weigh, Activity.carries, Activity.nodes, Option.elim_some, Network.starts,
        Network.stops, List.countP_cons, List.countP_nil, decide_eq_true_eq] at starts stops ⊢
      omega

theorem turn_launches (sound : Sound network) (turn : Turn network call action shared fate)
    (instanceId : Nat) :
    shared.starts instanceId + fate.weigh (Activity.launches instanceId) +
        (if instanceId < network.nextInstance then 1 else 0) ≤
      network.starts instanceId +
          (network.activity? call).elim 0 (Activity.launches instanceId) +
        (if instanceId < shared.nextInstance then 1 else 0) := by
  cases turn with
  | refused | answered | reserved | taken | drained | drainedNone =>
      rw [sound.fresh]
      exact Nat.le_refl _
  | @spawnedBuilding launch _ busy | @spawnedAdding _ launch busy =>
      have unstarted : (Happening.spawned launch.config launch.args :: network.happenings).countP
          (Happening.starts instanceId) = network.starts instanceId := rfl
      rw [busy]
      simp only [starts, Fate.weigh, Activity.launches, Activity.launch?, Option.bind_some,
        Option.some.injEq, Option.elim_some] at unstarted ⊢
      grind
  | buildFailed busy fails | buildFailedAlone busy fails | addFailed busy fails =>
      obtain ⟨unstarted, -, later⟩ := launch_fails_happenings fails instanceId
      rw [busy]
      simp only [starts, Fate.weigh, Activity.launches, Activity.launch?, Option.bind_none,
        Option.elim_some] at unstarted ⊢
      grind
  | @built launch started _ _ _ busy spawned | @builtLast launch started _ busy spawned
  | @started _ launch started busy spawned =>
      obtain ⟨started, -⟩ := started_happenings network launch started instanceId
      rw [busy]
      simp only [starts, Fate.weigh, Activity.launches, Activity.launch?, launchOf, spawned,
        Option.bind_some, Option.bind_none, Option.some.injEq, Option.elim_some] at started ⊢
      grind
  | registered busy | tooLate busy | lost busy | asked busy | cancelled busy | left busy =>
      rw [busy]
      exact Nat.le_refl _
  | @unbuilt node _ _ _ _ _ busy | @unbuiltLast node _ _ _ busy | @withdrawn _ node _ _ busy
  | @removed _ _ node _ _ busy | @stopped _ node _ _ _ _ _ busy | @stoppedLast _ node _ _ _ busy
  | @cleared _ node _ _ _ _ busy | @clearedLast _ node _ _ busy =>
      rw [busy]
      exact Nat.le_refl _

theorem polls_counted {polls : List Happening} {checks : List CheckId}
    (onlyPolls : ∀ happening ∈ polls, Happening.IsPoll checks happening) (instanceId : Nat) :
    polls.countP (Happening.starts instanceId) = 0 ∧
      polls.countP (Happening.stops instanceId) = 0 := by
  constructor <;>
  · apply List.countP_eq_zero.mpr
    intro happening member
    have poll := onlyPolls happening member
    cases happening with
    | polled => exact Bool.false_ne_true
    | _ => exact poll.elim

theorem custody_move {next : Network} (sound : Sound network) (names : NamesSound network)
    (custody : Custody network) (move : Move network action next) : Custody next := by
  cases move with
  | @turn call _ shared fate turn =>
      refine ⟨fun instanceId => ?_, fun instanceId => ?_⟩
      · have change := turn_balance sound names turn instanceId
        have total := turn_tally sound turn (Activity.carries instanceId)
        have before := custody.balance instanceId
        simp only [starts, stops, settle_happenings, settle_registry] at change before ⊢
        omega
      · have change := turn_launches sound turn instanceId
        have total := turn_tally sound turn (Activity.launches instanceId)
        have before := custody.once instanceId
        simp only [starts, settle_happenings, settle_nextInstance] at change before ⊢
        omega
  | aside aside watched onlyPolls =>
      refine ⟨fun instanceId => ?_, fun instanceId => ?_⟩
      · obtain ⟨noStart, noStop⟩ := polls_counted onlyPolls instanceId
        have before := custody.balance instanceId
        simp only [starts, stops, List.countP_append, noStart, noStop, Nat.zero_add] at before ⊢
        exact before
      · obtain ⟨noStart, -⟩ := polls_counted onlyPolls instanceId
        have before := custody.once instanceId
        simp only [starts, List.countP_append, noStart, Nat.zero_add] at before ⊢
        exact before
  | shuffled same =>
      refine ⟨fun instanceId => ?_, custody.once⟩
      have kept := same.countP_eq (fun entry => decide (entry.2.instanceId = instanceId))
      have before := custody.balance instanceId
      simp only [Registry.carries] at before ⊢
      rw [kept]
      exact before

theorem custody_construct (config : NetworkConfig) : Custody (construct config) := by
  generalize same : construct config = network
  have fresh : Fresh config network := same ▸ fresh_construct config
  cases fresh with
  | rejected | empty | begun => exact ⟨fun _ => rfl, fun _ => Nat.zero_le _⟩

theorem reachable_custody {config : NetworkConfig} (reachable : Reachable config network) :
    Custody network := by
  have kept := @reachable_keeps config network (fun network => NamesSound network ∧ Custody network)
    reachable
    (fun _ _ _ sound holds move =>
      ⟨names_move sound holds.1 move, custody_move sound holds.1 holds.2 move⟩)
    ⟨names_construct config, custody_construct config⟩
  exact kept.2

/-- What has started and has not been stopped is held once. -/
theorem Custody.held_eq (custody : Custody network) (instanceId : Nat) :
    network.holdings.countP (·.2.instanceId = instanceId) + network.stops instanceId =
      network.starts instanceId := by
  rw [holdings_count, custody.balance]

theorem Custody.starts_le_one (custody : Custody network) (instanceId : Nat) :
    network.starts instanceId ≤ 1 := by
  have once := custody.once instanceId
  split at once <;> omega

theorem Custody.stops_le_starts (custody : Custody network) (instanceId : Nat) :
    network.stops instanceId ≤ network.starts instanceId :=
  Nat.le.intro (Nat.add_comm _ _ |>.trans (custody.held_eq instanceId))

end Network

end LocalNet
