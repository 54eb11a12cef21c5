import LocalNet.Proofs.Network.Custody
import LocalNet.Proofs.Network.Progress

/-!
# No process is leaked, and none is stopped twice

Whatever operations overlap, a live instance has one owner. So when a network comes to rest, either
all its instances are stopped, once each, or the live ones are those of its registry.
-/

namespace LocalNet.Network

variable {network : Network}

theorem Custody.one_owner (custody : Custody network) {instanceId : Nat}
    (live : network.Live instanceId) :
    ∃ owner node, network.holdings.filter (·.2.instanceId = instanceId) = [(owner, node)] := by
  have held := custody.held_eq instanceId
  have once := custody.starts_le_one instanceId
  obtain ⟨started, unstopped⟩ := live
  rw [List.countP_eq_length_filter] at held
  have single : (network.holdings.filter (·.2.instanceId = instanceId)).length = 1 := by omega
  obtain ⟨⟨owner, node⟩, only⟩ := List.length_eq_one_iff.mp single
  exact ⟨owner, node, only⟩

theorem Custody.live_of_held (custody : Custody network) {owner : Owner} {node : Node}
    (held : (owner, node) ∈ network.holdings) : network.Live node.instanceId := by
  have counted : 0 < network.holdings.countP (·.2.instanceId = node.instanceId) :=
    List.countP_pos_iff.mpr ⟨_, held, by simp⟩
  have balance := custody.held_eq node.instanceId
  have once := custody.starts_le_one node.instanceId
  constructor <;> omega

theorem holdings_of_quiescent (quiescent : Quiescent network) :
    network.holdings =
      network.registry.nodes.map fun entry => (.entry entry.1, entry.2) := by
  have idle : network.activities = [] := quiescent
  simp [holdings, idle]

theorem Custody.stops_of_unheld (custody : Custody network) {instanceId : Nat}
    (unheld : network.holdings = []) : network.stops instanceId = network.starts instanceId := by
  have balance := custody.held_eq instanceId
  rw [unheld, List.countP_nil] at balance
  omega

/-- In every state that a network can come to, an instance that has started and has not been stopped
has exactly one owner, nothing else is held, and no instance is started or stopped twice. At rest, a
network that was stopped or refused has stopped each of its instances once, and the live instances of
one that still runs are those of its registry. From everywhere, rest can be reached without further
calls. -/
theorem live_instance_has_one_owner {config : NetworkConfig}
    (reachable : Reachable config network) :
    (∀ instanceId, network.Live instanceId →
        ∃ owner node,
          network.holdings.filter (·.2.instanceId = instanceId) = [(owner, node)]) ∧
      (∀ owner node, (owner, node) ∈ network.holdings → network.Live node.instanceId) ∧
      (∀ instanceId, network.starts instanceId ≤ 1 ∧
        network.stops instanceId ≤ network.starts instanceId) ∧
      (Quiescent network →
        (network.registry.stopped = true ∨ ∃ reason, network.standing = .refused reason) →
        ∀ instanceId, network.stops instanceId = network.starts instanceId) ∧
      (Quiescent network → network.registry.stopped = false → network.standing = .running →
        ∀ instanceId, network.Live instanceId ↔
          ∃ entry ∈ network.registry.nodes, entry.2.instanceId = instanceId) ∧
      ∃ history last, Trace network history last ∧ Quiescent last ∧
        ∀ entry ∈ history, ¬entry.2.IsBegin := by
  have sound := reachable_sound reachable
  have custody := reachable_custody reachable
  refine ⟨fun _ => custody.one_owner, fun _ _ => custody.live_of_held,
    fun instanceId => ⟨custody.starts_le_one instanceId, custody.stops_le_starts instanceId⟩,
    ?_, ?_, trace_to_quiescent sound⟩
  · intro quiescent finished instanceId
    have emptied : network.registry.nodes = [] := by
      rcases finished with stopped | ⟨reason, refused⟩
      · exact (sound.closed stopped).1
      · exact (sound.refused reason refused).2
    apply custody.stops_of_unheld
    rw [holdings_of_quiescent quiescent, emptied]
    rfl
  · intro quiescent opened running instanceId
    constructor
    · intro live
      obtain ⟨owner, node, only⟩ := custody.one_owner live
      have held : (owner, node) ∈ network.holdings.filter (·.2.instanceId = instanceId) :=
        only ▸ List.mem_singleton_self _
      obtain ⟨member, same⟩ := List.mem_filter.mp held
      rw [holdings_of_quiescent quiescent] at member
      obtain ⟨entry, registered, equal⟩ := List.mem_map.mp member
      cases equal
      exact ⟨entry, registered, by simpa using same⟩
    · rintro ⟨entry, registered, rfl⟩
      have member : (Owner.entry entry.1, entry.2) ∈ network.holdings :=
        List.mem_append_left _ (List.mem_map_of_mem registered)
      exact custody.live_of_held member

theorem overtaken_add_stops_both :
    ∃ network, Reachable { nodes := [plainNode "first"] } network ∧ Quiescent network ∧
      network.registry.stopped = true ∧ network.starts 0 = 1 ∧ network.stops 0 = 1 ∧
      network.starts 1 = 1 ∧ network.stops 1 = 1 := by
  have ran : ((construct { nodes := [plainNode "first"] }).run? overtakenAdd).map
      (fun last => (last.activities.isEmpty, last.registry.stopped, last.starts 0, last.starts 1)) =
        some (true, true, 1, 1) := by
    decide +kernel
  obtain ⟨network, run, facts⟩ := Option.map_eq_some_iff.mp ran
  simp only [Prod.mk.injEq, List.isEmpty_iff] at facts
  obtain ⟨quiescent, stopped, first, second⟩ := facts
  have reachable := reachable_of_run run
  have stops := (live_instance_has_one_owner reachable).2.2.2.1 quiescent (.inl stopped)
  exact ⟨network, reachable, quiescent, stopped, first, (stops 0).trans first, second,
    (stops 1).trans second⟩

end LocalNet.Network
