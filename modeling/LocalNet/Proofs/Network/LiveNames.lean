import Mathlib.Algebra.Order.BigOperators.Group.List
import Mathlib.Algebra.Order.Ring.Nat
import LocalNet.Proofs.Network.Ownership

/-!
# Live instances of one name

A name belongs to one node from its reservation until the node is taken out or the network is stopped.
What a remove has taken out holds its name no more, although its process goes on until its stop
returns. So of all live instances of a name at most one is not on its way out by a remove, and there may
be others beside it.
-/

namespace LocalNet

namespace Activity

/-- How often an activity holds a name: by its reservation, or by the nodes that it stops for the whole
network. A remove holds none. -/
def holds (name : String) : Activity → Nat
  | .adding launch => if launch.config.name = name then 1 else 0
  | .committing other _ => if other = name then 1 else 0
  | .unbuilding nodes _ => nodes.countP (·.name = name)
  | .withdrawing node => if node.name = name then 1 else 0
  | .stopping nodes _ _ _ => nodes.countP (·.name = name)
  | .clearing nodes => nodes.countP (·.name = name)
  | .building .. | .removing .. => 0

/-- The nodes that an activity has and is not removing. -/
def keeps : Activity → List Node
  | .removing .. => []
  | other => other.nodes

theorem keeps_le_holds {activity : Activity} (sound : activity.Sound) (name : String) :
    activity.keeps.countP (·.name = name) ≤ activity.holds name := by
  cases activity with
  | committing other launched =>
      cases launched with
      | error => exact Nat.zero_le _
      | ok node =>
          obtain rfl : node.name = other := sound
          simp [keeps, nodes, holds, List.countP_cons]
  | withdrawing node => simp [keeps, nodes, holds, List.countP_cons]
  | building | adding | removing => exact Nat.zero_le _
  | unbuilding | stopping | clearing => exact Nat.le_refl _

/-- What is in flight only once a network is stopped. -/
def Closes : Activity → Prop
  | .withdrawing _ => True
  | .stopping .. => True
  | .clearing _ => True
  | _ => False

end Activity

namespace Registry

def holds (name : String) (registry : Registry) : Nat :=
  registry.nodes.countP (·.1 = name)

theorem not_held_of_free {registry : Registry} {name : String} (free : name ∉ registry.taken) :
    registry.holds name = 0 := by
  apply List.countP_eq_zero.mpr
  intro entry member same
  obtain rfl : entry.1 = name := by simpa using same
  exact free (List.mem_append_left _ (List.mem_map_of_mem member))

theorem inserted_holds {registry : Registry} {name : String} (free : name ∉ registry.taken)
    (node : Node) (other : String) :
    (registry.insert name node).holds other =
      registry.holds other + if name = other then 1 else 0 := by
  rw [insert_fresh free]
  simp [holds]

/-- A node stands under its own name, so that entries and nodes are counted alike. -/
theorem NamesSound.held_nodes {registry : Registry} (sound : registry.NamesSound)
    (name : String) :
    (registry.nodes.map Prod.snd).countP (·.name = name) = registry.holds name := by
  rw [List.countP_map]
  apply List.countP_congr
  intro entry member
  simp [sound.keyed entry member]

end Registry

namespace Network

structure NamesHeld (network : Network) : Prop where
  closing : network.registry.stopped = false → ∀ call activity,
    network.activity? call = some activity → ¬activity.Closes
  once : ∀ name, network.registry.holds name + network.tally (Activity.holds name) ≤ 1

variable {network shared : Network} {call : CallId} {action : Action} {fate : Fate}

theorem turn_closes (turn : Turn network call action shared fate)
    (held : NamesHeld network) (opened : shared.registry.stopped = false) {activity : Activity}
    (next : fate.activity? = some activity ∨ fate.leftover? = some activity) :
    ¬activity.Closes := by
  cases turn with
  | reserved | taken | spawnedBuilding | spawnedAdding | buildFailed | addFailed | built | started
  | unbuilt =>
      obtain rfl : _ = activity := by simpa [Fate.activity?, Fate.leftover?] using next
      exact id
  | drained => cases opened
  | tooLate busy stopped => exact absurd (opened.symm.trans stopped) (by simp)
  | asked busy | stopped busy | cleared busy | cancelled busy | left busy =>
      exact absurd trivial (held.closing opened _ _ busy)
  | refused | answered | drainedNone | buildFailedAlone | builtLast | registered | lost
  | unbuiltLast | withdrawn | removed | stoppedLast | clearedLast =>
      simp [Fate.activity?, Fate.leftover?] at next

theorem not_held_of_free (sound : Sound network) (names : NamesSound network)
    (held : NamesHeld network) (opened : network.registry.stopped = false)
    (bare : ∀ call nodes reason, network.activity? call ≠ some (.unbuilding nodes reason))
    {name : String} (free : name ∉ network.registry.taken) :
    network.registry.holds name + network.tally (Activity.holds name) = 0 := by
  rw [Registry.not_held_of_free free, Nat.zero_add]
  apply Nat.eq_zero_of_not_pos
  intro positive
  obtain ⟨call, activity, busy, heavy⟩ := exists_of_tally_pos sound.distinct positive
  have reserved (same : activity.reserved? = some name) : False :=
    free (List.mem_append_right _ (pending_of_reserved sound names busy same))
  cases activity with
  | building | removing => exact absurd heavy (Nat.lt_irrefl _)
  | adding launch =>
      apply reserved
      by_cases same : launch.config.name = name
      · exact congrArg some same
      · simp [Activity.holds, same] at heavy
  | committing other =>
      apply reserved
      by_cases same : other = name
      · exact congrArg some same
      · simp [Activity.holds, same] at heavy
  | unbuilding nodes reason => exact bare _ _ _ busy
  | withdrawing | stopping | clearing => exact held.closing opened _ _ busy trivial

/-- A turn hands the names of its call on, or it takes up one that nobody holds. -/
theorem turn_holds (sound : Sound network) (names : NamesSound network)
    (held : NamesHeld network) (turn : Turn network call action shared fate) (name : String) :
    shared.registry.holds name + fate.weigh (Activity.holds name) ≤
        network.registry.holds name + (network.activity? call).elim 0 (Activity.holds name) ∨
      network.registry.holds name + network.tally (Activity.holds name) = 0 ∧
        shared.registry.holds name + fate.weigh (Activity.holds name) ≤ 1 := by
  cases turn with
  | refused | answered =>
      left
      rw [sound.fresh]
      exact Nat.le_refl _
  | @reserved config resolved args _ _ running opened judged =>
      have free := (validate_added_node_ok judged).2.free
      have bare (call : CallId) (nodes : List Node) (reason : NetworkError) :
          network.activity? call ≠ some (.unbuilding nodes reason) := by
        intro busy
        have constructing := (sound.builder _ _ busy trivial).2
        exact absurd (running.symm.trans constructing) (by simp)
      by_cases same : resolved.name = name
      · subst same
        have none := not_held_of_free sound names held opened bare free
        refine .inr ⟨none, ?_⟩
        simp only [Registry.holds, Fate.weigh, Activity.holds, launchOf, if_true] at none ⊢
        omega
      · left
        rw [sound.fresh]
        simp [Registry.holds, Fate.weigh, Activity.holds, launchOf, same]
  | @taken other node _ running opened found =>
      left
      rw [sound.fresh]
      simp only [Registry.holds, Fate.weigh, Activity.holds, Option.elim_none, Nat.add_zero]
      exact List.filter_sublist.countP_le
  | drained =>
      left
      rw [sound.fresh]
      simp only [Fate.weigh, Activity.holds, names.registry.held_nodes, Option.elim_none]
      simp [Registry.holds]
  | drainedNone running opened none =>
      left
      rw [sound.fresh]
      simp [Registry.holds, Fate.weigh]
  | buildFailed busy =>
      left
      rw [busy]
      simp only [Fate.weigh, Activity.holds, names.registry.held_nodes, Option.elim_some]
      simp [Registry.holds]
  | buildFailedAlone busy fails none =>
      left
      simp [Registry.holds, Fate.weigh]
  | @built launch started _ _ _ busy | @builtLast launch started _ busy =>
      have free := (usable_of_building names busy).free
      have opened : network.registry.stopped = false := by
        cases stopped : network.registry.stopped with
        | false => rfl
        | true =>
            have constructing := (sound.builder _ _ busy trivial).2
            exact absurd ((sound.closed stopped).2.symm.trans constructing) (by simp)
      have inserted := Registry.inserted_holds free (network.nodeOf launch started) name
      by_cases same : launch.config.name = name
      · subst same
        have bare (other : CallId) (nodes : List Node) (reason : NetworkError) :
            network.activity? other ≠ some (.unbuilding nodes reason) := by
          intro unbuilding
          have constructing := (sound.builder _ _ busy trivial).2
          rw [sound.alone constructing unbuilding, busy] at unbuilding
          cases unbuilding
        have none := not_held_of_free sound names held opened bare free
        refine .inr ⟨none, ?_⟩
        rw [inserted]
        simp only [Fate.weigh, Activity.holds, if_true]
        omega
      · left
        rw [inserted, busy]
        simp [Fate.weigh, Activity.holds, same]
  | @registered _ other node _ busy =>
      left
      have reserved := pending_of_reserved sound names busy rfl
      have free := (names.registry.usable_of_pending reserved).free
      have inserted := Registry.inserted_holds free node name
      rw [inserted, busy]
      exact Nat.le_refl _
  | @tooLate _ other node _ busy =>
      left
      obtain rfl : node.name = other := sound.sound _ _ busy
      rw [busy]
      exact Nat.le_refl _
  | lost busy =>
      left
      rw [busy]
      exact Nat.le_add_right _ _
  | spawnedBuilding busy | spawnedAdding busy | addFailed busy | started busy | asked busy
  | cancelled busy | left busy =>
      left
      rw [busy]
      exact Nat.le_refl _
  | unbuilt busy | stopped busy | cleared busy =>
      left
      rw [busy]
      simp only [Fate.weigh, Activity.holds, Option.elim_some, List.countP_cons]
      omega
  | unbuiltLast busy | withdrawn busy | removed busy | stoppedLast busy | clearedLast busy =>
      left
      rw [busy]
      exact Nat.le_add_right _ _

theorem names_held_move {next : Network} (sound : Sound network) (names : NamesSound network)
    (held : NamesHeld network) (move : Move network action next) : NamesHeld next := by
  cases move with
  | @turn call _ shared fate turn =>
      refine ⟨?_, ?_⟩
      · rw [settle_registry]
        intro opened other activity busy
        rcases settle_activity_cases sound turn busy with ⟨_, own⟩ | ⟨_, new⟩ | ⟨_, old⟩
        · exact turn_closes turn held opened (.inl own)
        · exact turn_closes turn held opened (.inr new)
        · apply held.closing _ _ _ old
          cases stopped : network.registry.stopped with
          | false => rfl
          | true => exact absurd ((turn_stopped turn stopped).symm.trans opened) (by simp)
      · intro name
        have total := turn_tally sound turn (Activity.holds name)
        have before := held.once name
        rw [settle_registry]
        rcases turn_holds sound names held turn name with handed | ⟨none, one⟩ <;> omega
  | aside => exact ⟨held.closing, held.once⟩
  | shuffled same =>
      refine ⟨held.closing, fun name => ?_⟩
      have kept := same.countP_eq (fun entry => decide (entry.1 = name))
      have before := held.once name
      simp only [Registry.holds] at before ⊢
      rw [kept]
      exact before

theorem names_held_construct (config : NetworkConfig) : NamesHeld (construct config) := by
  generalize same : construct config = network
  have fresh : Fresh config network := same ▸ fresh_construct config
  cases fresh with
  | rejected | empty => exact ⟨by simp [activity?], fun _ => Nat.zero_le _⟩
  | begun =>
      refine ⟨?_, fun _ => Nat.zero_le _⟩
      intro _ call activity busy
      obtain ⟨_, rfl⟩ := lookup_single busy
      exact id

theorem reachable_names_held {config : NetworkConfig} (reachable : Reachable config network) :
    NamesHeld network := by
  have kept := @reachable_keeps config network
    (fun network => NamesSound network ∧ NamesHeld network) reachable
    (fun _ _ _ sound holds move =>
      ⟨names_move sound holds.1 move, names_held_move sound holds.1 holds.2 move⟩)
    ⟨names_construct config, names_held_construct config⟩
  exact kept.2

/-- The start of the node's process is on record, under the node's own name. -/
def Started (network : Network) (node : Node) : Prop :=
  .started node.name node.instanceId ∈ network.happenings

structure StartsTold (network : Network) : Prop where
  registered : ∀ entry ∈ network.registry.nodes, network.Started entry.2
  inFlight : ∀ call activity, network.activity? call = some activity →
    ∀ node ∈ activity.nodes, network.Started node

theorem turn_registered_started (told : StartsTold network)
    (turn : Turn network call action shared fate) :
    ∀ entry ∈ shared.registry.nodes, shared.Started entry.2 := by
  have remembered {node : Node} (started : network.Started node) : shared.Started node :=
    turn_happenings turn started
  intro entry member
  cases turn with
  | taken => exact remembered (told.registered entry (List.mem_of_mem_filter member))
  | drained | drainedNone | buildFailed | buildFailedAlone => cases member
  | @built launch started | @builtLast launch started =>
      rcases List.mem_append.mp member with old | new
      · exact remembered (told.registered entry (List.mem_of_mem_filter old))
      · rw [List.mem_singleton.mp new]
        exact List.mem_cons_of_mem _ (List.mem_cons_self ..)
  | registered busy =>
      rcases List.mem_append.mp member with old | new
      · exact remembered (told.registered entry (List.mem_of_mem_filter old))
      · rw [List.mem_singleton.mp new]
        exact remembered (told.inFlight _ _ busy _ (List.mem_singleton_self _))
  | _ => exact remembered (told.registered entry member)

theorem turn_held_started (names : NamesSound network) (told : StartsTold network)
    (turn : Turn network call action shared fate) {activity : Activity}
    (next : fate.activity? = some activity ∨ fate.leftover? = some activity) :
    ∀ node ∈ activity.nodes, shared.Started node := by
  have remembered {node : Node} (started : network.Started node) : shared.Started node :=
    turn_happenings turn started
  intro node member
  cases turn with
  | reserved | spawnedBuilding | spawnedAdding | addFailed | built =>
      obtain rfl : _ = activity := by simpa [Fate.activity?, Fate.leftover?] using next
      cases member
  | @taken name found _ running opened looked =>
      obtain rfl : _ = activity := by simpa [Fate.activity?, Fate.leftover?] using next
      obtain rfl := List.mem_singleton.mp member
      exact remembered (told.registered _ (names.registry.find_iff_mem.mp looked))
  | drained | buildFailed =>
      obtain rfl : _ = activity := by simpa [Fate.activity?, Fate.leftover?] using next
      obtain ⟨entry, registered, rfl⟩ := List.mem_map.mp member
      exact remembered (told.registered entry registered)
  | started =>
      obtain rfl : _ = activity := by simpa [Fate.activity?, Fate.leftover?] using next
      rw [List.mem_singleton.mp member]
      exact List.mem_cons_of_mem _ (List.mem_cons_self ..)
  | tooLate busy | asked busy | cancelled busy | left busy =>
      obtain rfl : _ = activity := by simpa [Fate.activity?, Fate.leftover?] using next
      exact remembered (told.inFlight _ _ busy node member)
  | unbuilt busy | stopped busy | cleared busy =>
      obtain rfl : _ = activity := by simpa [Fate.activity?, Fate.leftover?] using next
      exact remembered (told.inFlight _ _ busy node (List.mem_cons_of_mem _ member))
  | refused | answered | drainedNone | buildFailedAlone | builtLast | registered | lost
  | unbuiltLast | withdrawn | removed | stoppedLast | clearedLast =>
      simp [Fate.activity?, Fate.leftover?] at next

theorem starts_told_move {next : Network} (sound : Sound network) (names : NamesSound network)
    (told : StartsTold network) (move : Move network action next) : StartsTold next := by
  cases move with
  | @turn call _ shared fate turn =>
      have same (node : Node) : (shared.settle call fate).Started node ↔ shared.Started node := by
        rw [Started, Started, settle_happenings]
      refine ⟨?_, ?_⟩
      · rw [settle_registry]
        intro entry member
        exact (same _).mpr (turn_registered_started told turn entry member)
      · intro other activity busy node member
        rw [same]
        rcases settle_activity_cases sound turn busy with ⟨_, own⟩ | ⟨_, new⟩ | ⟨_, old⟩
        · exact turn_held_started names told turn (.inl own) node member
        · exact turn_held_started names told turn (.inr new) node member
        · exact turn_happenings turn (told.inFlight _ _ old node member)
  | aside =>
      refine ⟨fun entry member => ?_, fun call activity busy node member => ?_⟩
      · exact List.mem_append_right _ (told.registered entry member)
      · exact List.mem_append_right _ (told.inFlight call activity busy node member)
  | shuffled same =>
      exact ⟨fun entry member => told.registered entry (same.mem_iff.mp member), told.inFlight⟩

theorem starts_told_construct (config : NetworkConfig) : StartsTold (construct config) := by
  generalize same : construct config = network
  have fresh : Fresh config network := same ▸ fresh_construct config
  cases fresh with
  | rejected | empty => exact ⟨by simp, by simp [activity?]⟩
  | begun =>
      refine ⟨by simp, ?_⟩
      intro call activity busy node member
      obtain ⟨_, rfl⟩ := lookup_single busy
      cases member

theorem reachable_starts_told {config : NetworkConfig} (reachable : Reachable config network) :
    StartsTold network := by
  have kept := @reachable_keeps config network
    (fun network => NamesSound network ∧ StartsTold network) reachable
    (fun _ _ _ sound holds move =>
      ⟨names_move sound holds.1 move, starts_told_move sound holds.1 holds.2 move⟩)
    ⟨names_construct config, starts_told_construct config⟩
  exact kept.2

theorem two_le_count {Entry : Type} {entries : List Entry} {test : Entry → Bool}
    {left right : Entry} (different : left ≠ right) (first : left ∈ entries)
    (second : right ∈ entries) (leftPasses : test left = true) (rightPasses : test right = true) :
    2 ≤ entries.countP test := by
  have distinct : [left, right].Nodup := by simpa using different
  have among : [left, right] ⊆ entries.filter test := by
    intro entry member
    rcases List.mem_cons.mp member with rfl | last
    · exact List.mem_filter.mpr ⟨first, leftPasses⟩
    · rw [List.mem_singleton.mp last]
      exact List.mem_filter.mpr ⟨second, rightPasses⟩
  rw [List.countP_eq_length_filter]
  exact distinct.length_le_of_subset among

theorem Custody.started_once (custody : Custody network) {instanceId : Nat} {left right : String}
    (first : .started left instanceId ∈ network.happenings)
    (second : .started right instanceId ∈ network.happenings) : left = right := by
  apply Decidable.byContradiction
  intro different
  have two : 2 ≤ network.starts instanceId :=
    two_le_count (by simpa using different) first second (by simp [Happening.starts])
      (by simp [Happening.starts])
  have once := custody.starts_le_one instanceId
  omega

/-- The nodes that are registered, or held by a call that is no remove. -/
def kept (network : Network) : List Node :=
  network.registry.nodes.map Prod.snd ++
    network.activities.flatMap fun entry => entry.2.keeps

theorem kept_names (sound : Sound network) (names : NamesSound network) (held : NamesHeld network)
    (name : String) : network.kept.countP (·.name = name) ≤ 1 := by
  have inFlight : ((network.activities.map fun entry =>
      entry.2.keeps.countP (·.name = name))).sum ≤ network.tally (Activity.holds name) := by
    apply List.sum_le_sum
    intro entry member
    exact Activity.keeps_le_holds
      (sound.sound _ _ (activity_of_mem sound.distinct member)) name
  have once := held.once name
  rw [kept, List.countP_append, names.registry.held_nodes, List.countP_flatMap]
  exact Nat.le_trans (Nat.add_le_add_left inFlight _) once

/-- A live instance of a name is held by a node of that name, and the node is kept unless it is being
removed. -/
theorem live_node_kept (custody : Custody network) (sound : Sound network)
    (told : StartsTold network) {name : String} {instanceId : Nat}
    (started : .started name instanceId ∈ network.happenings) (live : network.Live instanceId) :
    ∃ node, node.name = name ∧ node.instanceId = instanceId ∧
      (node ∈ network.kept ∨
        ∃ call key, network.activity? call = some (.removing key node)) := by
  obtain ⟨owner, node, only⟩ := custody.one_owner live
  have held : (owner, node) ∈ network.holdings.filter (·.2.instanceId = instanceId) :=
    only ▸ List.mem_singleton_self _
  obtain ⟨member, same⟩ := List.mem_filter.mp held
  obtain rfl : node.instanceId = instanceId := by simpa using same
  rcases List.mem_append.mp member with registered | inFlight
  · obtain ⟨entry, listed, equal⟩ := List.mem_map.mp registered
    cases equal
    refine ⟨entry.2, ?_, rfl, .inl ?_⟩
    · exact custody.started_once (told.registered entry listed) started
    · exact List.mem_append_left _ (List.mem_map_of_mem listed)
  · obtain ⟨⟨call, activity⟩, listed, carried⟩ := List.mem_flatMap.mp inFlight
    obtain ⟨other, carries, equal⟩ := List.mem_map.mp carried
    cases equal
    have busy := activity_of_mem sound.distinct listed
    refine ⟨node, ?_, rfl, ?_⟩
    · exact custody.started_once (told.inFlight _ _ busy node carries) started
    · cases activity with
      | removing key removed =>
          obtain rfl := List.mem_singleton.mp carries
          exact .inr ⟨call, key, busy⟩
      | _ => exact .inl (List.mem_append_right _ (List.mem_flatMap.mpr ⟨_, listed, carries⟩))

/-- Of two live instances of one name at least one was taken out by a remove whose stop of the process
has not returned. -/
theorem live_twin_is_being_removed {config : NetworkConfig} (reachable : Reachable config network)
    {name : String} {left right : Nat} (different : left ≠ right)
    (leftStarted : .started name left ∈ network.happenings) (leftLive : network.Live left)
    (rightStarted : .started name right ∈ network.happenings)
    (rightLive : network.Live right) :
    ∃ call key node, network.activity? call = some (.removing key node) ∧ node.name = name ∧
      (node.instanceId = left ∨ node.instanceId = right) := by
  have sound := reachable_sound reachable
  have custody := reachable_custody reachable
  have told := reachable_starts_told reachable
  obtain ⟨first, firstNamed, rfl, firstHeld⟩ :=
    live_node_kept custody sound told leftStarted leftLive
  obtain ⟨second, secondNamed, rfl, secondHeld⟩ :=
    live_node_kept custody sound told rightStarted rightLive
  rcases firstHeld with firstKept | ⟨call, key, busy⟩
  · rcases secondHeld with secondKept | ⟨call, key, busy⟩
    · have apart : first ≠ second := fun same => different (congrArg Node.instanceId same)
      have two : 2 ≤ network.kept.countP (·.name = name) :=
        two_le_count apart firstKept secondKept (by simpa using firstNamed)
          (by simpa using secondNamed)
      have one := kept_names sound (reachable_names reachable) (reachable_names_held reachable) name
      omega
    · exact ⟨call, key, second, busy, secondNamed, .inr rfl⟩
  · exact ⟨call, key, first, busy, firstNamed, .inl rfl⟩

/-- A node is added under the name of one whose remove still waits for its process to stop. -/
def overlappedRemove : List Action :=
  [.spawnReturns 0 (.ok ()), .startReturns 0 (.ok ()), .begin (.remove "first"),
    .begin (.add (plainNode "first") []), .spawnReturns 2 (.ok ()), .startReturns 2 (.ok ()),
    .commit 2]

theorem overlapped_remove_runs :
    ∃ network, (construct { nodes := [plainNode "first"] }).run? overlappedRemove = some network ∧
      network.standing = .running ∧ network.registry.stopped = false ∧
      (.started "first" 0 ∈ network.happenings ∧ network.Live 0) ∧
      .started "first" 1 ∈ network.happenings ∧ network.Live 1 := by
  have ran : ((construct { nodes := [plainNode "first"] }).run? overlappedRemove).map
      (fun last => (last.standing, last.registry.stopped,
        last.happenings.filter fun happening => happening.starts 0 || happening.starts 1,
        [last.starts 0, last.stops 0, last.starts 1, last.stops 1])) =
          some (.running, false, [.started "first" 1, .started "first" 0], [1, 0, 1, 0]) := by
    decide +kernel
  obtain ⟨network, run, facts⟩ := Option.map_eq_some_iff.mp ran
  simp only [Prod.mk.injEq, List.cons.injEq, and_true] at facts
  obtain ⟨running, opened, told, firstStarts, firstStops, secondStarts, secondStops⟩ := facts
  have happened (instanceId : Nat) (known : Happening.started "first" instanceId ∈
      [Happening.started "first" 1, .started "first" 0]) :
      Happening.started "first" instanceId ∈ network.happenings := by
    rw [← told] at known
    exact List.mem_of_mem_filter known
  refine ⟨network, run, running, opened, ⟨happened 0 (by simp), ?_, firstStops⟩,
    happened 1 (by simp), ?_, secondStops⟩
  · rw [firstStarts]
    exact Nat.zero_lt_one
  · rw [secondStarts]
    exact Nat.zero_lt_one

theorem overlapped_remove_is_under_way :
    ∃ network, Reachable { nodes := [plainNode "first"] } network ∧
      (0 ≠ 1 ∧ (.started "first" 0 ∈ network.happenings ∧ network.Live 0) ∧
        .started "first" 1 ∈ network.happenings ∧ network.Live 1) ∧
      ∃ call key node, network.activity? call = some (.removing key node) ∧
        node.name = "first" ∧ (node.instanceId = 0 ∨ node.instanceId = 1) := by
  obtain ⟨network, run, -, -, ⟨first, firstLive⟩, second, secondLive⟩ := overlapped_remove_runs
  have reachable := reachable_of_run run
  refine ⟨network, reachable, ⟨Nat.zero_ne_one, ⟨first, firstLive⟩, second, secondLive⟩, ?_⟩
  exact live_twin_is_being_removed reachable Nat.zero_ne_one first firstLive second secondLive

/-- A network that runs may have two live instances of one name. -/
theorem live_name_is_not_unique :
    ¬∀ config network, Reachable config network → network.standing = .running →
      network.registry.stopped = false → ∀ name left right,
      .started name left ∈ network.happenings → network.Live left →
      .started name right ∈ network.happenings → network.Live right → left = right := by
  intro unique
  obtain ⟨network, run, running, opened, ⟨first, firstLive⟩, second, secondLive⟩ :=
    overlapped_remove_runs
  have same := unique _ network (reachable_of_run run) running opened "first" 0 1 first firstLive
    second secondLive
  exact Nat.zero_ne_one same

end Network

end LocalNet
