import LocalNet.Proofs.Network.Naming

/-!
# Which nodes are registered

A step joins a node to the registry, or takes one out of it. As long as a network keeps its nodes, the
registered ones are those that have joined and have not left since.
-/

namespace LocalNet.Network

/-- The node that a step registers: a construction's, or that of an add that succeeds. -/
def joining? : Network × Action → Option Node
  | (network, .startReturns call (.ok ())) =>
    match network.activity? call with
    | some (.building launch _) => launch.spawned.map (network.nodeOf launch)
    | _ => none
  | (network, .commit call) =>
    match network.activity? call with
    | some (.committing _ (.ok node)) => if network.registry.stopped then none else some node
    | _ => none
  | _ => none

/-- The node that a step takes out for a remove. -/
def leaving? : Network × Action → Option Node
  | (network, .begin (.remove name)) =>
    if network.registry.stopped then none else network.registry.find? name
  | _ => none

/-- A node that has joined and has not left since. -/
def Member (history : List (Network × Action)) (node : Node) : Prop :=
  ∃ early entry late, history = early ++ entry :: late ∧ joining? entry = some node ∧
    ∀ later ∈ late, leaving? later ≠ some node

/-- A network gives its nodes up when it is stopped, or when its construction fails. -/
def Keeps (network : Network) : Prop :=
  network.registry.stopped = false ∧
    (network.standing = .running ∨
      ∃ launch rest, network.activity? constructionCall = some (.building launch rest))

theorem member_snoc (history : List (Network × Action)) (entry : Network × Action)
    (node : Node) :
    Member (history ++ [entry]) node ↔
      joining? entry = some node ∨ Member history node ∧ leaving? entry ≠ some node := by
  constructor
  · rintro ⟨early, first, late, whole, joined, stayed⟩
    rcases List.eq_nil_or_concat late with rfl | ⟨front, last, rfl⟩
    · obtain ⟨_, same⟩ := List.append_inj' whole rfl
      obtain rfl : entry = first := by simpa using same
      exact .inl joined
    · rw [List.concat_eq_append, ← List.cons_append, ← List.append_assoc] at whole
      obtain ⟨rfl, same⟩ := List.append_inj' whole rfl
      obtain rfl : entry = last := by simpa using same
      refine .inr ⟨⟨early, first, front, rfl, joined, ?_⟩, ?_⟩
      · intro later member
        exact stayed later (by simp [member])
      · exact stayed entry (by simp)
  · rintro (joined | ⟨⟨early, first, late, rfl, joined, stayed⟩, stays⟩)
    · exact ⟨history, entry, [], rfl, joined, by simp⟩
    · refine ⟨early, first, late ++ [entry], by simp, joined, ?_⟩
      intro later member
      rcases List.mem_append.mp member with old | new
      · exact stayed later old
      · rw [List.mem_singleton.mp new]
        exact stays

inductive NodesChange (entry : Network × Action) (next : Network) : Prop where
  /-- A node that joins replaces none. -/
  | joins {node : Node} (joined : joining? entry = some node) (stays : leaving? entry = none)
      (fresh : node.name ∉ entry.1.registry.nodes.map Prod.fst)
      (nodes : next.registry.nodes = entry.1.registry.nodes ++ [(node.name, node)])
  | leaves {node : Node} (unjoined : joining? entry = none) (left : leaving? entry = some node)
      (found : entry.1.registry.find? node.name = some node)
      (nodes : next.registry.nodes = entry.1.registry.nodes.filter (·.1 ≠ node.name))
  | keeps (unjoined : joining? entry = none) (stays : leaving? entry = none)
      (nodes : next.registry.nodes.Perm entry.1.registry.nodes)
  | givesUp (unjoined : joining? entry = none) (stays : leaving? entry = none)
      (given : ¬Keeps next)

variable {network shared next : Network} {call : CallId} {action : Action} {fate : Fate}

theorem launch_fails_entry {launch : Launch} {reason : ProcessError} {nextInstance : Nat}
    {happenings : List Happening}
    (fails : LaunchFails network call launch action reason nextInstance happenings) :
    joining? (network, action) = none ∧ leaving? (network, action) = none := by
  cases fails <;> exact ⟨rfl, rfl⟩

theorem leaving_of_refusal {request : Request} {reason : NetworkError}
    (refusal : network.registry.refusal? request = some reason) :
    leaving? (network, .begin request) = none := by
  cases request with
  | remove name =>
      simp only [Registry.refusal?] at refusal
      simp only [leaving?]
      split
      · rfl
      · rename_i opened
        rw [if_neg opened] at refusal
        cases found : network.registry.find? name with
        | none => rfl
        | some node => simp [found] at refusal
  | add | get | names | stop | healthy => rfl

theorem leaving_of_answer {request : Request} {outcome : Outcome}
    (answer : network.registry.answer? call request = some outcome) :
    leaving? (network, .begin request) = none := by
  cases request with
  | remove => cases answer
  | add | get | names | stop | healthy => rfl

theorem not_registered_of_fresh {registry : Registry} {name : String}
    (fresh : name ∉ registry.taken) : name ∉ registry.nodes.map Prod.fst :=
  fun member => fresh (List.mem_append_left _ member)

theorem Sound.not_running (sound : Sound network) {activity : Activity}
    (busy : network.activity? call = some activity) (builds : activity.Builds) :
    network.standing ≠ .running := by
  rw [(sound.builder _ _ busy builds).2]
  exact Standing.noConfusion

theorem gives_up_of_failed (sound : Sound network)
    (turn : Turn network call action shared fate) (failed : shared.standing ≠ .running)
    (finished : ∀ launch rest, fate ≠ .goesOn (.building launch rest)) :
    ¬Keeps (shared.settle call fate) := by
  rintro ⟨-, running | ⟨launch, rest, busy⟩⟩
  · rw [settle_standing] at running
    exact failed running
  · rcases turn_ordinary_or_building sound turn with ordinary | building
    · exact failed ordinary.standing
    · exact finished launch rest (building_settled sound turn building busy).2

theorem turn_nodes_change (sound : Sound network) (names : NamesSound network)
    (turn : Turn network call action shared fate) :
    NodesChange (network, action) (shared.settle call fate) := by
  have nextNodes : (shared.settle call fate).registry.nodes = shared.registry.nodes :=
    congrArg Registry.nodes (settle_registry shared call fate)
  have nextStopped : (shared.settle call fate).registry.stopped = shared.registry.stopped :=
    congrArg Registry.stopped (settle_registry shared call fate)
  have whole := turn
  cases turn with
  | refused running refusal =>
      exact .keeps rfl (leaving_of_refusal refusal) (nextNodes ▸ .refl _)
  | answered running opened answer =>
      exact .keeps rfl (leaving_of_answer answer) (nextNodes ▸ .refl _)
  | taken running opened found =>
      have named := names.registry.name_of_found found
      subst named
      refine .leaves rfl ?_ found nextNodes
      simp [leaving?, opened, found]
  | drained | drainedNone =>
      refine .givesUp rfl rfl fun keeps => ?_
      cases nextStopped.symm.trans keeps.1
  | buildFailed busy fails =>
      obtain ⟨unjoined, stays⟩ := launch_fails_entry fails
      exact .givesUp unjoined stays
        (gives_up_of_failed sound whole (sound.not_running busy trivial) (by simp))
  | buildFailedAlone busy fails =>
      obtain ⟨unjoined, stays⟩ := launch_fails_entry fails
      exact .givesUp unjoined stays
        (gives_up_of_failed sound whole Standing.noConfusion (by simp))
  | unbuilt busy =>
      exact .givesUp rfl rfl
        (gives_up_of_failed sound whole (sound.not_running busy trivial) (by simp))
  | unbuiltLast =>
      exact .givesUp rfl rfl
        (gives_up_of_failed sound whole Standing.noConfusion (by simp))
  | addFailed busy fails =>
      obtain ⟨unjoined, stays⟩ := launch_fails_entry fails
      exact .keeps unjoined stays (nextNodes ▸ .refl _)
  | @built launch started _ _ _ busy spawned | @builtLast launch started _ busy spawned =>
      have fresh := (usable_of_building names busy).free
      have joined : joining? (network, .startReturns constructionCall (.ok ())) =
          some (network.nodeOf launch started) := by
        simp [joining?, busy, spawned]
      refine .joins joined rfl (not_registered_of_fresh fresh) ?_
      rw [nextNodes, Registry.insert_fresh fresh]
      rfl
  | @registered _ name node _ busy opened =>
      have reserved := pending_of_reserved sound names busy rfl
      have fresh := (names.registry.usable_of_pending reserved).free
      obtain rfl : node.name = name := sound.sound _ _ busy
      have joined : joining? (network, .commit call) = some node := by
        simp [joining?, busy, opened]
      have unregistered := not_registered_of_fresh fresh
      refine .joins joined rfl unregistered ?_
      rw [nextNodes, Registry.insert_fresh fresh]
      rfl
  | tooLate busy stopped =>
      have unjoined : joining? (network, .commit call) = none := by
        simp [joining?, busy, stopped]
      exact .keeps unjoined rfl (nextNodes ▸ .refl _)
  | lost busy =>
      have unjoined : joining? (network, .commit call) = none := by
        simp [joining?, busy]
      exact .keeps unjoined rfl (nextNodes ▸ .refl _)
  | started busy =>
      have unjoined : joining? (network, .startReturns call (.ok ())) = none := by
        simp [joining?, busy]
      exact .keeps unjoined rfl (nextNodes ▸ .refl _)
  | reserved | spawnedBuilding | spawnedAdding | asked | withdrawn | removed | stopped
  | stoppedLast | cleared | clearedLast | cancelled | left =>
      exact .keeps rfl rfl (nextNodes ▸ .refl _)

theorem move_nodes_change (sound : Sound network) (names : NamesSound network)
    (move : Move network action next) : NodesChange (network, action) next := by
  cases move with
  | turn turn => exact turn_nodes_change sound names turn
  | shuffled same => exact .keeps rfl rfl same
  | aside aside =>
      cases action with
      | cancel | check | dropSignal | pass => exact .keeps rfl rfl (.refl _)
      | _ => exact aside.elim

theorem turn_keeps (sound : Sound network) (turn : Turn network call action shared fate)
    (keeps : Keeps (shared.settle call fate)) :
    network.standing = .running ∨
      ∃ launch rest, network.activity? constructionCall = some (.building launch rest) := by
  have whole := turn
  cases turn with
  | refused running | answered running | reserved running | taken running | drained running
  | drainedNone running => exact .inl running
  | spawnedBuilding busy | buildFailed busy | buildFailedAlone busy | built busy
  | builtLast busy => exact .inr ⟨_, _, busy⟩
  | unbuilt busy =>
      exact absurd keeps (gives_up_of_failed sound whole (sound.not_running busy trivial)
        (by simp))
  | unbuiltLast =>
      exact absurd keeps (gives_up_of_failed sound whole Standing.noConfusion (by simp))
  | spawnedAdding busy | addFailed busy | started busy | registered busy | tooLate busy
  | lost busy | asked busy | withdrawn busy | removed busy | stopped busy | stoppedLast busy
  | cleared busy | clearedLast busy | cancelled busy | left busy =>
      exact .inl (sound.running_of_busy busy id)

theorem keeps_of_move (sound : Sound network) (move : Move network action next)
    (keeps : Keeps next) : Keeps network := by
  have opened : network.registry.stopped = false := by
    cases stopped : network.registry.stopped with
    | false => rfl
    | true => exact absurd ((move_stopped move stopped).symm.trans keeps.1) (by simp)
  refine ⟨opened, ?_⟩
  cases move with
  | turn turn => exact turn_keeps sound turn keeps
  | aside | shuffled => exact keeps.2

/-- As long as a network keeps its nodes, the registered ones are the members, each under its own
name. -/
theorem registered_iff_member {config : NetworkConfig} {history : List (Network × Action)}
    (trace : Trace (construct config) history network) (keeps : Keeps network) (name : String)
    (node : Node) :
    (name, node) ∈ network.registry.nodes ↔ node.name = name ∧ Member history node := by
  induction trace generalizing name node with
  | nil =>
      rw [(untouched_construct config).nodes]
      constructor
      · intro member
        cases member
      · rintro ⟨-, early, entry, late, whole, -⟩
        simp at whole
  | @snoc history network next action before step ih =>
      have reachable := reachable_of_trace before
      have sound := reachable_sound reachable
      have names := reachable_names reachable
      have move := move_of_step sound.one_builder step
      have earlier := ih (keeps_of_move sound move keeps)
      rw [member_snoc]
      cases move_nodes_change sound names move with
      | @joins joiner joined stays fresh nodes =>
          rw [nodes, joined, stays, List.mem_append, earlier]
          simp only [List.mem_singleton, Prod.mk.injEq, Option.some.injEq, ne_eq, reduceCtorEq,
            not_false_eq_true, and_true]
          constructor
          · rintro (old | ⟨rfl, rfl⟩)
            · exact ⟨old.1, .inr old.2⟩
            · exact ⟨rfl, .inl rfl⟩
          · rintro ⟨rfl, rfl | old⟩
            · exact .inr ⟨rfl, rfl⟩
            · exact .inl ⟨rfl, old⟩
      | @leaves leaver unjoined left found nodes =>
          have same (registered : (name, node) ∈ network.registry.nodes)
              (named : name = leaver.name) : leaver = node := by
            subst named
            exact Option.some.inj
              (found.symm.trans (names.registry.find_iff_mem.mpr registered))
          rw [nodes, unjoined, left, List.mem_filter, earlier]
          simp only [decide_eq_true_eq, ne_eq, Option.some.injEq, reduceCtorEq, false_or]
          constructor
          · rintro ⟨⟨rfl, old⟩, different⟩
            exact ⟨rfl, old, fun equal => different (congrArg Node.name equal.symm)⟩
          · rintro ⟨rfl, old, stays⟩
            exact ⟨⟨rfl, old⟩, fun named => stays (same ((earlier _ _).mpr ⟨rfl, old⟩) named)⟩
      | keeps unjoined stays nodes =>
          rw [nodes.mem_iff, unjoined, stays, earlier]
          simp
      | givesUp unjoined stays given => exact absurd keeps given

end LocalNet.Network
