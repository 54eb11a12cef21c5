import LocalNet.Proofs.Network.LaunchCourse
import LocalNet.Proofs.Network.Stopped

/-!
# Every node is launched from its resolved config

Whatever is done for a launch is done for a config that was accepted, by the construction or by an add.
So whoever is found by its name has come out of a complete launch, of the config and with the client that
it shows.
-/

namespace LocalNet.Network

variable {config : NetworkConfig} {network next : Network} {call : CallId}
variable {action : Action} {history : List (Network × Action)}
variable {timeoutMs : Nat} {given resolved : NodeConfig} {args : List String}
variable {events : List LaunchEvent}

/-- A config that is accepted for a launch, with the call that launches it, the caller's config and the
arguments: of the construction, or of an add. -/
inductive Accepted (config : NetworkConfig) (history : List (Network × Action)) :
    CallId → NodeConfig → NodeConfig → List String → Prop where
  | constructed {accepted : NetworkConfig} {names : NameAllocator} {index : Nat}
      {given resolved : NodeConfig}
      (judged : validateNetwork config [] {} = (.ok accepted, names))
      (listed : config.nodes[index]? = some given)
      (resolves : accepted.nodes[index]? = some resolved) :
    Accepted config history constructionCall given resolved []
  | added {state : Network} {given resolved : NodeConfig} {args : List String}
      (begun : (state, .begin (.add given args)) ∈ history)
      (reserved : (state.registry.reserve given).1 = .ok resolved) :
    Accepted config history state.nextCall given resolved args

theorem reserve_resolves {registry : Registry}
    (reserved : (registry.reserve given).1 = .ok resolved) : Resolves given resolved := by
  unfold Registry.reserve at reserved
  split at reserved
  · cases reserved
  · split at reserved
    · cases reserved
    · rename_i same names judged
      cases reserved
      exact (validate_added_node_ok judged).1

theorem Accepted.resolves
    (accepted : Accepted config history call given resolved args) : Resolves given resolved := by
  cases accepted with
  | @constructed _ _ index _ _ judged listed resolves =>
      have batch := (validate_batch_ok (validate_network_ok judged).1).1
      obtain ⟨inGiven, rfl⟩ := List.getElem?_eq_some_iff.mp listed
      obtain ⟨inAccepted, rfl⟩ := List.getElem?_eq_some_iff.mp resolves
      exact batch.get inGiven inAccepted
  | added begun reserved => exact reserve_resolves reserved

theorem Accepted.grow {longer : List (Network × Action)}
    (accepted : Accepted config history call given resolved args) (within : history ⊆ longer) :
    Accepted config longer call given resolved args := by
  cases accepted with
  | constructed judged listed resolves => exact .constructed judged listed resolves
  | added begun reserved => exact .added (within begun) reserved

theorem accepted_of_listed {accepted : NetworkConfig} {names : NameAllocator}
    (judged : validateNetwork config [] {} = (.ok accepted, names))
    (listed : resolved ∈ accepted.nodes) :
    ∃ given, Accepted config history constructionCall given resolved [] := by
  have batch := (validate_batch_ok (validate_network_ok judged).1).1
  obtain ⟨index, resolves⟩ := List.mem_iff_getElem?.mp listed
  have inAccepted := (List.getElem?_eq_some_iff.mp resolves).1
  have inGiven : index < config.nodes.length := batch.length_eq ▸ inAccepted
  exact ⟨config.nodes[index], .constructed judged (List.getElem?_eq_getElem inGiven) resolves⟩

def Originates (config : NetworkConfig) (history : List (Network × Action)) (call : CallId) :
    Prop :=
  ∃ given resolved args, Accepted config history call given resolved args

theorem Originates.grow {longer : List (Network × Action)}
    (originates : Originates config history call) (within : history ⊆ longer) :
    Originates config longer call := by
  obtain ⟨given, resolved, args, accepted⟩ := originates
  exact ⟨given, resolved, args, accepted.grow within⟩

theorem originates_move (sound : Sound network)
    (originate : ∀ call activity, network.activity? call = some activity → activity.Launches →
      Originates config history call)
    (move : Move network action next) :
    ∀ call activity, next.activity? call = some activity → activity.Launches →
      Originates config (history ++ [(network, action)]) call := by
  have within : history ⊆ history ++ [(network, action)] := List.subset_append_left _ _
  intro call activity busy launches
  cases move with
  | turn turn =>
      rcases settle_activity_cases sound turn busy with ⟨rfl, own⟩ | ⟨-, new⟩ | ⟨-, old⟩
      · rcases launching_turn turn own launches with
          ⟨given, args, resolved, rfl, rfl, reserved, -⟩ | ⟨before, was, launched⟩
        · have begun : (network, .begin (.add given args)) ∈
              history ++ [(network, .begin (.add given args))] :=
            List.mem_append_right _ (List.mem_singleton_self _)
          exact ⟨given, resolved, args, .added begun reserved⟩
        · exact (originate _ _ was launched).grow within
      · cases turn with
        | left =>
            cases new
            exact False.elim launches
        | _ => cases new
      · exact (originate _ _ old launches).grow within
  | aside | shuffled => exact (originate _ _ busy launches).grow within

theorem launches_originate (trace : Trace (construct config) history network) :
    ∀ call activity, network.activity? call = some activity → activity.Launches →
      Originates config history call := by
  have follows := @trace_follows (construct config) network history
    (fun history network => ∀ call activity, network.activity? call = some activity →
      activity.Launches → Originates config history call)
    trace (sound_construct config) ?_ ?_
  · exact follows.2
  · intro history network next action _ sound originate move
    exact originates_move sound originate move
  · generalize same : construct config = network
    have fresh : Fresh config network := same ▸ fresh_construct config
    cases fresh with
    | rejected | empty => simp [activity?]
    | @begun accepted names first rest log judged nodes =>
        intro call activity busy _
        obtain ⟨rfl, -⟩ := lookup_single busy
        have listed : first ∈ accepted.nodes := nodes ▸ List.mem_cons_self ..
        obtain ⟨given, accepted⟩ := accepted_of_listed judged listed
        exact ⟨given, first, [], accepted⟩

theorem events_originate (trace : Trace (construct config) history network)
    {entry : Network × Action} (taken : entry ∈ history) (some : launchEvents entry ≠ []) :
    ∃ call, entry.2.call? = .some call ∧ Originates config history call := by
  obtain ⟨early, late, rfl⟩ := List.append_of_mem taken
  obtain ⟨state, action⟩ := entry
  obtain ⟨before, next, step, -⟩ := trace.split
  have sound := reachable_sound (reachable_of_trace before)
  obtain ⟨call, activity, own, busy, launches⟩ := launching_of_step sound step some
  have originates := launches_originate before call activity busy launches
  exact ⟨call, own, originates.grow (List.subset_append_left _ _)⟩

theorem LaunchCourse.of_registered (course : LaunchCourse timeoutMs resolved args events)
    {node : Node} (member : .register node ∈ events) :
    node.config = resolved ∧ node.client = ⟨"127.0.0.1", resolved.httpPort, timeoutMs⟩ ∧
      events = completeLaunch args node := by
  cases course with
  | registered instanceId =>
      obtain rfl : node = Node.ofStarted instanceId resolved timeoutMs := by simpa using member
      exact ⟨rfl, rfl, rfl⟩
  | begun | unspawned | spawned | unstarted | started => simp at member

theorem LaunchesInOrder.of_registered {configs : List NodeConfig}
    (inOrder : LaunchesInOrder timeoutMs configs events) {node : Node}
    (member : .register node ∈ events) :
    node.config ∈ configs ∧ node.client = ⟨"127.0.0.1", node.config.httpPort, timeoutMs⟩ ∧
      completeLaunch [] node <:+: events := by
  induction inOrder with
  | none => cases member
  | latest course =>
      obtain ⟨same, client, whole⟩ := course.of_registered member
      subst same
      exact ⟨List.mem_cons_self .., client, whole ▸ List.infix_refl _⟩
  | @complete config rest events instanceId later ih =>
      rcases List.mem_append.mp member with here | there
      · obtain rfl : node = Node.ofStarted instanceId config timeoutMs := by
          simpa [completeLaunch] using here
        exact ⟨List.mem_cons_self .., rfl, (List.prefix_append _ _).isInfix⟩
      · obtain ⟨listed, client, within⟩ := ih there
        exact ⟨List.mem_cons_of_mem _ listed, client,
          within.trans (List.suffix_append _ _).isInfix⟩

theorem registered_node_launched (trace : Trace (construct config) history network)
    {entry : Network × Action} (taken : entry ∈ history) {node : Node}
    (joined : joining? entry = some node) :
    node.client = ⟨"127.0.0.1", node.config.httpPort, config.health.apiRequestTimeoutMs⟩ ∧
      ∃ call given args, Accepted config history call given node.config args ∧
        completeLaunch args node <:+: launchedBy call history := by
  have among : LaunchEvent.register node ∈ launchEvents entry := by
    simp [launchEvents, joined]
  obtain ⟨call, own, originates⟩ := events_originate trace taken (List.ne_nil_of_mem among)
  have member : LaunchEvent.register node ∈ launchedBy call history := by
    refine List.mem_flatMap.mpr ⟨entry, taken, ?_⟩
    rw [if_pos own]
    exact among
  obtain ⟨given, resolved, args, accepted⟩ := originates
  cases accepted with
  | constructed judged =>
      obtain ⟨listed, client, whole⟩ := (build_launch_course trace judged).of_registered member
      obtain ⟨given, accepted⟩ := accepted_of_listed judged listed
      exact ⟨client, constructionCall, given, [], accepted, whole⟩
  | added begun reserved =>
      obtain ⟨rfl, client, whole⟩ :=
        (add_launch_course trace begun reserved).of_registered member
      exact ⟨client, _, given, args, .added begun reserved, whole ▸ List.infix_refl _⟩

theorem found_has_joined (trace : Trace (construct config) history network) {name : String}
    {node : Node} (step : network.step? (.begin (.get name)) = some next)
    (answered : next.outcome? network.nextCall = some (.node node)) :
    node.name = name ∧ ∃ entry ∈ history, joining? entry = some node := by
  have sound := reachable_sound (reachable_of_trace trace)
  have running : network.standing = .running := by
    cases standing : network.standing with
    | running => rfl
    | constructing | refused => simp [step?, standing] at step
  cases stopped : network.registry.stopped with
  | true => cases (turned_down sound stopped step).outcome.symm.trans answered
  | false =>
      obtain ⟨other, same, found | missing⟩ := get_answers_member trace running stopped name
      · obtain ⟨member, named, joined, outcome⟩ := found
        cases step.symm.trans same
        cases answered.symm.trans outcome
        obtain ⟨early, entry, late, rfl, joins, -⟩ := joined
        exact ⟨named, entry, List.mem_append_right _ (List.mem_cons_self ..), joins⟩
      · cases step.symm.trans same
        cases answered.symm.trans missing.2

/-- In every run the launches go as accepted. What a config or an add is accepted with is the caller's,
but that a blank name is filled in. The construction launches its nodes one after the other, without
arguments, and each accepted add launches its one node with its arguments: nothing else is ever done for
a launch, and no two spawns return one instance. Whom a get finds has come out of a complete launch: the
config is the one that was spawned, and the client the one that was made for its instance. -/
theorem launches_as_accepted (trace : Trace (construct config) history network) :
    network.happenings.reverse = history.flatMap news ∧
      (∀ call given resolved args, Accepted config history call given resolved args →
        Resolves given resolved) ∧
      (∀ accepted names, validateNetwork config [] {} = (.ok accepted, names) →
        LaunchesInOrder config.health.apiRequestTimeoutMs accepted.nodes
          (launchedBy constructionCall history)) ∧
      (∀ state given args resolved, (state, .begin (.add given args)) ∈ history →
        (state.registry.reserve given).1 = .ok resolved →
        LaunchCourse config.health.apiRequestTimeoutMs resolved args
          (launchedBy state.nextCall history)) ∧
      (∀ entry ∈ history, launchEvents entry ≠ [] →
        ∃ call given resolved args, entry.2.call? = some call ∧
          Accepted config history call given resolved args) ∧
      (returnedInstances history).Nodup ∧
      ∀ name next node, network.step? (.begin (.get name)) = some next →
        next.outcome? network.nextCall = some (.node node) →
        node.name = name ∧
          node.client = ⟨"127.0.0.1", node.config.httpPort, config.health.apiRequestTimeoutMs⟩ ∧
          ∃ call given args, Accepted config history call given node.config args ∧
            completeLaunch args node <:+: launchedBy call history := by
  refine ⟨?_, fun _ _ _ _ accepted => accepted.resolves,
    fun _ _ judged => build_launch_course trace judged,
    fun _ _ _ _ begun reserved => add_launch_course trace begun reserved,
    ?_, ?_, ?_⟩
  · have recorded := happenings_are_news trace (sound_construct config)
    rw [(untouched_construct config).happenings] at recorded
    exact recorded
  · intro entry taken some
    obtain ⟨call, own, given, resolved, args, accepted⟩ := events_originate trace taken some
    exact ⟨call, given, resolved, args, own, accepted⟩
  · have ordered := (returned_instances_grow trace (sound_construct config)).1
    exact ordered.imp Nat.ne_of_lt
  · intro name next node step answered
    obtain ⟨named, entry, taken, joined⟩ := found_has_joined trace step answered
    exact ⟨named, registered_node_launched trace taken joined⟩

/-- A node is added, removed and added again under its name, with other arguments. -/
def addedAgain : List Action :=
  [.spawnReturns 0 (.ok ()), .startReturns 0 (.ok ()), .begin (.add (plainNode "guest") ["once"]),
    .spawnReturns 1 (.ok ()), .startReturns 1 (.ok ()), .commit 1, .begin (.remove "guest"),
    .stopReturns 2 (.ok ()), .begin (.add (plainNode "guest") ["again"]),
    .spawnReturns 3 (.ok ()), .startReturns 3 (.ok ()), .commit 3]

theorem added_again_is_the_later_one :
    ∃ history network next node,
      Trace (construct { nodes := [plainNode "first"] }) history network ∧
      history.map Prod.snd = addedAgain ∧
      network.step? (.begin (.get "guest")) = some next ∧
      next.outcome? network.nextCall = some (.node node) ∧ node.instanceId = 2 ∧
      launchedBy 3 history = completeLaunch ["again"] node ∧ node.name = "guest" ∧
      (returnedInstances history).Nodup ∧
      ∃ call given args,
        Accepted { nodes := [plainNode "first"] } history call given node.config args ∧
          completeLaunch args node <:+: launchedBy call history := by
  have ran : ((construct { nodes := [plainNode "first"] }).run? addedAgain).bind
      (fun network => (network.step? (.begin (.get "guest"))).map fun next =>
        next.outcome? network.nextCall) =
      some (some (.node (Node.ofStarted 2 (plainNode "guest")
        ({ nodes := [plainNode "first"] } : NetworkConfig).health.apiRequestTimeoutMs))) := by
    decide +kernel
  have launched : launchedBy 3
      ((construct { nodes := [plainNode "first"] }).along addedAgain) =
        completeLaunch ["again"] (Node.ofStarted 2 (plainNode "guest")
          ({ nodes := [plainNode "first"] } : NetworkConfig).health.apiRequestTimeoutMs) := by
    decide +kernel
  obtain ⟨network, run, facts⟩ := Option.bind_eq_some_iff.mp ran
  obtain ⟨next, step, answered⟩ := Option.map_eq_some_iff.mp facts
  have trace := trace_along run
  obtain ⟨-, -, -, -, -, distinct, found⟩ := launches_as_accepted trace
  obtain ⟨named, -, origin⟩ := found "guest" next _ step answered
  exact ⟨_, network, next, _, trace, along_actions run, step, answered, rfl, launched, named,
    distinct, origin⟩

end LocalNet.Network
