import LocalNet.Proofs.Network.Course
import LocalNet.Proofs.Network.Custody

/-!
# The registry under concurrent calls

Names never clash, nothing is replaced, and what is registered is told by the history alone: what has
joined and has not been taken out. Reads answer accordingly, a node that was taken out never comes
back, and of two adds that succeed under one name the later one follows a remove.
-/

namespace LocalNet.Network

variable {config : NetworkConfig} {network next : Network} {action : Action}
variable {history : List (Network × Action)}

theorem keeps_of_joining (sound : Sound network) {node : Node}
    (joined : joining? (network, action) = some node) : Keeps network := by
  unfold joining? at joined
  split at joined
  · rename_i state call same
    cases same
    split at joined
    · rename_i launch rest busy
      obtain ⟨rfl, constructing⟩ := sound.builder _ _ busy trivial
      refine ⟨?_, .inr ⟨launch, rest, busy⟩⟩
      cases stopped : network.registry.stopped with
      | false => rfl
      | true =>
          have running := (sound.closed stopped).2
          exact absurd (running.symm.trans constructing) (by simp)
    · cases joined
  · rename_i state call same
    cases same
    split at joined
    · rename_i name other busy
      split at joined
      · cases joined
      · rename_i opened
        exact ⟨by simpa using opened, .inl (sound.running_of_busy busy id)⟩
    · cases joined
  · cases joined

theorem nodes_of_joining (sound : Sound network) (names : NamesSound network)
    (step : network.step? action = some next) {node : Node}
    (joined : joining? (network, action) = some node) :
    node.name ∉ network.registry.nodes.map Prod.fst ∧
      next.registry.nodes = network.registry.nodes ++ [(node.name, node)] := by
  cases move_nodes_change sound names (move_of_step sound.one_builder step) with
  | joins same stays fresh nodes =>
      cases joined.symm.trans same
      exact ⟨fresh, nodes⟩
  | leaves unjoined | keeps unjoined | givesUp unjoined =>
      exact absurd (unjoined.symm.trans joined) (by simp)

/-- The second locked section of an add registers a node if and only if the add succeeds with it. -/
theorem commit_succeeds_iff (sound : Sound network) {call : CallId}
    (step : network.step? (.commit call) = some next) (node : Node) :
    joining? (network, .commit call) = some node ↔ next.outcome? call = some (.node node) := by
  obtain ⟨shared, fate, turn, rfl⟩ := commit_turn step
  have unended : shared.outcome? call = none :=
    (turn_outcome turn call).trans (sound.not_over turn)
  cases turn with
  | registered busy opened =>
      rw [settle_outcome_self _ _ rfl]
      simp [joining?, busy, opened]
  | tooLate busy stopped =>
      rw [settle_outcome_none _ _ _ rfl, unended]
      simp [joining?, busy, stopped]
  | lost busy =>
      rw [settle_outcome_self _ _ rfl]
      simp [joining?, busy]
  | buildFailed busy fails | buildFailedAlone busy fails | addFailed busy fails =>
      cases fails

theorem left_between {early middle late : List (Network × Action)} {one two : Network × Action}
    (trace : Trace (construct config) (early ++ one :: middle ++ two :: late) network)
    {node other : Node} (first : joining? one = some node) (second : joining? two = some other)
    (same : node.name = other.name) :
    ∃ entry ∈ middle, entry.2 = .begin (.remove node.name) ∧ leaving? entry = some node := by
  suffices left : ∃ entry ∈ middle, leaving? entry = some node by
    obtain ⟨entry, taken, left⟩ := left
    obtain ⟨name, removes, opened, found⟩ := leaving_eq_some left
    have reachable := reachable_of_mem trace
      (List.mem_append_left _ (List.mem_append_right early (List.mem_cons_of_mem one taken)))
    obtain rfl := (reachable_names reachable).registry.name_of_found found
    exact ⟨entry, taken, removes, left⟩
  apply Decidable.byContradiction
  intro stayed
  have member : Member (early ++ one :: middle) node :=
    ⟨early, one, middle, rfl, first, fun entry later left => stayed ⟨entry, later, left⟩⟩
  obtain ⟨state, action⟩ := two
  obtain ⟨before, later, step, -⟩ := trace.split
  have reachable := reachable_of_trace before
  have sound := reachable_sound reachable
  have keeps := keeps_of_joining sound second
  have registered := (registered_iff_member before keeps node.name node).mpr ⟨rfl, member⟩
  obtain ⟨fresh, -⟩ := nodes_of_joining sound (reachable_names reachable) step second
  exact fresh (same ▸ List.mem_map_of_mem registered)

/-- A node that was taken out is registered no more, whatever the stop of its process answers. -/
theorem removed_stays_out {early late : List (Network × Action)} {entry : Network × Action}
    {node : Node} (trace : Trace (construct config) (early ++ entry :: late) network)
    (left : leaving? entry = some node) :
    ∀ registered ∈ network.registry.nodes, registered.2.instanceId ≠ node.instanceId := by
  have reachable := reachable_of_trace trace
  have custody := reachable_custody reachable
  have balance := custody.balance node.instanceId
  have once := custody.starts_le_one node.instanceId
  intro registered member same
  have counted : 0 < network.registry.carries node.instanceId :=
    List.countP_pos_iff.mpr ⟨registered, member, by simpa using same⟩
  rcases remove_course trace left with busy | ⟨answer, -, -, stopped⟩
  · have held := weight_le_tally (reachable_sound reachable).distinct busy
      (Activity.carries node.instanceId)
    have one : (Activity.removing node.name node).carries node.instanceId = 1 := by
      simp [Activity.carries, Activity.nodes]
    omega
  · have stops : 0 < network.stops node.instanceId :=
      List.countP_pos_iff.mpr ⟨_, stopped, by simp [Happening.stops]⟩
    omega

theorem keeps_of_running (running : network.standing = .running)
    (opened : network.registry.stopped = false) : Keeps network :=
  ⟨opened, .inl running⟩

theorem found_iff_member (trace : Trace (construct config) history network)
    (keeps : Keeps network) (name : String) (node : Node) :
    network.registry.find? name = some node ↔ node.name = name ∧ Member history node := by
  rw [(reachable_names (reachable_of_trace trace)).registry.find_iff_mem]
  exact registered_iff_member trace keeps name node

theorem get_answers_member (trace : Trace (construct config) history network)
    (running : network.standing = .running) (opened : network.registry.stopped = false)
    (name : String) :
    ∃ next, network.step? (.begin (.get name)) = some next ∧
      ((∃ node, node.name = name ∧ Member history node ∧
          next.outcome? network.nextCall = some (.node node)) ∨
        (∀ node, Member history node → node.name ≠ name) ∧
          next.outcome? network.nextCall = some (.failed (.nodeNotFound name))) := by
  have found := found_iff_member trace (keeps_of_running running opened) name
  refine ⟨network.begin (.get name), by simp [step?, running], ?_⟩
  cases looked : network.registry.find? name with
  | some node =>
      obtain ⟨named, member⟩ := (found node).mp looked
      refine .inl ⟨node, named, member, ?_⟩
      simp [begin, Registry.get, opened, looked, finish, outcome?]
  | none =>
      refine .inr ⟨fun node member named => ?_, ?_⟩
      · exact absurd (looked.symm.trans ((found node).mpr ⟨named, member⟩)) (by simp)
      · simp [begin, Registry.get, opened, looked, finish, outcome?]

theorem names_list_members (trace : Trace (construct config) history network)
    (running : network.standing = .running) (opened : network.registry.stopped = false) :
    ∃ next names, network.step? (.begin .names) = some next ∧
      next.outcome? network.nextCall = some (.names names) ∧ names.Nodup ∧
      ∀ name, name ∈ names ↔ ∃ node, node.name = name ∧ Member history node := by
  have registered := registered_iff_member trace (keeps_of_running running opened)
  have names := (reachable_names (reachable_of_trace trace)).registry
  refine ⟨network.begin .names, network.registry.nodes.map Prod.fst, by simp [step?, running], ?_,
    (List.nodup_append.mp names.distinct).1, ?_⟩
  · simp [begin, Registry.nodeNames, opened, finish, outcome?]
  · intro name
    rw [List.mem_map]
    constructor
    · rintro ⟨⟨key, node⟩, member, rfl⟩
      exact ⟨node, (registered key node).mp member⟩
    · rintro ⟨node, facts⟩
      exact ⟨(name, node), (registered name node).mpr facts, rfl⟩

theorem remove_takes_out (trace : Trace (construct config) history network)
    (running : network.standing = .running) (opened : network.registry.stopped = false)
    {node : Node} (member : Member history node) :
    leaving? (network, .begin (.remove node.name)) = some node ∧
      ∃ next, network.step? (.begin (.remove node.name)) = some next ∧
        next.registry.nodes = network.registry.nodes.filter (·.1 ≠ node.name) := by
  have found := (found_iff_member trace (keeps_of_running running opened) node.name node).mpr
    ⟨rfl, member⟩
  refine ⟨by simp [leaving?, opened, found], network.begin (.remove node.name),
    by simp [step?, running], ?_⟩
  simp [begin, Registry.take_of_found opened found, setActivity]

def Adds (history : List (Network × Action)) (call : CallId) (name : String) : Prop :=
  ∃ state config args, (state, .begin (.add config args)) ∈ history ∧ state.nextCall = call ∧
    config.name = name

theorem added_of_outcome (trace : Trace (construct config) history network) {call : CallId}
    {name : String} (named : name ≠ "") (adds : Adds history call name) {node : Node}
    (finished : network.outcome? call = some (.node node)) :
    node.name = name ∧ CommittedBy call history node := by
  obtain ⟨state, given, args, begun, rfl, rfl⟩ := adds
  have sound := reachable_sound (reachable_of_trace trace)
  obtain ⟨early, late, rfl⟩ := List.append_of_mem begun
  rcases add_course trace with inFlight | ⟨outcome, same, ended⟩
  · obtain ⟨activity, busy⟩ := inFlight.busy
    exact absurd ((sound.finished _ _ finished).1.symm.trans busy) (by simp)
  · obtain rfl := Option.some.inj (same.symm.trans finished)
    rcases ended with ended | ⟨reason, failed⟩
    · cases ended with
      | registered resolves started committed =>
          obtain ⟨entry, taken, facts⟩ := committed
          exact ⟨resolves.2 named, entry,
            List.mem_append_right _ (List.mem_cons_of_mem _ taken), facts⟩
    · cases failed

theorem split_at_two {Entry : Type} {entries : List Entry} {left right : Entry}
    (different : left ≠ right) (first : left ∈ entries) (second : right ∈ entries) :
    ∃ early middle late, entries = early ++ left :: middle ++ right :: late ∨
      entries = early ++ right :: middle ++ left :: late := by
  obtain ⟨before, after, rfl⟩ := List.append_of_mem first
  rcases List.mem_append.mp second with earlier | later
  · obtain ⟨early, middle, rfl⟩ := List.append_of_mem earlier
    exact ⟨early, middle, after, .inr rfl⟩
  · rcases List.mem_cons.mp later with same | later
    · exact absurd same.symm different
    · obtain ⟨middle, late, rfl⟩ := List.append_of_mem later
      exact ⟨before, middle, late, .inl (by simp)⟩

/-- Of two adds that succeed under one name the later one follows a remove of the earlier one's
node. -/
theorem remove_between_adds (trace : Trace (construct config) history network)
    {first second : CallId} (different : first ≠ second) {name : String} (named : name ≠ "")
    (firstAdds : Adds history first name) (secondAdds : Adds history second name)
    {left right : Node} (firstOver : network.outcome? first = some (.node left))
    (secondOver : network.outcome? second = some (.node right)) :
    ∃ early one middle two late, history = early ++ one :: middle ++ two :: late ∧
      (one.2 = .commit first ∧ two.2 = .commit second ∨
        one.2 = .commit second ∧ two.2 = .commit first) ∧
      ∃ entry ∈ middle, entry.2 = .begin (.remove name) ∧ leaving? entry = joining? one := by
  obtain ⟨leftNamed, one, oneTaken, oneCommits, oneJoins⟩ :=
    added_of_outcome trace named firstAdds firstOver
  obtain ⟨rightNamed, two, twoTaken, twoCommits, twoJoins⟩ :=
    added_of_outcome trace named secondAdds secondOver
  have apart : one ≠ two := by
    rintro rfl
    exact different (Action.commit.inj (oneCommits.symm.trans twoCommits))
  obtain ⟨early, middle, late, rfl | rfl⟩ := split_at_two apart oneTaken twoTaken
  · obtain ⟨entry, taken, removes, left⟩ :=
      left_between trace oneJoins twoJoins (leftNamed.trans rightNamed.symm)
    exact ⟨early, one, middle, two, late, rfl, .inl ⟨oneCommits, twoCommits⟩, entry, taken,
      leftNamed ▸ removes, left.trans oneJoins.symm⟩
  · obtain ⟨entry, taken, removes, left⟩ :=
      left_between trace twoJoins oneJoins (rightNamed.trans leftNamed.symm)
    exact ⟨early, two, middle, one, late, rfl, .inr ⟨twoCommits, oneCommits⟩, entry, taken,
      rightNamed ▸ removes, left.trans twoJoins.symm⟩

/-- In every state of every run, registered and reserved names are distinct and usable, each
reservation belongs to one add between its two locked sections and each such add has one, a node stands
under its own name, and a node that joins is added where none has its name; where it joins by an add,
that add succeeds. While the network runs,
reads answer with the nodes that have joined and have not been taken out; a remove takes its node out
for good and ends with what the stop of the process answers; and of two adds that succeed under one
name the later one follows a remove of the earlier one's node. -/
theorem registry_names_never_clash (trace : Trace (construct config) history network) :
    (∀ name ∈ network.registry.nodes.map Prod.fst, name ∉ network.registry.pending) ∧
      (network.registry.nodes.map Prod.fst).Nodup ∧ network.registry.pending.Nodup ∧
      (∀ name ∈ network.registry.pending,
        ∃! call, (network.activity? call).bind Activity.reserved? = some name) ∧
      (∀ call name, (network.activity? call).bind Activity.reserved? = some name →
        name ∈ network.registry.pending) ∧
      (∀ entry ∈ network.registry.nodes, entry.1 = entry.2.name) ∧
      (∀ name ∈ network.registry.taken, name ≠ "" ∧ isValidNodeName name = true) ∧
      (∀ action next node, network.step? action = some next →
        joining? (network, action) = some node →
        node.name ∉ network.registry.nodes.map Prod.fst ∧
          next.registry.nodes = network.registry.nodes ++ [(node.name, node)]) ∧
      (∀ call next node, network.step? (.commit call) = some next →
        (joining? (network, .commit call) = some node ↔
          next.outcome? call = some (.node node))) ∧
      (network.standing = .running → network.registry.stopped = false →
        (∀ name, ∃ next, network.step? (.begin (.get name)) = some next ∧
          ((∃ node, node.name = name ∧ Member history node ∧
              next.outcome? network.nextCall = some (.node node)) ∨
            (∀ node, Member history node → node.name ≠ name) ∧
              next.outcome? network.nextCall = some (.failed (.nodeNotFound name)))) ∧
        (∃ next names, network.step? (.begin .names) = some next ∧
          next.outcome? network.nextCall = some (.names names) ∧ names.Nodup ∧
          ∀ name, name ∈ names ↔ ∃ node, node.name = name ∧ Member history node) ∧
        ∀ node, Member history node →
          leaving? (network, .begin (.remove node.name)) = some node ∧
            ∃ next, network.step? (.begin (.remove node.name)) = some next ∧
              next.registry.nodes =
                network.registry.nodes.filter (·.1 ≠ node.name)) ∧
      (∀ early entry late node, history = early ++ entry :: late →
        leaving? entry = some node →
        (∀ registered ∈ network.registry.nodes,
          registered.2.instanceId ≠ node.instanceId) ∧
        RemoveCourse entry.1.nextCall node late network) ∧
      ∀ first second name left right, first ≠ second → name ≠ "" →
        Adds history first name → Adds history second name →
        network.outcome? first = some (.node left) →
        network.outcome? second = some (.node right) →
        ∃ early one middle two late, history = early ++ one :: middle ++ two :: late ∧
          (one.2 = .commit first ∧ two.2 = .commit second ∨
            one.2 = .commit second ∧ two.2 = .commit first) ∧
          ∃ entry ∈ middle,
            entry.2 = .begin (.remove name) ∧ leaving? entry = joining? one := by
  have reachable := reachable_of_trace trace
  have sound := reachable_sound reachable
  have names := reachable_names reachable
  obtain ⟨registered, pending, disjoint⟩ := List.nodup_append.mp names.registry.distinct
  refine ⟨fun name member reserved => disjoint name member name reserved rfl, registered, pending,
    unique_add_of_pending sound names, ?_, names.registry.keyed, names.registry.usable,
    fun action next node step joined => nodes_of_joining sound names step joined,
    fun call next node step => commit_succeeds_iff sound step node, ?_, ?_, ?_⟩
  · intro call name reserved
    obtain ⟨activity, busy, reserves⟩ := Option.bind_eq_some_iff.mp reserved
    exact pending_of_reserved sound names busy reserves
  · intro running opened
    exact ⟨get_answers_member trace running opened, names_list_members trace running opened,
      fun node member => remove_takes_out trace running opened member⟩
  · rintro early entry late node rfl left
    exact ⟨removed_stays_out trace left, remove_course trace left⟩
  · intro first second name left right different named firstAdds secondAdds firstOver secondOver
    exact remove_between_adds trace different named firstAdds secondAdds firstOver secondOver

def overlappingAdds : List Action :=
  [.spawnReturns 0 (.ok ()), .startReturns 0 (.ok ()), .begin (.add (plainNode "twin") []),
    .begin (.add (plainNode "twin") []), .spawnReturns 1 (.ok ())]

theorem overlapping_adds_reserve_once :
    ∃ history network, Trace (construct { nodes := [plainNode "first"] }) history network ∧
      history.map Prod.snd = overlappingAdds ∧ network.standing = .running ∧
      "twin" ∈ network.registry.pending ∧
      (∃! call, (network.activity? call).bind Activity.reserved? = some "twin") ∧
      ∃ next names, network.step? (.begin .names) = some next ∧
        next.outcome? network.nextCall = some (.names names) ∧ names.Nodup := by
  have ran : ((construct { nodes := [plainNode "first"] }).run? overlappingAdds).map
      (fun last => (last.standing, last.registry.stopped, last.registry.pending)) =
        some (.running, false, ["twin"]) := by
    decide +kernel
  obtain ⟨network, run, facts⟩ := Option.map_eq_some_iff.mp ran
  simp only [Prod.mk.injEq] at facts
  obtain ⟨running, opened, pending⟩ := facts
  obtain ⟨history, trace, taken⟩ := trace_of_run run
  obtain ⟨-, -, -, unique, -, -, -, -, -, reads, -⟩ := registry_names_never_clash trace
  have reserved : "twin" ∈ network.registry.pending := by simp [pending]
  obtain ⟨-, ⟨next, names, step, finished, distinct, -⟩, -⟩ := reads running opened
  exact ⟨history, network, trace, taken, running, reserved, unique _ reserved, next, names, step,
    finished, distinct⟩

end LocalNet.Network
