import LocalNet.Proofs.Network.Membership

/-!
# The course of adds and removes

Whatever else happens, a call goes through the stages of its own operation. The history of a trace
tells for each stage what has led to it, and for each outcome which answers it comes from.
-/

namespace LocalNet.Network

/-- The node that an add has once its process has started. -/
def upcoming? : Network × Action → Option Node
  | (network, .startReturns call (.ok ())) =>
    match network.activity? call with
    | some (.adding launch) => launch.spawned.map (network.nodeOf launch)
    | _ => none
  | _ => none

def StartedBy (call : CallId) (history : List (Network × Action)) (node : Node) : Prop :=
  ∃ entry ∈ history, entry.2 = .startReturns call (.ok ()) ∧ upcoming? entry = some node

/-- The add came too late, and the stop of its node has returned. -/
def WithdrawnBy (call : CallId) (history : List (Network × Action)) (node : Node) : Prop :=
  ∃ state answer, (state, .stopReturns call answer) ∈ history ∧
    state.activity? call = some (.withdrawing node)

def LaunchFailed (call : CallId) (history : List (Network × Action)) (fault : ProcessError) :
    Prop :=
  ∃ state, (state, .spawnReturns call (.error fault)) ∈ history ∨
    (state, .startReturns call (.error fault)) ∈ history

def CommittedBy (call : CallId) (history : List (Network × Action)) (node : Node) : Prop :=
  ∃ entry ∈ history, entry.2 = .commit call ∧ joining? entry = some node

/-- An add that has reserved its name and has not ended, with its history since it began. -/
inductive AddInFlight (config : NodeConfig) (call : CallId) (history : List (Network × Action))
    (network : Network) : Prop where
  | launching {launch : Launch} (busy : network.activity? call = some (.adding launch))
      (resolves : Resolves config launch.config)
      (unstarted : ∀ node, ¬StartedBy call history node)
      (unfailed : ∀ fault, ¬LaunchFailed call history fault)
  | launched {node : Node}
      (busy : network.activity? call = some (.committing node.name (.ok node)))
      (resolves : Resolves config node.config) (started : StartedBy call history node)
      (unfailed : ∀ fault, ¬LaunchFailed call history fault)
  | failed {resolved : NodeConfig} {fault : ProcessError}
      (busy : network.activity? call =
        some (.committing resolved.name (.error (.process resolved.name fault))))
      (resolves : Resolves config resolved) (told : LaunchFailed call history fault)
      (unstarted : ∀ node, ¬StartedBy call history node)
  | withdrawing {node : Node} (busy : network.activity? call = some (.withdrawing node))
      (resolves : Resolves config node.config) (started : StartedBy call history node)
      (unfailed : ∀ fault, ¬LaunchFailed call history fault)

/-- How an add ends once it has reserved its name. -/
inductive AddEnded (config : NodeConfig) (call : CallId) (history : List (Network × Action)) :
    Outcome → Prop where
  | registered {node : Node} (resolves : Resolves config node.config)
      (started : StartedBy call history node) (committed : CommittedBy call history node) :
    AddEnded config call history (.node node)
  | failed {resolved : NodeConfig} {fault : ProcessError} (resolves : Resolves config resolved)
      (told : LaunchFailed call history fault)
      (unstarted : ∀ node, ¬StartedBy call history node) :
    AddEnded config call history (.failed (.process resolved.name fault))
  | withdrawn {node : Node} (resolves : Resolves config node.config)
      (started : StartedBy call history node)
      (unfailed : ∀ fault, ¬LaunchFailed call history fault)
      (withdrawn : WithdrawnBy call history node) :
    AddEnded config call history (.failed .stopped)

section Growth

variable {call : CallId} {history : List (Network × Action)} {node : Node}

theorem StartedBy.grow (started : StartedBy call history node)
    (later : List (Network × Action)) : StartedBy call (history ++ later) node := by
  obtain ⟨entry, member, facts⟩ := started
  exact ⟨entry, List.mem_append_left _ member, facts⟩

theorem WithdrawnBy.grow (withdrawn : WithdrawnBy call history node)
    (later : List (Network × Action)) : WithdrawnBy call (history ++ later) node := by
  obtain ⟨state, answer, member, facts⟩ := withdrawn
  exact ⟨state, answer, List.mem_append_left _ member, facts⟩

theorem LaunchFailed.grow {fault : ProcessError} (told : LaunchFailed call history fault)
    (later : List (Network × Action)) : LaunchFailed call (history ++ later) fault := by
  obtain ⟨state, spawn | start⟩ := told
  · exact ⟨state, .inl (List.mem_append_left _ spawn)⟩
  · exact ⟨state, .inr (List.mem_append_left _ start)⟩

theorem CommittedBy.grow (committed : CommittedBy call history node)
    (later : List (Network × Action)) : CommittedBy call (history ++ later) node := by
  obtain ⟨entry, member, facts⟩ := committed
  exact ⟨entry, List.mem_append_left _ member, facts⟩

theorem not_started_snoc {entry : Network × Action}
    (unstarted : ∀ node, ¬StartedBy call history node)
    (silent : entry.2 ≠ .startReturns call (.ok ())) (node : Node) :
    ¬StartedBy call (history ++ [entry]) node := by
  rintro ⟨taken, member, starts, facts⟩
  rcases List.mem_append.mp member with old | new
  · exact unstarted node ⟨taken, old, starts, facts⟩
  · rw [List.mem_singleton.mp new] at starts
    exact silent starts

theorem not_failed_snoc {entry : Network × Action}
    (unfailed : ∀ fault, ¬LaunchFailed call history fault)
    (silent : ∀ fault, entry.2 ≠ .spawnReturns call (.error fault) ∧
      entry.2 ≠ .startReturns call (.error fault)) (fault : ProcessError) :
    ¬LaunchFailed call (history ++ [entry]) fault := by
  rintro ⟨state, spawn | start⟩
  · rcases List.mem_append.mp spawn with old | new
    · exact unfailed fault ⟨state, .inl old⟩
    · exact (silent fault).1 (List.mem_singleton.mp new ▸ rfl)
  · rcases List.mem_append.mp start with old | new
    · exact unfailed fault ⟨state, .inr old⟩
    · exact (silent fault).2 (List.mem_singleton.mp new ▸ rfl)

theorem silent_of_other {action : Action} (other : action.call? ≠ some call) :
    action ≠ .startReturns call (.ok ()) ∧
      ∀ fault, action ≠ .spawnReturns call (.error fault) ∧
        action ≠ .startReturns call (.error fault) := by
  refine ⟨?_, fun fault => ⟨?_, ?_⟩⟩ <;>
  · rintro rfl
    exact other rfl

theorem AddEnded.grow {config : NodeConfig} {outcome : Outcome} {entry : Network × Action}
    (ended : AddEnded config call history outcome) (other : entry.2.call? ≠ some call) :
    AddEnded config call (history ++ [entry]) outcome := by
  obtain ⟨unstarted, unfailed⟩ := silent_of_other other
  cases ended with
  | registered resolves started committed =>
      exact .registered resolves (started.grow _) (committed.grow _)
  | failed resolves told quiet =>
      exact .failed resolves (told.grow _) (not_started_snoc quiet unstarted)
  | withdrawn resolves started quiet withdrawn =>
      exact .withdrawn resolves (started.grow _) (not_failed_snoc quiet unfailed)
        (withdrawn.grow _)

end Growth

variable {network shared next : Network} {call : CallId} {action : Action} {fate : Fate}

/-- What a turn does to the launch of an add: with the action that is taken, what has happened then. -/
inductive AddTurn (network : Network) (call : CallId) (launch : Launch) :
    Action → List Happening → Fate → Prop where
  | spawned (waiting : launch.spawned = none) :
    AddTurn network call launch (.spawnReturns call (.ok ()))
      (.spawned launch.config launch.args :: network.happenings)
      (.goesOn (.adding { launch with spawned := some network.nextInstance }))
  | failed {action : Action} {reason : ProcessError} {nextInstance : Nat}
      {happenings : List Happening}
      (fails : LaunchFails network call launch action reason nextInstance happenings) :
    AddTurn network call launch action happenings
      (.goesOn (.committing launch.config.name
        (.error (processFault launch.config.name reason))))
  | started {instanceId : Nat} (spawned : launch.spawned = some instanceId) :
    AddTurn network call launch (.startReturns call (.ok ()))
      (network.startedHappenings launch instanceId)
      (.goesOn (.committing launch.config.name (.ok (network.nodeOf launch instanceId))))

theorem add_turn_of_adding (sound : Sound network) {launch : Launch}
    (busy : network.activity? call = some (.adding launch))
    (turn : Turn network call action shared fate) :
    AddTurn network call launch action shared.happenings fate := by
  obtain ⟨begun, only⟩ := turn_goes_on sound busy
  clear busy
  cases turn with
  | refused | answered | reserved | taken | drained | drainedNone => exact absurd rfl begun
  | spawnedAdding same waiting =>
      cases only _ same
      exact .spawned waiting
  | addFailed same fails =>
      cases only _ same
      exact .failed fails
  | started same spawned =>
      cases only _ same
      exact .started spawned
  | _ =>
      have clash := only _ ‹network.activity? _ = some _›
      cases clash

theorem turn_of_adding (sound : Sound network) {launch : Launch}
    (busy : network.activity? call = some (.adding launch))
    (turn : Turn network call action shared fate) :
    (∃ spawned, action = .spawnReturns call (.ok ()) ∧
        fate = .goesOn (.adding { launch with spawned := spawned })) ∨
      (∃ fault, fate = .goesOn (.committing launch.config.name
          (.error (.process launch.config.name fault))) ∧
        (action = .spawnReturns call (.error fault) ∨
          action = .startReturns call (.error fault))) ∨
      ∃ instanceId, launch.spawned = some instanceId ∧ action = .startReturns call (.ok ()) ∧
        fate = .goesOn (.committing launch.config.name (.ok (network.nodeOf launch instanceId))) := by
  generalize happened : shared.happenings = happenings
  cases happened ▸ add_turn_of_adding sound busy turn with
  | spawned => exact .inl ⟨_, rfl, rfl⟩
  | failed fails =>
      cases fails with
      | spawn => exact .inr (.inl ⟨_, rfl, .inl rfl⟩)
      | start => exact .inr (.inl ⟨_, rfl, .inr rfl⟩)
  | started spawned => exact .inr (.inr ⟨_, spawned, rfl, rfl⟩)

theorem turn_of_launched (sound : Sound network) {name : String} {node : Node}
    (busy : network.activity? call = some (.committing name (.ok node)))
    (turn : Turn network call action shared fate) :
    action = .commit call ∧
      (network.registry.stopped = false ∧ fate = .ends (.node node) ∨
        network.registry.stopped = true ∧ fate = .goesOn (.withdrawing node)) := by
  obtain ⟨begun, only⟩ := turn_goes_on sound busy
  clear busy
  cases turn with
  | refused | answered | reserved | taken | drained | drainedNone => exact absurd rfl begun
  | registered same opened =>
      cases only _ same
      exact ⟨rfl, .inl ⟨opened, rfl⟩⟩
  | tooLate same stopped =>
      cases only _ same
      exact ⟨rfl, .inr ⟨stopped, rfl⟩⟩
  | _ =>
      have clash := only _ ‹network.activity? _ = some _›
      cases clash

theorem turn_of_failed (sound : Sound network) {name : String} {reason : NetworkError}
    (busy : network.activity? call = some (.committing name (.error reason)))
    (turn : Turn network call action shared fate) :
    action = .commit call ∧ fate = .ends (.failed reason) := by
  obtain ⟨begun, only⟩ := turn_goes_on sound busy
  clear busy
  cases turn with
  | refused | answered | reserved | taken | drained | drainedNone => exact absurd rfl begun
  | lost same =>
      cases only _ same
      exact ⟨rfl, rfl⟩
  | _ =>
      have clash := only _ ‹network.activity? _ = some _›
      cases clash

theorem turn_of_withdrawing (sound : Sound network) {node : Node}
    (busy : network.activity? call = some (.withdrawing node))
    (turn : Turn network call action shared fate) :
    (∃ answer, action = .stopReturns call answer) ∧ fate = .ends (.failed .stopped) := by
  obtain ⟨begun, only⟩ := turn_goes_on sound busy
  clear busy
  cases turn with
  | refused | answered | reserved | taken | drained | drainedNone => exact absurd rfl begun
  | withdrawn => exact ⟨⟨_, rfl⟩, rfl⟩
  | _ =>
      have clash := only _ ‹network.activity? _ = some _›
      cases clash

theorem turn_of_removing (sound : Sound network) {name : String} {node : Node}
    (busy : network.activity? call = some (.removing name node))
    (turn : Turn network call action shared fate) :
    ∃ answer, action = .stopReturns call answer ∧ fate = .ends (removalOutcome name answer) ∧
      shared.happenings = network.stoppedHappenings node := by
  obtain ⟨begun, only⟩ := turn_goes_on sound busy
  clear busy
  cases turn with
  | refused | answered | reserved | taken | drained | drainedNone => exact absurd rfl begun
  | removed same =>
      cases only _ same
      exact ⟨_, rfl, rfl, rfl⟩
  | _ =>
      have clash := only _ ‹network.activity? _ = some _›
      cases clash

/-- With a turn of the add itself it goes on to its next stage or ends, and it is registered only if
the network is not stopped. -/
theorem add_turn (sound : Sound network) {config : NodeConfig}
    {history : List (Network × Action)} (inFlight : AddInFlight config call history network)
    (turn : Turn network call action shared fate) :
    AddInFlight config call (history ++ [(network, action)]) (shared.settle call fate) ∨
      ∃ outcome, fate.outcome? = some outcome ∧
        AddEnded config call (history ++ [(network, action)]) outcome ∧
        (network.registry.stopped = true → ∀ node, outcome ≠ .node node) := by
  have known := (turn_known sound turn).1
  have taken : (network, action) ∈ history ++ [(network, action)] :=
    List.mem_append_right _ (List.mem_singleton_self _)
  have onward {activity : Activity} (goesOn : fate = .goesOn activity) :
      (shared.settle call fate).activity? call = some activity := by
    rw [settle_activity_self shared fate known, goesOn]
    rfl
  cases inFlight with
  | @launching launch busy resolves unstarted unfailed =>
      rcases turn_of_adding sound busy turn with
        ⟨spawned, rfl, goesOn⟩ | ⟨fault, goesOn, told⟩ | ⟨instanceId, spawned, rfl, goesOn⟩
      · exact .inl (.launching (onward goesOn) resolves
          (not_started_snoc unstarted Action.noConfusion)
          (not_failed_snoc unfailed (by simp)))
      · have silent : action ≠ .startReturns call (.ok ()) := by
          rcases told with rfl | rfl <;> simp
        refine .inl (.failed (onward goesOn) resolves ⟨network, ?_⟩
          (not_started_snoc unstarted silent))
        rcases told with rfl | rfl
        · exact .inl taken
        · exact .inr taken
      · have started : upcoming? (network, .startReturns call (.ok ())) =
            some (network.nodeOf launch instanceId) := by
          simp [upcoming?, busy, spawned]
        exact .inl (@AddInFlight.launched _ _ _ _ (network.nodeOf launch instanceId)
          (onward goesOn) resolves ⟨_, taken, rfl, started⟩
          (not_failed_snoc unfailed (by simp)))
  | @launched node busy resolves started unfailed =>
      obtain ⟨rfl, ⟨opened, ends⟩ | ⟨stopped, goesOn⟩⟩ := turn_of_launched sound busy turn
      · have joined : joining? (network, .commit call) = some node := by
          simp [joining?, busy, opened]
        refine .inr ⟨.node node, by rw [ends]; rfl,
          .registered resolves (started.grow _) ⟨_, taken, rfl, joined⟩, ?_⟩
        exact fun stopped => absurd (opened.symm.trans stopped) (by simp)
      · exact .inl (.withdrawing (onward goesOn) resolves (started.grow _)
          (not_failed_snoc unfailed (by simp)))
  | failed busy resolves told unstarted =>
      obtain ⟨rfl, ends⟩ := turn_of_failed sound busy turn
      exact .inr ⟨_, by rw [ends]; rfl,
        .failed resolves (told.grow _) (not_started_snoc unstarted (by simp)), by simp⟩
  | withdrawing busy resolves started unfailed =>
      obtain ⟨⟨answer, rfl⟩, ends⟩ := turn_of_withdrawing sound busy turn
      exact .inr ⟨.failed .stopped, by rw [ends]; rfl,
        .withdrawn resolves (started.grow _)
          (not_failed_snoc unfailed (by simp)) ⟨network, answer, taken, busy⟩,
        by simp⟩

theorem AddInFlight.carry {config : NodeConfig} {history : List (Network × Action)}
    (inFlight : AddInFlight config call history network)
    (same : next.activity? call = network.activity? call) {entry : Network × Action}
    (other : entry.2.call? ≠ some call) : AddInFlight config call (history ++ [entry]) next := by
  obtain ⟨starts, fails⟩ := silent_of_other other
  cases inFlight with
  | launching busy resolves unstarted unfailed =>
      exact .launching (same.trans busy) resolves (not_started_snoc unstarted starts)
        (not_failed_snoc unfailed fails)
  | launched busy resolves started unfailed =>
      exact .launched (same.trans busy) resolves (started.grow _)
        (not_failed_snoc unfailed fails)
  | failed busy resolves told unstarted =>
      exact .failed (same.trans busy) resolves (told.grow _)
        (not_started_snoc unstarted starts)
  | withdrawing busy resolves started unfailed =>
      exact .withdrawing (same.trans busy) resolves (started.grow _)
        (not_failed_snoc unfailed fails)

theorem AddInFlight.busy {config : NodeConfig} {history : List (Network × Action)}
    (inFlight : AddInFlight config call history network) :
    ∃ activity, network.activity? call = some activity := by
  cases inFlight with
  | launching busy | launched busy | failed busy | withdrawing busy => exact ⟨_, busy⟩

theorem add_move (sound : Sound network) {config : NodeConfig}
    {history : List (Network × Action)} (inFlight : AddInFlight config call history network)
    (move : Move network action next) :
    AddInFlight config call (history ++ [(network, action)]) next ∨
      ∃ outcome, next.outcome? call = some outcome ∧
        AddEnded config call (history ++ [(network, action)]) outcome ∧
        (network.registry.stopped = true → ∀ node, outcome ≠ .node node) := by
  obtain ⟨activity, busy⟩ := inFlight.busy
  rcases move_call sound move (sound.known _ _ busy) with
    ⟨shared, fate, turn, rfl⟩ | ⟨kept, other⟩
  · rcases add_turn sound inFlight turn with goesOn | ⟨outcome, ends, facts⟩
    · exact .inl goesOn
    · exact .inr ⟨outcome, settle_outcome_self shared call ends, facts⟩
  · exact .inl (inFlight.carry kept other)

theorem add_begins {config : NodeConfig} {args : List String}
    (move : Move network (.begin (.add config args)) next) :
    AddInFlight config network.nextCall [] next ∨
      ∃ reason, next.outcome? network.nextCall = some (.failed reason) := by
  cases move with
  | @turn _ _ shared _ turn =>
      cases turn with
      | @refused request reason =>
          exact .inr ⟨reason, settle_outcome_self _ _ rfl⟩
      | answered running opened answer => cases answer
      | @reserved _ resolved _ _ _ running opened judged =>
          refine .inl (@AddInFlight.launching _ _ _ _ (launchOf resolved args) ?_
            (validate_added_node_ok judged).1 ?_ ?_)
          · rw [settle_activity_self _ _ (Nat.lt_succ_self _)]
            rfl
          · rintro node ⟨entry, member, _⟩
            cases member
          · rintro fault ⟨state, member | member⟩ <;> cases member
      | buildFailed busy fails | buildFailedAlone busy fails | addFailed busy fails =>
          cases fails
  | aside aside => exact aside.elim

/-- An add is in flight, has ended as its history tells, or was turned down. -/
def AddCourse (config : NodeConfig) (call : CallId) (history : List (Network × Action))
    (network : Network) : Prop :=
  AddInFlight config call history network ∨
    ∃ outcome, network.outcome? call = some outcome ∧
      (AddEnded config call history outcome ∨ ∃ reason, outcome = .failed reason)

theorem add_course_move (sound : Sound network) {config : NodeConfig}
    {history : List (Network × Action)} (course : AddCourse config call history network)
    (move : Move network action next) :
    AddCourse config call (history ++ [(network, action)]) next := by
  rcases course with inFlight | ⟨outcome, finished, ended⟩
  · rcases add_move sound inFlight move with goesOn | ⟨outcome, finished, ended, _⟩
    · exact .inl goesOn
    · exact .inr ⟨outcome, finished, .inl ended⟩
  · refine .inr ⟨outcome, move_outcome sound move finished, ?_⟩
    exact ended.imp (fun ended => ended.grow (over_calls_none sound move finished)) id

theorem add_course {config : NetworkConfig} {node : NodeConfig} {args : List String}
    {early late : List (Network × Action)} {state : Network}
    (trace : Trace (construct config) (early ++ (state, .begin (.add node args)) :: late)
      network) :
    AddCourse node state.nextCall late network := by
  obtain ⟨before, first, step, rest⟩ := trace.split
  have sound := reachable_sound (reachable_of_trace before)
  have move := move_of_step sound.one_builder step
  refine (trace_follows rest (sound_move sound move) ?_ ?_).2
  · exact fun later network next action _ sound course move =>
      add_course_move sound course move
  · rcases add_begins move with inFlight | ⟨reason, refused⟩
    · exact .inl inFlight
    · exact .inr ⟨_, refused, .inr ⟨reason, rfl⟩⟩

/-- A node that was taken out is still being stopped, or was stopped, and the remove has ended with
the answer. -/
def RemoveCourse (call : CallId) (node : Node) (history : List (Network × Action))
    (network : Network) : Prop :=
  network.activity? call = some (.removing node.name node) ∨
    ∃ answer, (∃ state, (state, .stopReturns call answer) ∈ history) ∧
      network.outcome? call = some (removalOutcome node.name answer) ∧
      .stopped node.name node.instanceId ∈ network.happenings

theorem remove_course_move (sound : Sound network) {node : Node}
    {history : List (Network × Action)} (course : RemoveCourse call node history network)
    (move : Move network action next) :
    RemoveCourse call node (history ++ [(network, action)]) next := by
  rcases course with busy | ⟨answer, ⟨state, member⟩, finished, stopped⟩
  · rcases move_call sound move (sound.known _ _ busy) with
      ⟨shared, fate, turn, rfl⟩ | ⟨kept, -⟩
    · obtain ⟨answer, rfl, rfl, stopped⟩ := turn_of_removing sound busy turn
      refine .inr ⟨answer, ⟨network, ?_⟩, settle_outcome_self shared call rfl, ?_⟩
      · exact List.mem_append_right _ (List.mem_singleton_self _)
      · rw [settle_happenings, stopped]
        exact List.mem_cons_self ..
    · exact .inl (kept.trans busy)
  · exact .inr ⟨answer, ⟨state, List.mem_append_left _ member⟩, move_outcome sound move finished,
      move_happenings move stopped⟩

theorem leaving_eq_some {entry : Network × Action} {node : Node}
    (left : leaving? entry = some node) :
    ∃ name, entry.2 = .begin (.remove name) ∧ entry.1.registry.stopped = false ∧
      entry.1.registry.find? name = some node := by
  unfold leaving? at left
  split at left
  · rename_i name
    split at left
    · cases left
    · rename_i opened
      exact ⟨name, rfl, by simpa using opened, left⟩
  · cases left

theorem remove_begins {name : String} {node : Node} (opened : network.registry.stopped = false)
    (found : network.registry.find? name = some node)
    (move : Move network (.begin (.remove name)) next) :
    next.activity? network.nextCall = some (.removing name node) := by
  cases move with
  | turn turn =>
      cases turn with
      | refused running refusal =>
          simp [Registry.refusal?, opened, found] at refusal
      | answered running opened answer => cases answer
      | taken running opened same =>
          cases found.symm.trans same
          rw [settle_activity_self _ _ (Nat.lt_succ_self _)]
          rfl
      | buildFailed busy fails | buildFailedAlone busy fails | addFailed busy fails =>
          cases fails
  | aside aside => exact aside.elim

theorem remove_course {config : NetworkConfig} {node : Node}
    {early late : List (Network × Action)} {entry : Network × Action}
    (trace : Trace (construct config) (early ++ entry :: late) network)
    (left : leaving? entry = some node) : RemoveCourse entry.1.nextCall node late network := by
  obtain ⟨state, action⟩ := entry
  obtain ⟨name, rfl, opened, found⟩ := leaving_eq_some left
  obtain ⟨before, first, step, rest⟩ := trace.split
  have reachable := reachable_of_trace before
  have sound := reachable_sound reachable
  have named := (reachable_names reachable).registry.name_of_found found
  have move := move_of_step sound.one_builder step
  subst named
  refine (trace_follows rest (sound_move sound move) ?_ ?_).2
  · exact fun later network next action _ sound course move =>
      remove_course_move sound course move
  · exact .inl (remove_begins opened found move)

end LocalNet.Network
