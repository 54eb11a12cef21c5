import LocalNet.Proofs.Network.Registration

/-!
# Stopped is final

The locked section of the first stop call is the moment at which a network is stopped. From then on
nothing is registered, every request is turned down at once and has no consequences, and of all stop
calls that first one alone comes to anything else. An add that was under way then ends with the failure
of its own launch, or stops the node that it has started.
-/

namespace LocalNet.Network

variable {config : NetworkConfig} {network shared next last : Network} {call : CallId}
variable {action : Action} {fate : Fate} {history late : List (Network × Action)}

/-- A stopped network turns a request down and is changed in nothing else. -/
structure TurnedDown (network next : Network) : Prop where
  outcome : next.outcome? network.nextCall = some (.failed .stopped)
  activities : next.activities = network.activities
  checks : next.checks = network.checks
  registry : next.registry = network.registry
  happenings : next.happenings = network.happenings

theorem turned_down (sound : Sound network) (stopped : network.registry.stopped = true)
    {request : Request} (step : network.step? (.begin request) = some next) :
    TurnedDown network next := by
  have others : network.activities.filter (·.1 ≠ network.nextCall) = network.activities := by
    apply List.filter_eq_self.mpr
    intro entry member
    have known := sound.known _ _ (activity_of_mem sound.distinct member)
    simpa using Nat.ne_of_lt known
  have opened_absurd (opened : network.registry.stopped = false) : False := by
    simp [opened] at stopped
  cases move_of_step sound.one_builder step with
  | turn turn =>
      cases turn with
      | refused running refusal =>
          obtain rfl := Option.some.inj
            ((Registry.refusal_of_stopped stopped request).symm.trans refusal)
          exact ⟨settle_outcome_self _ _ rfl, others, rfl, rfl, rfl⟩
      | answered running opened | reserved running opened | taken running opened
      | drained running opened | drainedNone running opened => exact (opened_absurd opened).elim
      | buildFailed busy fails | buildFailedAlone busy fails | addFailed busy fails =>
          cases fails
  | aside aside => exact aside.elim

/-- A call that is over and watches nothing: no step is ever taken for it. -/
structure Spent (call : CallId) (network : Network) : Prop where
  finished : network.outcome? call = some (.failed .stopped)
  unwatched : call ∉ network.checks.map Prod.fst
  begun : call < network.nextCall

theorem Spent.silent (spent : Spent call network) (sound : Sound network)
    (step : network.step? action = some next) :
    action.call? ≠ some call ∧ ∀ check, action ≠ .check call check := by
  refine ⟨over_calls_none sound (move_of_step sound.one_builder step) spent.finished, ?_⟩
  rintro check rfl
  have missing : network.check? call = none := by
    unfold check?
    rw [List.lookup_eq_none_iff]
    intro entry member
    have different : call ≠ entry.1 := fun same =>
      spent.unwatched (same ▸ List.mem_map_of_mem member)
    simpa using different
  simp [step?, stepCheck, missing] at step

theorem spent_move (spent : Spent call network) (sound : Sound network)
    (move : Move network action next) : Spent call next := by
  refine ⟨move_outcome sound move spent.finished, ?_, ?_⟩
  · intro known
    cases move with
    | turn turn =>
        rw [settle_checks] at known
        rcases turn_checks turn call known with old | ⟨new, _⟩
        · exact spent.unwatched old
        · exact absurd (new ▸ spent.begun) (Nat.lt_irrefl _)
    | aside aside watched => exact spent.unwatched (watched ▸ known)
    | shuffled => exact spent.unwatched known
  · exact ((sound_move sound move).finished _ _ (move_outcome sound move spent.finished)).2

theorem turned_down_for_good (sound : Sound network) (stopped : network.registry.stopped = true)
    {request : Request} (step : network.step? (.begin request) = some next)
    (trace : Trace next late last) :
    last.outcome? network.nextCall = some (.failed .stopped) ∧
      ∀ entry ∈ late, entry.2.call? ≠ some network.nextCall ∧
        ∀ check, entry.2 ≠ .check network.nextCall check := by
  have down := turned_down sound stopped step
  have nextSound := sound_move sound (move_of_step sound.one_builder step)
  have spent : Spent network.nextCall next := by
    refine ⟨down.outcome, ?_, (nextSound.finished _ _ down.outcome).2⟩
    rw [down.checks]
    exact fun known => Nat.lt_irrefl _ (sound.watched _ known)
  induction trace with
  | nil => exact ⟨down.outcome, by simp⟩
  | @snoc history state following taken before step ih =>
      have kept := trace_keeps before nextSound
        (fun _ _ _ sound spent move => spent_move spent sound move) spent
      have silent := kept.2.silent kept.1 step
      refine ⟨move_outcome kept.1 (move_of_step kept.1.one_builder step) ih.1, ?_⟩
      intro entry member
      rcases List.mem_append.mp member with old | new
      · exact ih.2 entry old
      · rw [List.mem_singleton.mp new]
        exact silent

theorem stopped_for_good (sound : Sound network) (stopped : network.registry.stopped = true)
    (trace : Trace network late last) :
    last.registry.stopped = true ∧ last.registry.nodes = [] := by
  have kept := @trace_keeps network last late (fun network => network.registry.stopped = true)
    trace sound (fun _ _ _ _ stopped move => move_stopped move stopped) stopped
  exact ⟨kept.2, (kept.1.closed kept.2).1⟩

def Stops (history : List (Network × Action)) (call : CallId) : Prop :=
  ∃ state cancelled, (state, .begin (.stop cancelled)) ∈ history ∧ state.nextCall = call

theorem stops_snoc (history : List (Network × Action)) (network : Network) (action : Action)
    (call : CallId) :
    Stops (history ++ [(network, action)]) call ↔ Stops history call ∨
      (∃ cancelled, action = .begin (.stop cancelled)) ∧ network.nextCall = call := by
  constructor
  · rintro ⟨state, cancelled, member, begun⟩
    rcases List.mem_append.mp member with old | new
    · exact .inl ⟨state, cancelled, old, begun⟩
    · cases List.mem_singleton.mp new
      exact .inr ⟨⟨cancelled, rfl⟩, begun⟩
  · rintro (⟨state, cancelled, member, begun⟩ | ⟨⟨cancelled, rfl⟩, begun⟩)
    · exact ⟨state, cancelled, List.mem_append_left _ member, begun⟩
    · exact ⟨network, cancelled, List.mem_append_right _ (List.mem_singleton_self _), begun⟩

/-- The stop call that has stopped the network: it stops nodes, or has ended in its own way. -/
def StopCourse (call : CallId) (network : Network) : Prop :=
  (∃ nodes asked cancelled firstError,
      network.activity? call = some (.stopping nodes asked cancelled firstError)) ∨
    ∃ outcome, network.outcome? call = some outcome ∧ outcome ≠ .failed .stopped

/-- How a stop call goes on from what it is doing: the nodes that it has left, whether the first one's
process was told to stop, whether the token is known to have fired, and the error that is kept. -/
inductive StopTurn (call : CallId) :
    List Node → Bool → Bool → Option NetworkError → Action → Fate → Prop where
  | asked {left : List Node} {firstError : Option NetworkError} :
    StopTurn call left false false firstError (.askToStop call)
      (.goesOn (.stopping left true false firstError))
  | stopped {node following : Node} {rest : List Node} {firstError : Option NetworkError}
      {answer : Except ProcessError Unit} :
    StopTurn call (node :: following :: rest) true false firstError (.stopReturns call answer)
      (.goesOn (.stopping (following :: rest) false false (keptError node firstError answer)))
  | stoppedLast {node : Node} {firstError : Option NetworkError}
      {answer : Except ProcessError Unit} :
    StopTurn call [node] true false firstError (.stopReturns call answer)
      (.ends ((keptError node firstError answer).elim .done .failed))
  | cancelled {left : List Node} {asked known : Bool} {firstError : Option NetworkError} :
    StopTurn call left asked known firstError (.cancel call)
      (.goesOn (.stopping left asked true firstError))
  | left {nodes : List Node} {asked : Bool} {firstError : Option NetworkError} :
    StopTurn call nodes asked true firstError (.leaveToBackground call)
      (.handsOver (.failed .cancelled) (.clearing nodes))

theorem stop_turn (sound : Sound network) {nodes : List Node} {asked known : Bool}
    {firstError : Option NetworkError}
    (busy : network.activity? call = some (.stopping nodes asked known firstError))
    (turn : Turn network call action shared fate) :
    StopTurn call nodes asked known firstError action fate := by
  obtain ⟨begun, only⟩ := turn_goes_on sound busy
  clear busy
  cases turn with
  | refused | answered | reserved | taken | drained | drainedNone => exact absurd rfl begun
  | asked same =>
      cases only _ same
      exact .asked
  | stopped same =>
      cases only _ same
      exact .stopped
  | stoppedLast same =>
      cases only _ same
      exact .stoppedLast
  | cancelled same =>
      cases only _ same
      exact .cancelled
  | left same =>
      cases only _ same
      exact .left
  | _ =>
      have clash := only _ ‹network.activity? _ = some _›
      cases clash

theorem turn_of_stopping (sound : Sound network) {nodes : List Node} {asked cancelled : Bool}
    {firstError : Option NetworkError}
    (busy : network.activity? call = some (.stopping nodes asked cancelled firstError))
    (turn : Turn network call action shared fate) :
    (∃ nodes asked cancelled firstError,
        fate = .goesOn (.stopping nodes asked cancelled firstError)) ∨
      ∃ outcome, fate.outcome? = some outcome ∧ outcome ≠ .failed .stopped := by
  have told := (sound.sound _ _ busy).2
  cases stop_turn sound busy turn with
  | asked | stopped | cancelled => exact .inl ⟨_, _, _, _, rfl⟩
  | left => exact .inr ⟨_, rfl, by simp⟩
  | @stoppedLast node _ answer =>
      refine .inr ⟨_, rfl, ?_⟩
      -- The error that is kept is that of a process.
      cases kept : keptError node firstError answer with
      | none => simp
      | some reason =>
          obtain ⟨_, _, rfl⟩ := kept_error_process told answer reason kept
          simp

theorem stop_course_move (sound : Sound network) (course : StopCourse call network)
    (move : Move network action next) : StopCourse call next := by
  rcases course with ⟨nodes, asked, cancelled, firstError, busy⟩ | ⟨outcome, finished, own⟩
  · rcases move_call sound move (sound.known _ _ busy) with
      ⟨shared, fate, turn, rfl⟩ | ⟨kept, -⟩
    · have known := (turn_known sound turn).1
      rcases turn_of_stopping sound busy turn with
        ⟨nodes, asked, cancelled, firstError, rfl⟩ | ⟨outcome, ends, own⟩
      · exact .inl ⟨nodes, asked, cancelled, firstError, settle_activity_self shared _ known⟩
      · exact .inr ⟨outcome, settle_outcome_self shared call ends, own⟩
    · exact .inl ⟨nodes, asked, cancelled, firstError, kept.trans busy⟩
  · exact .inr ⟨outcome, move_outcome sound move finished, own⟩

theorem move_opened (opened : network.registry.stopped = false)
    (move : Move network action next) (noStop : ∀ cancelled, action ≠ .begin (.stop cancelled)) :
    next.registry.stopped = false := by
  cases move with
  | turn turn =>
      rw [settle_registry]
      cases turn with
      | drained | drainedNone => exact absurd rfl (noStop _)
      | _ => exact opened
  | aside | shuffled => exact opened

/-- The first stop call stops the network, or finds no node to stop. -/
theorem first_stop (opened : network.registry.stopped = false) {cancelled : Bool}
    (move : Move network (.begin (.stop cancelled)) next) :
    next.registry.stopped = true ∧ StopCourse network.nextCall next := by
  cases move with
  | turn turn =>
      cases turn with
      | refused running refusal => simp [Registry.refusal?, opened] at refusal
      | answered running opened answer => cases answer
      | drained =>
          refine ⟨rfl, .inl ⟨network.registry.nodes.map Prod.snd, false, cancelled, none, ?_⟩⟩
          rw [settle_activity_self _ _ (Nat.lt_succ_self _)]
          rfl
      | drainedNone => exact ⟨rfl, .inr ⟨_, settle_outcome_self _ _ rfl, by simp⟩⟩
      | buildFailed busy fails | buildFailedAlone busy fails | addFailed busy fails =>
          cases fails
  | aside aside => exact aside.elim

/-- Either nobody has stopped the network, or one stop call has, and all others were turned down. -/
def OneStop (history : List (Network × Action)) (network : Network) : Prop :=
  network.registry.stopped = false ∧ (∀ call, ¬Stops history call) ∨
    network.registry.stopped = true ∧ ∃ call, Stops history call ∧ StopCourse call network ∧
      ∀ other, Stops history other → other ≠ call →
        network.outcome? other = some (.failed .stopped)

theorem one_stop_move (sound : Sound network) (one : OneStop history network)
    (step : network.step? action = some next) :
    OneStop (history ++ [(network, action)]) next := by
  have move := move_of_step sound.one_builder step
  rcases one with ⟨opened, none⟩ | ⟨stopped, first, stops, course, others⟩
  · by_cases stop : ∃ cancelled, action = .begin (.stop cancelled)
    · obtain ⟨cancelled, rfl⟩ := stop
      obtain ⟨stopped, course⟩ := first_stop opened move
      refine .inr ⟨stopped, network.nextCall, ?_, course, ?_⟩
      · exact (stops_snoc ..).mpr (.inr ⟨⟨cancelled, rfl⟩, rfl⟩)
      · intro other again different
        rcases (stops_snoc ..).mp again with old | ⟨_, same⟩
        · exact absurd old (none other)
        · exact absurd same.symm different
    · refine .inl ⟨move_opened opened move fun cancelled same => stop ⟨cancelled, same⟩, ?_⟩
      intro call again
      rcases (stops_snoc ..).mp again with old | ⟨new, _⟩
      · exact none call old
      · exact stop new
  · refine .inr ⟨move_stopped move stopped, first, (stops_snoc ..).mpr (.inl stops),
      stop_course_move sound course move, ?_⟩
    intro other again different
    rcases (stops_snoc ..).mp again with old | ⟨⟨cancelled, rfl⟩, rfl⟩
    · exact move_outcome sound move (others other old different)
    · exact (turned_down sound stopped step).outcome

theorem one_stop (trace : Trace (construct config) history network) :
    OneStop history network := by
  induction trace with
  | nil =>
      exact .inl ⟨(untouched_construct config).opened, by simp [Stops]⟩
  | snoc before step ih =>
      exact one_stop_move (reachable_sound (reachable_of_trace before)) ih step

/-- An add that is in flight on a stopped network is never registered: the failure of its launch is
its own, and the node that it has started it stops. -/
theorem add_after_stop {node : NodeConfig} {middle : List (Network × Action)}
    (sound : Sound network) (stopped : network.registry.stopped = true)
    (inFlight : AddInFlight node call middle network) (trace : Trace network late last) :
    AddInFlight node call (middle ++ late) last ∨
      ∃ outcome, last.outcome? call = some outcome ∧
        AddEnded node call (middle ++ late) outcome ∧ ∀ registered, outcome ≠ .node registered := by
  have kept := @trace_follows network last late
    (fun later network => network.registry.stopped = true ∧
      (AddInFlight node call (middle ++ later) network ∨
        ∃ outcome, network.outcome? call = some outcome ∧
          AddEnded node call (middle ++ later) outcome ∧
          ∀ registered, outcome ≠ .node registered))
    trace sound ?_ ⟨stopped, .inl (by rwa [List.append_nil])⟩
  · exact kept.2.2
  · rintro later network next action - sound ⟨stopped, course⟩ move
    refine ⟨move_stopped move stopped, ?_⟩
    rw [← List.append_assoc]
    rcases course with inFlight | ⟨outcome, finished, ended, unregistered⟩
    · rcases add_move sound inFlight move with goesOn | ⟨outcome, finished, ended, closed⟩
      · exact .inl goesOn
      · exact .inr ⟨outcome, finished, ended, closed stopped⟩
    · exact .inr ⟨outcome, move_outcome sound move finished,
        ended.grow (over_calls_none sound move finished), unregistered⟩

theorem in_flight_of_busy {node : NodeConfig} {args : List String} {state : Network}
    {early middle : List (Network × Action)}
    (trace : Trace (construct config) (early ++ (state, .begin (.add node args)) :: middle)
      network) {activity : Activity}
    (busy : network.activity? state.nextCall = some activity) :
    AddInFlight node state.nextCall middle network := by
  rcases add_course trace with inFlight | ⟨outcome, finished, _⟩
  · exact inFlight
  · have sound := reachable_sound (reachable_of_trace trace)
    exact absurd ((sound.finished _ _ finished).1.symm.trans busy) (by simp)

/-- Stopping is final and happens once. A network is stopped as soon as the locked section of a stop
call has been executed; from then on it stays stopped and empty, and every request is turned down with
nothing else changed and no step ever taken for it. All stop calls but one are turned down, and that
one, at rest, has ended otherwise. An add that was in flight when the network was stopped ends with the
failure of its own launch, or it has stopped the node that it had started and ends as stopped. -/
theorem stop_is_final (trace : Trace (construct config) history network) :
    (network.registry.stopped = true ↔ ∃ call, Stops history call) ∧
      (network.registry.stopped = true →
        (∀ late last, Trace network late last →
          last.registry.stopped = true ∧ last.registry.nodes = []) ∧
        (∀ request, ∃ next, network.step? (.begin request) = some next ∧
          TurnedDown network next ∧
          ∀ late last, Trace next late last →
            last.outcome? network.nextCall = some (.failed .stopped) ∧
              ∀ entry ∈ late, entry.2.call? ≠ some network.nextCall ∧
                ∀ check, entry.2 ≠ .check network.nextCall check) ∧
        (∃ call, Stops history call ∧
          network.outcome? call ≠ some (.failed .stopped) ∧
          (Quiescent network → ∃ outcome, network.outcome? call = some outcome) ∧
          ∀ other, Stops history other → other ≠ call →
            network.outcome? other = some (.failed .stopped)) ∧
        ∀ early state node args middle activity,
          history = early ++ (state, .begin (.add node args)) :: middle →
          network.activity? state.nextCall = some activity →
          ∀ late last, Trace network late last →
            (∃ activity, last.activity? state.nextCall = some activity) ∨
              (∃ resolved fault, Resolves node resolved ∧
                LaunchFailed state.nextCall (middle ++ late) fault ∧
                (∀ started, ¬StartedBy state.nextCall (middle ++ late) started) ∧
                last.outcome? state.nextCall =
                  some (.failed (.process resolved.name fault))) ∨
              ∃ started, Resolves node started.config ∧
                StartedBy state.nextCall (middle ++ late) started ∧
                (∀ fault, ¬LaunchFailed state.nextCall (middle ++ late) fault) ∧
                WithdrawnBy state.nextCall (middle ++ late) started ∧
                last.outcome? state.nextCall = some (.failed .stopped)) := by
  have sound := reachable_sound (reachable_of_trace trace)
  have one := one_stop trace
  constructor
  · rcases one with ⟨opened, none⟩ | ⟨stopped, call, stops, -⟩
    · simp [opened, none]
    · simp only [stopped, true_iff]
      exact ⟨call, stops⟩
  intro stopped
  have running := (sound.closed stopped).2
  refine ⟨fun late last => stopped_for_good sound stopped, ?_, ?_, ?_⟩
  · intro request
    have step : network.step? (.begin request) = some (network.begin request) := by
      simp [step?, running]
    exact ⟨_, step, turned_down sound stopped step,
      fun late last => turned_down_for_good sound stopped step⟩
  · rcases one with ⟨opened, -⟩ | ⟨-, call, stops, course, others⟩
    · exact absurd (opened.symm.trans stopped) (by simp)
    · refine ⟨call, stops, ?_, ?_, others⟩
      · intro refused
        rcases course with ⟨_, _, _, _, busy⟩ | ⟨outcome, finished, own⟩
        · exact absurd ((sound.finished _ _ refused).1.symm.trans busy) (by simp)
        · exact own (Option.some.inj (finished.symm.trans refused))
      · intro quiescent
        rcases course with ⟨_, _, _, _, busy⟩ | ⟨outcome, finished, -⟩
        · have idle : network.activities = [] := quiescent
          simp [activity?, idle] at busy
        · exact ⟨outcome, finished⟩
  · rintro early state node args middle activity rfl busy late last later
    have inFlight := in_flight_of_busy trace busy
    rcases add_after_stop sound stopped inFlight later with
      goesOn | ⟨outcome, finished, ended, unregistered⟩
    · exact .inl goesOn.busy
    · cases ended with
      | registered => exact absurd rfl (unregistered _)
      | failed resolves told unstarted =>
          exact .inr (.inl ⟨_, _, resolves, told, unstarted, finished⟩)
      | withdrawn resolves started unfailed withdrawn =>
          exact .inr (.inr ⟨_, resolves, started, unfailed, withdrawn, finished⟩)

theorem overtaken_add_is_turned_down :
    ∃ history network, Trace (construct { nodes := [plainNode "first"] }) history network ∧
      history.map Prod.snd = overtakenAdd ∧ network.registry.stopped = true ∧
      (∃ call, Stops history call) ∧
      (∃ next, network.step? (.begin (.healthy false)) = some next ∧ TurnedDown network next) ∧
      ∃ call outcome, Stops history call ∧ network.outcome? call = some outcome ∧
        outcome ≠ .failed .stopped := by
  have ran : ((construct { nodes := [plainNode "first"] }).run? overtakenAdd).map
      (fun last => (last.activities.isEmpty, last.registry.stopped)) = some (true, true) := by
    decide +kernel
  obtain ⟨network, run, facts⟩ := Option.map_eq_some_iff.mp ran
  simp only [Prod.mk.injEq, List.isEmpty_iff] at facts
  obtain ⟨quiescent, stopped⟩ := facts
  obtain ⟨history, trace, taken⟩ := trace_of_run run
  obtain ⟨stops, final⟩ := stop_is_final trace
  obtain ⟨-, refuses, ⟨call, first, own, ends, -⟩, -⟩ := final stopped
  obtain ⟨next, step, down, -⟩ := refuses (.healthy false)
  obtain ⟨outcome, finished⟩ := ends quiescent
  exact ⟨history, network, trace, taken, stopped, stops.mp stopped, ⟨next, step, down⟩, call,
    outcome, first, finished, fun same => own (same ▸ finished)⟩

end LocalNet.Network
