import LocalNet.Proofs.Network.Stopped

/-!
# The phases of a shutdown

The call that stops a network goes through its nodes in the order in which it found them, and keeps the
first failure. If its token fires before all stops have returned, it ends as cancelled and hands what is
left, the node whose stop was under way first, to a background call that goes on in the same order.
Which nodes were stopped by whom, and with what answers, is read off the history; the phases that it
goes through are an invariant of the run.
-/

namespace LocalNet.Network

variable {config : NetworkConfig} {start state network shared next last : Network} {call : CallId}
variable {action : Action} {fate : Fate} {history early late : List (Network × Action)}
variable {order : List Node} {cancelled : Bool}

/-- The stop that a step completes for a call: of which node, and with what answer. -/
def ended? (call : CallId) : Network × Action → Option (Node × Except ProcessError Unit)
  | (network, .stopReturns other answer) =>
    if other = call then
      ((network.activity? call).bind Activity.stopping?).map fun node => (node, answer)
    else none
  | _ => none

def asked? (call : CallId) : Network × Action → Option Node
  | (network, .askToStop other) =>
    if other = call then (network.activity? call).bind Activity.stopping? else none
  | _ => none

def stopsBy (call : CallId) (history : List (Network × Action)) :
    List (Node × Except ProcessError Unit) :=
  history.filterMap (ended? call)

def stoppedBy (call : CallId) (history : List (Network × Action)) : List Node :=
  (stopsBy call history).map Prod.fst

def askedBy (call : CallId) (history : List (Network × Action)) : List Node :=
  history.filterMap (asked? call)

/-- A stop that fails is told as the failure of that node's process. -/
def stopFault? : Node × Except ProcessError Unit → Option NetworkError
  | (node, .error reason) => some (.process node.name reason)
  | (_, .ok ()) => none

/-- What a stop call that is not cancelled comes to: the first failure, if there is one. -/
def stopOutcome (stops : List (Node × Except ProcessError Unit)) : Outcome :=
  (stops.findSome? stopFault?).elim .done .failed

/-- The token of a stop call fires before the stops of all its nodes have returned. -/
def Interrupted (order : List Node) (call : CallId) (cancelled : Bool)
    (history : List (Network × Action)) : Prop :=
  cancelled = true ∧ order ≠ [] ∨
    ∃ before state, before ++ [(state, .cancel call)] <+: history ∧ stoppedBy call before ≠ order

/-- How far a call has come with nodes that it stops in order: some are left, and the process of the
first of these may have been told to stop. -/
structure StoppedUpTo (order : List Node) (call : CallId) (history : List (Network × Action))
    (left : List Node) (asked : Bool) : Prop where
  split : stoppedBy call history ++ left = order
  asks : askedBy call history = stoppedBy call history ++ if asked then left.take 1 else []

inductive Shutdown (order : List Node) (call : CallId) (cancelled : Bool)
    (history : List (Network × Action)) (network : Network) : Prop where
  | stopping {left : List Node} {asked known : Bool}
      (busy : network.activity? call =
        some (.stopping left asked known ((stopsBy call history).findSome? stopFault?)))
      (reached : StoppedUpTo order call history left asked)
      (token : known = true ↔ Interrupted order call cancelled history)
  | finished
      (calm : ¬Interrupted order call cancelled history)
      (reached : StoppedUpTo order call history [] false)
      (told : network.outcome? call = some (stopOutcome (stopsBy call history)))
  /-- The call has left in a certain state, and the call that began then goes on with its nodes. -/
  | handedOver {state : Network} {handed left : List Node} {asked : Bool}
      (interrupted : Interrupted order call cancelled history)
      (told : network.outcome? call = some (.failed .cancelled))
      (gone : (state, .leaveToBackground call) ∈ history)
      (nonempty : handed ≠ [])
      (reached : StoppedUpTo order call history handed asked)
      (begun : state.nextCall < network.nextCall)
      (cleared : stoppedBy state.nextCall history ++ left = handed)
      (goesOn : left ≠ [] ∧ network.activity? state.nextCall = some (.clearing left) ∨
        left = [] ∧ network.activity? state.nextCall = none)

theorem first_fault_snoc (stops : List (Node × Except ProcessError Unit)) (node : Node)
    (answer : Except ProcessError Unit) :
    (stops ++ [(node, answer)]).findSome? stopFault? =
      keptError node (stops.findSome? stopFault?) answer := by
  rw [List.findSome?_append]
  cases answer with
  | ok => simp [stopFault?, keptError]
  | error reason => cases stops.findSome? stopFault? <;> rfl

theorem ended_other (network : Network) (other : action.call? ≠ some call) :
    ended? call (network, action) = none ∧ asked? call (network, action) = none := by
  cases action with
  | stopReturns turned answer =>
      have different : turned ≠ call := fun same => other (congrArg some same)
      exact ⟨if_neg different, rfl⟩
  | askToStop turned =>
      have different : turned ≠ call := fun same => other (congrArg some same)
      exact ⟨rfl, if_neg different⟩
  | _ => exact ⟨rfl, rfl⟩

theorem stops_by_snoc (history : List (Network × Action)) (entry : Network × Action)
    (call : CallId) :
    stopsBy call (history ++ [entry]) = stopsBy call history ++ (ended? call entry).toList := by
  cases ended : ended? call entry <;> simp [stopsBy, ended]

theorem asked_by_snoc (history : List (Network × Action)) (entry : Network × Action)
    (call : CallId) :
    askedBy call (history ++ [entry]) = askedBy call history ++ (asked? call entry).toList := by
  cases asked : asked? call entry <;> simp [askedBy, asked]

theorem stopped_by_snoc (history : List (Network × Action)) (entry : Network × Action)
    (call : CallId) :
    stoppedBy call (history ++ [entry]) =
      stoppedBy call history ++ ((ended? call entry).map Prod.fst).toList := by
  rw [stoppedBy, stops_by_snoc, List.map_append]
  cases ended? call entry <;> rfl

theorem interrupted_nil :
    Interrupted order call cancelled [] ↔ cancelled = true ∧ order ≠ [] := by
  simp [Interrupted]

theorem interrupted_snoc :
    Interrupted order call cancelled (history ++ [(network, action)]) ↔
      Interrupted order call cancelled history ∨
        action = .cancel call ∧ stoppedBy call history ≠ order := by
  unfold Interrupted
  constructor
  · rintro (fired | ⟨before, state, within, missing⟩)
    · exact .inl (.inl fired)
    · rcases List.prefix_concat_iff.mp within with whole | within
      · obtain ⟨rfl, same⟩ := List.append_inj' whole rfl
        cases same
        exact .inr ⟨rfl, missing⟩
      · exact .inl (.inr ⟨before, state, within, missing⟩)
  · rintro ((fired | ⟨before, state, within, missing⟩) | ⟨rfl, missing⟩)
    · exact .inl fired
    · exact .inr ⟨before, state, within.trans (List.prefix_append ..), missing⟩
    · exact .inr ⟨history, network, List.prefix_refl _, missing⟩

theorem interrupted_of_other (network : Network) (uncancelled : action ≠ .cancel call) :
    Interrupted order call cancelled (history ++ [(network, action)]) ↔
      Interrupted order call cancelled history := by
  rw [interrupted_snoc]
  exact or_iff_left fun new => uncancelled new.1

theorem ended_begun (trace : Trace start history network) (sound : Sound start)
    (unbegun : network.nextCall ≤ call) : stoppedBy call history = [] := by
  rw [stoppedBy, stopsBy, List.map_eq_nil_iff, List.filterMap_eq_nil_iff]
  intro entry member
  obtain ⟨state, action⟩ := entry
  refine (ended_other state fun goesOn => ?_).1
  exact Nat.not_le_of_lt (trace_calls_begun trace sound _ member call goesOn) unbegun

namespace StoppedUpTo

variable {left : List Node} {asked : Bool}

theorem quiet (reached : StoppedUpTo order call history left asked)
    {entry : Network × Action} (unended : ended? call entry = none)
    (unasked : asked? call entry = none) :
    StoppedUpTo order call (history ++ [entry]) left asked := by
  constructor
  · simpa [stopped_by_snoc, unended] using reached.split
  · simpa [stopped_by_snoc, asked_by_snoc, unended, unasked] using reached.asks

theorem ask (reached : StoppedUpTo order call history left false)
    (first : (network.activity? call).bind Activity.stopping? = left.head?) :
    StoppedUpTo order call (history ++ [(network, .askToStop call)]) left true := by
  have unended : ended? call (network, .askToStop call) = none := rfl
  have asked : asked? call (network, .askToStop call) = left.head? := by
    simpa [asked?] using first
  constructor
  · simpa [stopped_by_snoc, unended] using reached.split
  · simpa [stopped_by_snoc, asked_by_snoc, unended, asked, List.take_one] using reached.asks

theorem stop {node : Node} {rest : List Node} {answer : Except ProcessError Unit}
    (reached : StoppedUpTo order call history (node :: rest) true)
    (ended : ended? call (network, .stopReturns call answer) = some (node, answer)) :
    StoppedUpTo order call (history ++ [(network, .stopReturns call answer)]) rest false := by
  have unasked : asked? call (network, .stopReturns call answer) = none := rfl
  constructor
  · simpa [stopped_by_snoc, ended] using reached.split
  · simpa [stopped_by_snoc, asked_by_snoc, ended, unasked] using reached.asks

end StoppedUpTo

theorem cancel_stopping {nodes : List Node} {asked known : Bool}
    {firstError : Option NetworkError}
    (busy : network.activity? call = some (.stopping nodes asked known firstError)) :
    (network.cancel call).activity? call = some (.stopping nodes asked true firstError) := by
  unfold cancel
  rw [busy]
  simp [activity?, setActivity]

theorem ended_stopping {node : Node} {rest : List Node} {asked known : Bool}
    {firstError : Option NetworkError}
    (busy : network.activity? call = some (.stopping (node :: rest) asked known firstError))
    (answer : Except ProcessError Unit) :
    ended? call (network, .stopReturns call answer) = some (node, answer) := by
  simp [ended?, busy, Activity.stopping?]

namespace Shutdown

variable {left : List Node} {asked known : Bool}

theorem of_cancel (sound : Sound network)
    (busy : network.activity? call =
      some (.stopping left asked known ((stopsBy call history).findSome? stopFault?)))
    (reached : StoppedUpTo order call history left asked) :
    Shutdown order call cancelled (history ++ [(network, .cancel call)])
      (network.cancel call) := by
  have nonempty : left ≠ [] := (sound.sound _ _ busy).1
  have missing : stoppedBy call history ≠ order := by
    intro same
    exact nonempty (List.append_right_eq_self.mp (reached.split.trans same.symm))
  refine @stopping _ _ _ _ _ left asked true ?_ (reached.quiet rfl rfl) ?_
  · simpa [stops_by_snoc, ended?] using cancel_stopping busy
  · simp [interrupted_snoc, missing]

theorem of_stop_turn (trace : Trace start history network) (sound : Sound start)
    (busy : network.activity? call =
      some (.stopping left asked known ((stopsBy call history).findSome? stopFault?)))
    (reached : StoppedUpTo order call history left asked)
    (token : known = true ↔ Interrupted order call cancelled history)
    (turn : Turn network call action shared fate) (uncancelled : action ≠ .cancel call) :
    Shutdown order call cancelled (history ++ [(network, action)])
      (shared.settle call fate) := by
  have soundNow := trace_sound trace sound
  have begun := (turn_known soundNow turn).1
  rw [← interrupted_of_other network uncancelled] at token
  cases stop_turn soundNow busy turn with
  | cancelled => exact absurd rfl uncancelled
  | asked =>
      refine @stopping _ _ _ _ _ left true false ?_ (reached.ask (by rw [busy]; rfl)) token
      rw [settle_activity_self _ _ begun]
      simp [Fate.activity?, stops_by_snoc, ended?]
  | @stopped node following rest _ answer =>
      have ended := ended_stopping busy answer
      refine @stopping _ _ _ _ _ (following :: rest) false false ?_ (reached.stop ended) token
      rw [settle_activity_self _ _ begun, stops_by_snoc, ended]
      simp only [Option.toList_some, first_fault_snoc]
      rfl
  | @stoppedLast node _ answer =>
      have ended := ended_stopping busy answer
      refine .finished (by simpa using token) (reached.stop ended) ?_
      rw [stops_by_snoc, ended, stopOutcome]
      simp only [Option.toList_some, first_fault_snoc]
      exact settle_outcome_self _ _ rfl
  | left =>
      have nonempty : left ≠ [] := (soundNow.sound _ _ busy).1
      have same : shared.nextCall = network.nextCall := by
        rcases turn_call turn with ⟨request, begins, _⟩ | ⟨-, same, -⟩
        · cases begins
        · exact same
      refine @handedOver _ _ _ _ _ network left left asked (token.mp rfl)
        (settle_outcome_self _ _ rfl) ?_ nonempty (reached.quiet rfl rfl) ?_ ?_ ?_
      · exact List.mem_append_right _ (List.mem_singleton_self _)
      · rw [settle_nextCall]
        simp [Fate.leftover?, same]
      · rw [stopped_by_snoc, ended_begun trace sound (Nat.le_refl _)]
        rfl
      · rw [← same]
        exact .inl ⟨nonempty, settle_activity_new _ _ rfl⟩

theorem of_stopping (trace : Trace start history network) (sound : Sound start)
    (busy : network.activity? call =
      some (.stopping left asked known ((stopsBy call history).findSome? stopFault?)))
    (reached : StoppedUpTo order call history left asked)
    (token : known = true ↔ Interrupted order call cancelled history)
    (step : network.step? action = some next) :
    Shutdown order call cancelled (history ++ [(network, action)]) next := by
  have soundNow := trace_sound trace sound
  by_cases fires : action = .cancel call
  · subst fires
    obtain rfl := Option.some.inj step
    exact of_cancel soundNow busy reached
  · have move := move_of_step soundNow.one_builder step
    rcases move_call soundNow move (soundNow.known _ _ busy) with
      ⟨shared, fate, turn, rfl⟩ | ⟨kept, other⟩
    · exact of_stop_turn trace sound busy reached token turn fires
    · obtain ⟨unended, unasked⟩ := ended_other network other
      rw [← interrupted_of_other network fires] at token
      refine @stopping _ _ _ _ _ left asked known ?_ (reached.quiet unended unasked) token
      simpa [stops_by_snoc, unended] using kept.trans busy

theorem of_finished (sound : Sound network)
    (calm : ¬Interrupted order call cancelled history)
    (reached : StoppedUpTo order call history [] false)
    (told : network.outcome? call = some (stopOutcome (stopsBy call history)))
    (move : Move network action next) :
    Shutdown order call cancelled (history ++ [(network, action)]) next := by
  obtain ⟨unended, unasked⟩ := ended_other network (over_calls_none sound move told)
  refine .finished ?_ (reached.quiet unended unasked) ?_
  · rw [interrupted_snoc]
    rintro (before | ⟨-, missing⟩)
    · exact calm before
    · exact missing (by simpa using reached.split)
  · simpa [stops_by_snoc, unended] using move_outcome sound move told

end Shutdown

theorem clear_turn (sound : Sound network) {nodes : List Node}
    (busy : network.activity? call = some (.clearing nodes))
    (turn : Turn network call action shared fate) :
    ∃ node rest answer, nodes = node :: rest ∧ action = .stopReturns call answer ∧
      (rest ≠ [] ∧ fate = .goesOn (.clearing rest) ∨ rest = [] ∧ fate = .vanishes) := by
  obtain ⟨begun, only⟩ := turn_goes_on sound busy
  clear busy
  cases turn with
  | refused | answered | reserved | taken | drained | drainedNone => exact absurd rfl begun
  | cleared same =>
      cases only _ same
      exact ⟨_, _, _, rfl, rfl, .inl ⟨List.cons_ne_nil _ _, rfl⟩⟩
  | clearedLast same =>
      cases only _ same
      exact ⟨_, _, _, rfl, rfl, .inr ⟨rfl, rfl⟩⟩
  | _ =>
      have clash := only _ ‹network.activity? _ = some _›
      cases clash

/-- With each step the nodes that a background call has stopped and those that it still has are
together the same. -/
theorem clearing_move (sound : Sound network) {background : CallId} {handed left : List Node}
    (begun : background < network.nextCall)
    (cleared : stoppedBy background history ++ left = handed)
    (goesOn : left ≠ [] ∧ network.activity? background = some (.clearing left) ∨
      left = [] ∧ network.activity? background = none)
    (move : Move network action next) :
    ∃ rest, stoppedBy background (history ++ [(network, action)]) ++ rest = handed ∧
      (rest ≠ [] ∧ next.activity? background = some (.clearing rest) ∨
        rest = [] ∧ next.activity? background = none) := by
  rcases goesOn with ⟨some, busy⟩ | ⟨none, gone⟩
  · rcases move_call sound move begun with ⟨shared, fate, turn, rfl⟩ | ⟨kept, other⟩
    · obtain ⟨known, -⟩ := turn_known sound turn
      obtain ⟨node, rest, answer, rfl, rfl, onward⟩ := clear_turn sound busy turn
      refine ⟨rest, ?_, ?_⟩
      · simpa [stopped_by_snoc, ended?, busy, Activity.stopping?] using cleared
      · rw [settle_activity_self _ _ known]
        rcases onward with ⟨more, rfl⟩ | ⟨last, rfl⟩
        · exact .inl ⟨more, rfl⟩
        · exact .inr ⟨last, rfl⟩
    · refine ⟨left, ?_, .inl ⟨some, kept.trans busy⟩⟩
      simpa [stopped_by_snoc, (ended_other network other).1] using cleared
  · obtain ⟨stays, other⟩ := move_gone sound move begun gone
    refine ⟨left, ?_, .inr ⟨none, stays⟩⟩
    simpa [stopped_by_snoc, (ended_other network other).1] using cleared

theorem shutdown_step (trace : Trace start history network) (sound : Sound start)
    (shutdown : Shutdown order call cancelled history network)
    (step : network.step? action = some next) :
    Shutdown order call cancelled (history ++ [(network, action)]) next := by
  have soundNow := trace_sound trace sound
  have move := move_of_step soundNow.one_builder step
  cases shutdown with
  | stopping busy reached token => exact .of_stopping trace sound busy reached token step
  | finished calm reached told => exact .of_finished soundNow calm reached told move
  | handedOver interrupted told gone nonempty reached begun cleared goesOn =>
      obtain ⟨unended, unasked⟩ :=
        ended_other network (over_calls_none soundNow move told)
      obtain ⟨rest, cleared, goesOn⟩ := clearing_move soundNow begun cleared goesOn move
      exact .handedOver (interrupted_snoc.mpr (.inl interrupted)) (move_outcome soundNow move told)
        (List.mem_append_left _ gone) nonempty (reached.quiet unended unasked)
        (Nat.lt_of_lt_of_le begun (move_nextCall soundNow move)) cleared goesOn

theorem shutdown_begins (opened : network.registry.stopped = false)
    (move : Move network (.begin (.stop cancelled)) next) :
    Shutdown (network.registry.nodes.map Prod.snd) network.nextCall cancelled [] next := by
  cases move with
  | turn turn =>
      cases turn with
      | refused running refusal => simp [Registry.refusal?, opened] at refusal
      | answered running opened answer => cases answer
      | drained running opened some =>
          refine @Shutdown.stopping _ _ _ _ _ (network.registry.nodes.map Prod.snd) false
            cancelled ?_ ⟨rfl, rfl⟩ (by simp [interrupted_nil, some])
          rw [settle_activity_self _ _ (Nat.lt_succ_self _)]
          rfl
      | drainedNone running opened none =>
          refine .finished (by simp [interrupted_nil, none]) ⟨by simp [none, stoppedBy, stopsBy], rfl⟩ ?_
          exact settle_outcome_self _ _ rfl
      | buildFailed busy fails | buildFailedAlone busy fails | addFailed busy fails =>
          cases fails
  | aside aside => exact aside.elim

theorem shutdown_course
    (trace : Trace (construct config) (early ++ (state, .begin (.stop cancelled)) :: late) last)
    (opened : state.registry.stopped = false) :
    Shutdown (state.registry.nodes.map Prod.snd) state.nextCall cancelled late last := by
  obtain ⟨before, first, step, rest⟩ := trace.split
  have sound := reachable_sound (reachable_of_trace before)
  have move := move_of_step sound.one_builder step
  have started := sound_move sound move
  clear trace
  induction rest with
  | nil => exact shutdown_begins opened move
  | snoc before step ih => exact shutdown_step before started ih step

end LocalNet.Network
