import LocalNet.Proofs.Health.Polls
import LocalNet.Proofs.Health.Outcome
import LocalNet.Proofs.Network.AllOrNothing
import LocalNet.Proofs.Network.LiveNames

/-!
# Verdicts are justified

A check is decided by what befell it alone: by the answers of the nodes it was begun with, its clock,
its token and its signal. Every verdict is therefore read off its course, and nothing that the
network does meanwhile enters.
-/

namespace LocalNet

namespace Check

def Fired (cancelled : Bool) (moments : List Moment) : Prop :=
  cancelled = true ∨ ∃ moment ∈ moments, moment.event = .cancelled

/-- A node has answered that it is healthy, to its last poll, within what it is allowed. -/
structure Recovered (config : HealthConfig) (index limit : Nat) (moments : List Moment) :
    Prop where
  told : ∃ earlier, answers index moments = earlier ++ [.ok true] ∧
    polls index moments = earlier.length + 1
  allowed : config.maxAttempts ≠ 0 → polls index moments ≤ config.maxAttempts.toNat
  inTime : ∃ moment ∈ moments, moment.answer? index = some (.ok true) ∧ moment.time ≤ limit

/-- A node was polled as often as allowed and never answered that it is healthy. -/
structure Exhausted (config : HealthConfig) (index : Nat) (moments : List Moment)
    (last : Except ApiError Bool) : Prop where
  limited : 0 < config.maxAttempts.toNat
  polled : polls index moments = config.maxAttempts.toNat
  answered : (answers index moments).length = config.maxAttempts.toNat
  unhealthy : .ok true ∉ answers index moments
  last : (answers index moments).getLast? = some last

/-- What justifies a verdict on a snapshot of nodes, for a check that was asked for at a given time. It
begins in that instant, and what the clock shows then tells when its time is over. -/
inductive Justified (config : HealthConfig) (nodes : List Node) (cancelled : Bool) (since : Nat)
    (moments : List Moment) : Verdict → Prop where
  | healthy {before after : List Moment} {time : Nat} {reading : ClockReading}
      (whole : moments = before ++ ⟨time, .step .conclude⟩ :: after)
      (begun : ⟨since, .step (.begin reading)⟩ ∈ before)
      (inTime : time ≤ reading.deadlineAfter since config.timeoutSecs.toNat)
      (quiet : ¬Fired cancelled before)
      (all : ∀ index < nodes.length,
        Recovered config index (reading.deadlineAfter since config.timeoutSecs.toNat) before) :
    Justified config nodes cancelled since moments .healthy
  | unhealthy {index : Nat} {node : Node} (listed : nodes[index]? = some node)
      (exhausted : Exhausted config index moments (.ok false)) :
    Justified config nodes cancelled since moments
      (.failed (.unhealthy node.name config.maxAttempts.toNat))
  | unreachable {index : Nat} {node : Node} {reason : ApiError}
      (listed : nodes[index]? = some node)
      (exhausted : Exhausted config index moments (.error reason)) :
    Justified config nodes cancelled since moments (.failed (.client node.name reason.message))
  | timedOut {reading : ClockReading} (begun : ⟨since, .step (.begin reading)⟩ ∈ moments)
      (expired :
        ⟨reading.deadlineAfter since config.timeoutSecs.toNat, .step .expire⟩ ∈ moments) :
    Justified config nodes cancelled since moments (.failed (.timeout config.timeoutSecs.toNat))
  | cancelled {before after : List Moment} {time : Nat}
      (whole : moments = before ++ ⟨time, .step .giveUp⟩ :: after)
      (fired : Fired cancelled before) :
    Justified config nodes cancelled since moments (.failed .cancelled)
  | aborted {time index : Nat} (broken : ⟨time, .step (.answer index .panicked)⟩ ∈ moments) :
    Justified config nodes cancelled since moments (.failed .aborted)
  | dismissed {time : Nat} (dropped : ⟨time, .dropped⟩ ∈ moments) :
    Justified config nodes cancelled since moments .dismissed

variable {config : HealthConfig} {nodes : List Node} {cancelled : Bool}
variable {start check next : Check} {since now : Nat} {moments : List Moment} {event : Event}

theorem Course.flags (course : Course start since moments now check) :
    (check.cancelled = true ↔ Fired start.cancelled moments) ∧
      (check.dropped = true →
        start.dropped = true ∨ ∃ moment ∈ moments, moment.event = .dropped) := by
  induction course with
  | nil => simp [Fired]
  | @moved moments now check next event before change ih =>
      cases change with
      | cancelled => simpa [Fired] using fun heard => (ih.2 heard)
      | dropped => simpa [Fired] using ih.1
      | _ => simpa [Fired, setMember] using ih
  | passed before forward idle limited ih => exact ih

/-- A check begins at once, and time passes it up to its deadline and no further. -/
structure OnTime (since now : Nat) (moments : List Moment) (check : Check) : Prop where
  begun : ∀ beginning, check.begun = some beginning →
    beginning.time = since ∧ ⟨since, .step (.begin beginning.reading)⟩ ∈ moments
  waiting : check.verdict = none → check.begun = none → now = since
  inTime : check.verdict = none → ∀ deadline, check.deadline? = some deadline → now ≤ deadline

theorem le_deadline (reading : ClockReading) (since seconds : Nat) :
    since ≤ reading.deadlineAfter since seconds :=
  Nat.le_add_right ..

/-- The deadline of a check that has begun is told by what the clock showed then. -/
theorem OnTime.deadline (onTime : OnTime since now moments check)
    (started : check.begun.isSome = true) :
    ∃ reading, ⟨since, .step (.begin reading)⟩ ∈ moments ∧
      check.deadline? = some (reading.deadlineAfter since check.config.timeoutSecs.toNat) := by
  obtain ⟨beginning, begun⟩ := Option.isSome_iff_exists.mp started
  obtain ⟨atOnce, told⟩ := onTime.begun beginning begun
  refine ⟨beginning.reading, told, ?_⟩
  rw [deadline?, begun, Option.map_some, atOnce]

theorem Change.on_time (change : Change now check event next)
    (onTime : OnTime since now moments check) :
    OnTime since now (moments ++ [⟨now, event⟩]) next := by
  have kept {beginning : Beginning} (begun : check.begun = some beginning) :
      beginning.time = since ∧
        ⟨since, .step (.begin beginning.reading)⟩ ∈ moments ++ [⟨now, event⟩] :=
    (onTime.begun beginning begun).imp_right (List.mem_append_left _)
  cases change with
  | @begun reading unbegun undecided =>
      obtain rfl := onTime.waiting undecided unbegun
      refine ⟨?_, by simp, ?_⟩
      · rintro beginning ⟨⟩
        exact ⟨rfl, List.mem_append_right _ (List.mem_singleton_self _)⟩
      · rintro - deadline ⟨⟩
        exact le_deadline _ _ _
  | asked found polling | answered found polling =>
      have undecided := (polling_iff.mp polling).undecided
      exact ⟨fun _ => kept, fun _ => onTime.waiting undecided, fun _ => onTime.inTime undecided⟩
  | cancelled | dropped => exact ⟨fun _ => kept, onTime.waiting, onTime.inTime⟩
  | broke | concluded | expired | gaveUp | dismissed =>
      exact ⟨fun _ => kept, fun still => (nomatch still), fun still => (nomatch still)⟩

theorem Course.on_time (course : Course start since moments now check)
    (unbegun : start.begun = none) : OnTime since now moments check := by
  induction course with
  | nil =>
      refine ⟨?_, fun _ _ => rfl, ?_⟩
      · simp [unbegun]
      · simp [deadline?, unbegun]
  | moved before change ih => exact change.on_time ih
  | @passed moments now later check before forward idle limited ih =>
      refine ⟨ih.begun, fun undecided never => ?_, fun undecided deadline limit => ?_⟩
      · have begun := (not_urgent_of_idle idle undecided).1
        simp [never] at begun
      · apply limited
        simp [dueTimes, undecided, limit]

theorem polls_mute {moment : Moment} (mute : ∀ step, moment.event ≠ .step step) (index : Nat) :
    polls index [moment] = 0 := by
  simp [polls, Moment.asks, mute]

theorem answers_mute {moment : Moment} (mute : ∀ step, moment.event ≠ .step step) (index : Nat) :
    answers index [moment] = [] := by
  have silent : moment.answer? index = none := by
    unfold Moment.answer?
    split
    · rename_i own
      exact absurd own (mute _)
    · rfl
  simp [answers, silent]

theorem Exhausted.grow {index : Nat} {last : Except ApiError Bool}
    (exhausted : Exhausted config index moments last) {moment : Moment}
    (unasked : polls index [moment] = 0) (silent : answers index [moment] = []) :
    Exhausted config index (moments ++ [moment]) last := by
  obtain ⟨limited, polled, answered, unhealthy, last⟩ := exhausted
  refine ⟨limited, ?_, ?_, ?_, ?_⟩
  · rwa [polls_append, unasked]
  all_goals rwa [answers_append, silent, List.append_nil]

/-- What befalls a check that is decided is no step of its own, and takes nothing from its verdict. -/
theorem Justified.grow {verdict : Verdict}
    (justified : Justified config nodes cancelled since moments verdict) {moment : Moment}
    (mute : ∀ step, moment.event ≠ .step step) :
    Justified config nodes cancelled since (moments ++ [moment]) verdict := by
  cases justified with
  | @healthy before after time reading whole begun inTime quiet all =>
      have grown : moments ++ [moment] = before ++ ⟨time, .step .conclude⟩ :: (after ++ [moment]) := by
        rw [whole, List.append_assoc, List.cons_append]
      exact .healthy grown begun inTime quiet all
  | unhealthy listed exhausted =>
      exact .unhealthy listed (exhausted.grow (polls_mute mute _) (answers_mute mute _))
  | unreachable listed exhausted =>
      exact .unreachable listed (exhausted.grow (polls_mute mute _) (answers_mute mute _))
  | timedOut begun expired =>
      exact .timedOut (List.mem_append_left _ begun) (List.mem_append_left _ expired)
  | @cancelled before after time whole fired =>
      have grown : moments ++ [moment] = before ++ ⟨time, .step .giveUp⟩ :: (after ++ [moment]) := by
        rw [whole, List.append_assoc, List.cons_append]
      exact .cancelled grown fired
  | aborted broken => exact .aborted (List.mem_append_left _ broken)
  | dismissed dropped => exact .dismissed (List.mem_append_left _ dropped)

theorem Polled.recovered {member : Member} {index limit : Nat}
    (polled : Polled config member (polls index moments) (answers index moments))
    (phase : member.phase = .healthy) (inTime : ∀ moment ∈ moments, moment.time ≤ limit) :
    Recovered config index limit moments := by
  cases polled with
  | @healthy earlier _ answered last first allowed =>
      have count : polls index moments = earlier.length + 1 := by
        rw [answered, last, List.length_append, List.length_singleton]
      have heard : .ok true ∈ answers index moments := by simp [last]
      obtain ⟨moment, known, told⟩ := List.mem_filterMap.mp heard
      exact ⟨⟨earlier, last, count⟩, allowed, moment, known, told, inTime moment known⟩
  | fresh other | asking other | resting other | failed other =>
      rw [phase] at other
      cases other

theorem Polled.exhausted {member : Member} {index : Nat} {reason : HealthError}
    (polled : Polled config member (polls index moments) (answers index moments))
    (phase : member.phase = .failed reason) :
    ∃ last, last ≠ .ok true ∧ Exhausted config index moments last ∧
      reason = failureOf member.node config.maxAttempts.toNat last := by
  cases polled with
  | @failed earlier last same answered whole unhealthy limited exhausted =>
      rw [phase, exhausted] at same
      obtain rfl : reason = _ := by simpa using same
      have dirty : last ≠ .ok true := by
        rintro rfl
        exact unhealthy (by simp [whole])
      refine ⟨last, dirty, ⟨limited_iff.mp limited, exhausted, ?_, unhealthy, ?_⟩, rfl⟩
      · rw [← answered, exhausted]
      · simp [whole]
  | fresh other | asking other | resting other | healthy other =>
      rw [phase] at other
      cases other

variable {verdict : Verdict}

theorem Course.outcome_justified {outcome : Except HealthError Unit}
    (course : Course (ofSnapshot config nodes cancelled) since moments now check)
    (started : check.begun.isSome = true) (undecided : check.verdict = none)
    (uncancelled : check.cancelled = false) (settled : check.outcome? = some outcome) :
    Justified config nodes cancelled since (moments ++ [⟨now, .step .conclude⟩])
      (.ofOutcome outcome) := by
  have sameConfig : check.config = config := course.config_eq
  have sameNodes : check.members.map Member.node = nodes :=
    course.nodes_eq.trans (of_snapshot_nodes config nodes cancelled)
  have polled := course.polled of_snapshot_fresh
  rw [sameConfig] at polled
  cases outcome with
  | ok =>
      have onTime := course.on_time rfl
      obtain ⟨reading, begun, deadline⟩ := onTime.deadline started
      have limit := onTime.inTime undecided _ deadline
      rw [sameConfig] at limit
      have quiet : ¬Fired cancelled moments := by
        intro fired
        exact absurd ((course.flags.1.mpr fired).symm.trans uncancelled) (by simp)
      refine .healthy rfl begun limit quiet fun index bound => ?_
      rw [← sameNodes, List.length_map] at bound
      have here : check.members[index]? = some check.members[index] :=
        List.getElem?_eq_getElem bound
      apply (polled index _ here).recovered (outcome_ok settled _ (List.getElem_mem bound))
      exact fun moment known => Nat.le_trans (course.times.2 moment known).2 limit
  | error reason =>
      obtain ⟨member, known, phase⟩ := outcome_error settled
      obtain ⟨index, here⟩ := List.mem_iff_getElem?.mp known
      have listed : nodes[index]? = some member.node := by
        rw [← sameNodes, List.getElem?_map, here]
        rfl
      obtain ⟨last, dirty, exhausted, rfl⟩ := (polled index member here).exhausted phase
      have grown : Exhausted config index (moments ++ [⟨now, .step .conclude⟩]) last :=
        exhausted.grow rfl rfl
      cases last with
      | error fault => exact .unreachable listed grown
      | ok value =>
          cases value with
          | true => exact absurd rfl dirty
          | false => exact .unhealthy listed grown

theorem Course.decision_justified
    (course : Course (ofSnapshot config nodes cancelled) since moments now check)
    (undecided : check.verdict = none) (change : Change now check event next)
    (decided : next.verdict = some verdict) :
    Justified config nodes cancelled since (moments ++ [⟨now, event⟩]) verdict := by
  have here : (⟨now, event⟩ : Moment) ∈ moments ++ [⟨now, event⟩] :=
    List.mem_append_right _ (List.mem_singleton_self _)
  have sameConfig : check.config = config := course.config_eq
  cases change with
  | begun | asked | answered | cancelled | dropped =>
      exact absurd (undecided.symm.trans decided) (by simp)
  | broke =>
      cases decided
      exact .aborted here
  | concluded started unjudged uncancelled settled =>
      cases decided
      exact course.outcome_justified started undecided uncancelled settled
  | @expired deadline polling limit late =>
      cases decided
      have onTime := course.on_time rfl
      obtain ⟨reading, begun, deadline⟩ := onTime.deadline (polling_iff.mp polling).started
      -- Time never passes the deadline of an open check, and the step waits for it.
      have exactly := Nat.le_antisymm (onTime.inTime undecided _ limit) late
      rw [exactly, Option.some.inj (limit.symm.trans deadline), sameConfig] at here ⊢
      exact .timedOut (List.mem_append_left _ begun) here
  | gaveUp started unjudged fired =>
      cases decided
      exact .cancelled rfl (course.flags.1.mp fired)
  | dismissed unjudged heard =>
      cases decided
      rcases course.flags.2 heard with never | ⟨⟨time, event⟩, known, rfl⟩
      · cases never
      · exact .dismissed (List.mem_append_left _ known)

theorem Course.justified
    (course : Course (ofSnapshot config nodes cancelled) since moments now check)
    (decided : check.verdict = some verdict) :
    Justified config nodes cancelled since moments verdict := by
  generalize same : ofSnapshot config nodes cancelled = start at course
  induction course with
  | nil =>
      subst same
      cases decided
  | @moved moments now check next event before change ih =>
      cases was : check.verdict with
      | none =>
          subst same
          exact before.decision_justified was change decided
      | some earlier =>
          obtain rfl : earlier = verdict :=
            Option.some.inj ((change.verdict_kept was).symm.trans decided)
          -- A decided check takes no step, so only its token or its signal can have been at work.
          apply (ih was).grow
          intro step own
          exact absurd ((change.undecided own).symm.trans was) (by simp)
  | passed before forward idle limited ih => exact ih decided

end Check

namespace Network

/-- Whatever the network does meanwhile, the verdict of a health check is justified by the nodes there
were when it was asked for, and by the course of the check. The time it has is the timeout as far as the
clock and the timers reach, by what they show as the check begins. -/
theorem health_verdict_justified {config : NetworkConfig} {state network : Network}
    {cancelled : Bool} {early late : List (Network × Action)}
    (trace : Trace (construct config) (early ++ (state, .begin (.healthy cancelled)) :: late) network)
    (opened : state.registry.stopped = false) :
    (∀ entry ∈ state.registry.nodes, state.Started entry.2) ∧
      ∃ check, network.check? state.nextCall = some check ∧
        network.outcome? state.nextCall = some (.watching state.nextCall) ∧
        ∀ verdict, check.verdict = some verdict →
          Check.Justified config.health (state.registry.nodes.map Prod.snd) cancelled state.now
            (courseOf state.nextCall late) verdict := by
  have reachable := reachable_of_trace trace.split.1
  obtain ⟨check, watched, course⟩ := course_of_healthy trace opened
  rw [reachable_health reachable] at course
  refine ⟨(reachable_starts_told reachable).registered, check, watched.found, watched.told, ?_⟩
  exact fun verdict decided => course.justified decided

/-- Nodes of which each has one poll to show that it is healthy. -/
def lastChances (names : List String) : NetworkConfig where
  nodes := names.map plainNode
  health := { maxAttempts := 1, timeoutSecs := 1 }

def startAll (names : List String) : List Action :=
  names.flatMap fun _ => [.spawnReturns 0 (.ok ()), .startReturns 0 (.ok ())]

/-- The node is removed before it answers. -/
def missedChance : List Action :=
  [.check 1 (.begin ⟨1, 0⟩), .begin (.remove "first"), .check 1 (.ask 0),
    .check 1 (.answer 0 (.healthy false)), .check 1 .conclude]

theorem missed_chance_is_justified :
    ∃ state network late,
      state.run? (.begin (.healthy false) :: missedChance) = some network ∧
      Trace (construct (lastChances ["first"]))
        ((construct (lastChances ["first"])).historyOf (startAll ["first"]) ++
          (state, .begin (.healthy false)) :: late) network ∧
      state.registry.stopped = false ∧
      Check.Justified (lastChances ["first"]).health (state.registry.nodes.map Prod.snd) false
        state.now (courseOf state.nextCall late) (.failed (.unhealthy "first" 1)) := by
  have ran : ((construct (lastChances ["first"])).run? (startAll ["first"])).bind (fun state =>
      (state.run? (.begin (.healthy false) :: missedChance)).map fun last =>
        (state.registry.stopped, (last.check? state.nextCall).bind Check.verdict)) =
          some (false, some (.failed (.unhealthy "first" 1))) := by
    decide +kernel
  obtain ⟨state, run, more⟩ := Option.bind_eq_some_iff.mp ran
  obtain ⟨network, onward, facts⟩ := Option.map_eq_some_iff.mp more
  simp only [Prod.mk.injEq] at facts
  obtain ⟨opened, decided⟩ := facts
  obtain ⟨late, same⟩ := history_of_cons onward
  have trace := (trace_of_history run).append (same ▸ trace_of_history onward)
  obtain ⟨-, check, found, -, justified⟩ := health_verdict_justified trace opened
  rw [found] at decided
  exact ⟨state, network, late, onward, trace, opened, justified _ decided⟩

/-- The least timeout that no clock can hold. -/
def endlessWait : NetworkConfig where
  nodes := [plainNode "first"]
  health := { timeoutSecs := 9223372036854775808 }

/-- A timeout that no clock can hold is over long before its time. -/
theorem timeout_may_come_early :
    ¬∀ config state network cancelled early late,
      Trace (construct config) (early ++ (state, .begin (.healthy cancelled)) :: late) network →
      state.registry.stopped = false →
      (network.check? state.nextCall).bind Check.verdict =
        some (.failed (.timeout config.health.timeoutSecs.toNat)) →
      state.now + config.health.timeoutMs ≤ network.now := by
  intro punctual
  have ran : ((construct endlessWait).run? (startAll ["first"])).bind (fun state =>
      (state.run? [.begin (.healthy false), .check 1 (.begin ⟨1, 0⟩), .check 1 (.ask 0),
        .pass ClockReading.farFutureMs, .check 1 .expire]).map fun last =>
          (state.registry.stopped, (last.check? state.nextCall).bind Check.verdict,
            decide (state.now + endlessWait.health.timeoutMs ≤ last.now))) =
              some (false, some (.failed (.timeout 9223372036854775808)), false) := by
    decide +kernel
  obtain ⟨state, run, more⟩ := Option.bind_eq_some_iff.mp ran
  obtain ⟨network, onward, facts⟩ := Option.map_eq_some_iff.mp more
  simp only [Prod.mk.injEq, decide_eq_false_iff_not] at facts
  obtain ⟨opened, decided, early⟩ := facts
  obtain ⟨late, same⟩ := history_of_cons onward
  have trace := (trace_of_history run).append (same ▸ trace_of_history onward)
  exact early (punctual _ _ _ _ _ _ trace opened decided)

end Network

end LocalNet
