import LocalNet.Proofs.Health.Step
import LocalNet.Proofs.Network.Trace

/-!
# The course of one check

A run of a network is a run of each of its checks: of every step either nothing befalls a check, or an
event of its own, or time passes that the check lets pass. What is proved of the course of a check
holds therefore in every run, whatever else the network does meanwhile.
-/

namespace LocalNet

namespace Check

structure Moment where
  time : Nat
  event : Event
  deriving DecidableEq, Repr

/-- A run of a check that was in a given state at a given time. -/
inductive Course (start : Check) (since : Nat) : List Moment → Nat → Check → Prop where
  | nil : Course start since [] since start
  | moved {moments : List Moment} {now : Nat} {check next : Check} {event : Event}
      (before : Course start since moments now check) (change : Change now check event next) :
    Course start since (moments ++ [⟨now, event⟩]) now next
  | passed {moments : List Moment} {now later : Nat} {check : Check}
      (before : Course start since moments now check) (forward : now ≤ later)
      (idle : check.isUrgent now = false) (limited : ∀ due ∈ check.dueTimes, later ≤ due) :
    Course start since moments later check

variable {start check : Check} {since now : Nat} {moments : List Moment}

theorem Course.times (course : Course start since moments now check) :
    since ≤ now ∧ ∀ moment ∈ moments, since ≤ moment.time ∧ moment.time ≤ now := by
  induction course with
  | nil => simp
  | @moved moments now check next event before change ih =>
      refine ⟨ih.1, fun moment member => ?_⟩
      rcases List.mem_append.mp member with old | new
      · exact ih.2 moment old
      · rw [List.mem_singleton.mp new]
        exact ⟨ih.1, Nat.le_refl _⟩
  | @passed moments now later check before forward idle limited ih =>
      refine ⟨Nat.le_trans ih.1 forward, fun moment member => ?_⟩
      have known := ih.2 moment member
      exact ⟨known.1, Nat.le_trans known.2 forward⟩

theorem Course.config_eq (course : Course start since moments now check) :
    check.config = start.config := by
  induction course with
  | nil => rfl
  | moved before change ih => exact change.config_eq.trans ih
  | passed before forward idle limited ih => exact ih

theorem Course.nodes_eq (course : Course start since moments now check) :
    check.members.map Member.node = start.members.map Member.node := by
  induction course with
  | nil => rfl
  | moved before change ih => exact change.nodes_eq.trans ih
  | passed before forward idle limited ih => exact ih

theorem Course.append {middle last : Check} {turning : Nat} {early late : List Moment}
    (first : Course start since early turning middle) (second : Course middle turning late now last) :
    Course start since (early ++ late) now last := by
  induction second with
  | nil => simpa using first
  | moved before change ih =>
      rw [← List.append_assoc]
      exact .moved ih change
  | passed before forward idle limited ih => exact .passed ih forward idle limited

theorem not_urgent_of_idle (idle : check.isUrgent now = false) (undecided : check.verdict = none) :
    check.begun.isSome = true ∧ check.cancelled = false ∧ check.dropped = false ∧
      check.outcome? = none ∧ check.members.any (isDue now) = false := by
  simp only [isUrgent, undecided, Option.isNone_none, Bool.true_and, Bool.or_eq_false_iff,
    Option.isNone_eq_false_iff, Option.isSome_eq_false_iff, Option.isNone_iff_eq_none] at idle
  obtain ⟨⟨⟨⟨⟨begun, uncancelled⟩, heard⟩, unsettled⟩, asked⟩, -⟩ := idle
  exact ⟨begun, uncancelled, heard, unsettled, asked⟩

end Check

namespace Network

open Check (Moment Course Event Change)

/-- What a step of the network is to one of its checks. -/
def momentOf? (id : CheckId) : Network × Action → Option Moment
  | (network, .check other step) =>
    if other = id then some ⟨network.now, .step step⟩ else none
  | (network, .cancel call) => if call = id then some ⟨network.now, .cancelled⟩ else none
  | (network, .dropSignal other) => if other = id then some ⟨network.now, .dropped⟩ else none
  | _ => none

/-- What a run of the network is to one of its checks. -/
def courseOf (id : CheckId) (history : List (Network × Action)) : List Moment :=
  history.filterMap (momentOf? id)

/-- The step of the network that is an event of a check. -/
def actionOf (id : CheckId) : Event → Action
  | .step step => .check id step
  | .cancelled => .cancel id
  | .dropped => .dropSignal id

variable {network next : Network} {id : CheckId} {action : Action}

theorem moment_of_iff {moment : Moment} :
    momentOf? id (network, action) = some moment ↔
      action = actionOf id moment.event ∧ moment.time = network.now := by
  obtain ⟨time, event⟩ := moment
  constructor
  · intro told
    cases action with
    | check other step | cancel other | dropSignal other =>
        simp only [momentOf?, Option.ite_none_right_eq_some, Option.some.injEq, Moment.mk.injEq]
          at told
        obtain ⟨rfl, rfl, rfl⟩ := told
        exact ⟨rfl, rfl⟩
    | _ => cases told
  · rintro ⟨rfl, rfl⟩
    cases event <;> exact if_pos rfl

theorem mem_course_of {history : List (Network × Action)} {moment : Moment} :
    moment ∈ courseOf id history ↔
      ∃ entry ∈ history, entry.2 = actionOf id moment.event ∧ moment.time = entry.1.now :=
  List.mem_filterMap.trans (exists_congr fun _ => and_congr_right fun _ => moment_of_iff)

theorem course_of_append (id : CheckId) (early late : List (Network × Action)) :
    courseOf id (early ++ late) = courseOf id early ++ courseOf id late :=
  List.filterMap_append

theorem lookup_of_map {Value : Type} {entries : List (CheckId × Value)}
    {change : CheckId × Value → CheckId × Value} (kept : ∀ entry, (change entry).1 = entry.1)
    {value : Value} (found : entries.lookup id = some value) :
    (entries.map change).lookup id = some (change (id, value)).2 := by
  induction entries with
  | nil => cases found
  | cons entry rest ih =>
      rw [List.map_cons, List.lookup_cons, kept entry]
      rw [List.lookup_cons] at found
      cases same : id == entry.1 with
      | true =>
          obtain rfl := beq_iff_eq.mp same
          simp only [same, Option.some.injEq] at found
          rw [← found]
      | false =>
          simp only [same] at found
          exact ih found

theorem check_of_set {other : CheckId} {check : Check} (found : network.check? id = some check)
    (changed : Check) :
    (network.setCheck other changed).check? id =
      if other = id then some changed else some check := by
  unfold check? setCheck
  rw [lookup_of_map _ found]
  · by_cases mine : id = other
    · simp [mine]
    · simp [mine, Ne.symm mine]
  · intro entry
    split
    · rename_i same
      exact same.symm
    · rfl

theorem note_poll_kept (network : Network) (other : CheckId) (check : Check) (step : Check.Step) :
    (network.notePoll other check step).checks = network.checks ∧
      (network.notePoll other check step).now = network.now := by
  unfold notePoll
  split
  · split <;> exact ⟨rfl, rfl⟩
  · exact ⟨rfl, rfl⟩

theorem check_of_cancel {check : Check} (found : network.check? id = some check)
    (idle : network.activity? id = none) (call : CallId) :
    (network.cancel call).now = network.now ∧
      (network.cancel call).check? id =
        if call = id then some { check with cancelled := true } else some check := by
  unfold cancel
  split
  · rename_i nodes asked known firstError busy
    have different : call ≠ id := by
      rintro rfl
      exact absurd (idle.symm.trans busy) (by simp)
    rw [if_neg different]
    exact ⟨rfl, found⟩
  · refine ⟨rfl, ?_⟩
    unfold check?
    rw [lookup_of_map _ found]
    · by_cases mine : id = call
      · simp [mine]
      · simp [mine, Ne.symm mine]
    · intro entry
      split <;> rfl

theorem turn_clock {call : CallId} {shared : Network} {fate : Fate}
    (turn : Turn network call action shared fate) (begun : ∀ request, action ≠ .begin request) :
    shared.checks = network.checks ∧ shared.now = network.now := by
  cases turn with
  | refused | answered | reserved | taken | drained | drainedNone => exact absurd rfl (begun _)
  | _ => exact ⟨rfl, rfl⟩

theorem settle_now (shared : Network) (call : CallId) (fate : Fate) :
    (shared.settle call fate).now = shared.now := by
  cases fate <;> rfl

theorem next_of_begin {request : Request} (step : network.step? (.begin request) = some next) :
    next = network.begin request := by
  cases running : network.standing with
  | running => simpa [step?, running, eq_comm] using step
  | constructing => simp [step?, running] at step
  | refused reason => simp [step?, running] at step

/-- A call that begins adds a check or none, and takes no time. -/
theorem begin_checks (network : Network) (request : Request) :
    (network.begin request).now = network.now ∧
      ((network.begin request).checks = network.checks ∨
        ∃ check, (network.begin request).checks = (network.nextCall, check) :: network.checks) := by
  unfold begin
  cases request with
  | add config args =>
      simp only
      split <;> exact ⟨rfl, .inl rfl⟩
  | remove name =>
      simp only
      split <;> exact ⟨rfl, .inl rfl⟩
  | get name =>
      simp only
      split <;> exact ⟨rfl, .inl rfl⟩
  | names =>
      simp only
      split <;> exact ⟨rfl, .inl rfl⟩
  | stop cancelled =>
      simp only
      split
      · exact ⟨rfl, .inl rfl⟩
      · split <;> exact ⟨rfl, .inl rfl⟩
  | healthy cancelled =>
      simp only
      split
      · exact ⟨rfl, .inl rfl⟩
      · exact ⟨rfl, .inr ⟨_, rfl⟩⟩

theorem Sound.check_known (sound : Sound network) {check : Check}
    (found : network.check? id = some check) : id < network.nextCall := by
  have present : (network.checks.lookup id).isSome := by
    rw [show network.checks.lookup id = some check from found]
    rfl
  obtain ⟨entry, member, same⟩ := List.lookup_isSome_iff.mp present
  apply sound.watched
  exact List.mem_map.mpr ⟨entry, member, (beq_iff_eq.mp same).symm⟩

structure Watched (network : Network) (id : CheckId) (check : Check) : Prop where
  found : network.check? id = some check
  told : network.outcome? id = some (.watching id)

/-- A step of a check is a change of that check, and leaves the others as they are. -/
theorem change_of_step_check {own : Check.Step} (step : network.stepCheck id own = some next) :
    ∃ before after, network.check? id = some before ∧
      Change network.now before (.step own) after ∧ next.now = network.now ∧
      ∀ other, next.check? other = (network.setCheck id after).check? other := by
  unfold stepCheck at step
  split at step
  · cases step
  · rename_i before present
    split at step
    · cases step
    · rename_i after events taken
      obtain ⟨checks, clock⟩ := note_poll_kept (network.setCheck id after) id before own
      have change : Change network.now before (.step own) after := by
        apply Check.change_of_event
        rw [Check.after?, taken]
        rfl
      cases step
      refine ⟨before, after, present, change, clock, fun other => ?_⟩
      rw [check?, check?, ← checks]
      rfl

theorem step_check_possible {check after : Check} {own : Check.Step} {events : List Log.Event}
    (found : network.check? id = some check)
    (possible : check.step? network.now own = some (after, events)) :
    ∃ next, network.stepCheck id own = some next ∧ next.check? id = some after := by
  obtain ⟨checks, -⟩ := note_poll_kept (network.setCheck id after) id check own
  refine ⟨((network.setCheck id after).notePoll id check own).recordWithin events, ?_, ?_⟩
  · simp only [stepCheck, found, possible]
  · have marked := (check_of_set found after).trans (if_pos rfl)
    rw [check?, ← checks] at marked
    exact marked

theorem course_of_step_check {check : Check} (found : network.check? id = some check)
    {other : CheckId} {own : Check.Step} (step : network.stepCheck other own = some next) :
    ∃ changed, next.check? id = some changed ∧
      Course check network.now (courseOf id [(network, .check other own)]) next.now changed := by
  obtain ⟨before, after, present, change, clock, later⟩ := change_of_step_check step
  rw [later, clock, check_of_set found]
  by_cases mine : other = id
  · subst mine
    obtain rfl : before = check := Option.some.inj (present.symm.trans found)
    refine ⟨after, if_pos rfl, ?_⟩
    simpa [courseOf, momentOf?] using Course.moved .nil change
  · refine ⟨check, if_neg mine, ?_⟩
    simpa [courseOf, momentOf?, mine] using Course.nil

theorem course_of_cancel (sound : Sound network) {check : Check}
    (watched : Watched network id check) (call : CallId) :
    ∃ changed, (network.cancel call).check? id = some changed ∧
      Course check network.now (courseOf id [(network, .cancel call)])
        (network.cancel call).now changed := by
  have idle := (sound.finished _ _ watched.told).1
  obtain ⟨clock, marked⟩ := check_of_cancel watched.found idle call
  rw [clock, marked]
  by_cases mine : call = id
  · refine ⟨_, if_pos mine, ?_⟩
    simpa [courseOf, momentOf?, mine] using Course.moved .nil .cancelled
  · refine ⟨check, if_neg mine, ?_⟩
    simpa [courseOf, momentOf?, mine] using Course.nil

theorem course_of_drop {check : Check} (found : network.check? id = some check)
    (other : CheckId) :
    ∃ changed, (network.dropSignal other).check? id = some changed ∧
      Course check network.now (courseOf id [(network, .dropSignal other)])
        (network.dropSignal other).now changed := by
  by_cases mine : other = id
  · subst mine
    unfold dropSignal
    rw [found]
    refine ⟨{ check with dropped := true }, (check_of_set found _).trans (if_pos rfl), ?_⟩
    have moment : courseOf other [(network, .dropSignal other)] = [⟨network.now, .dropped⟩] := by
      simp [courseOf, momentOf?]
    rw [moment]
    exact .moved .nil .dropped
  · have still : Course check network.now (courseOf id [(network, .dropSignal other)]) network.now
        check := by
      simpa [courseOf, momentOf?, mine] using Course.nil
    unfold dropSignal
    split
    · exact ⟨check, (check_of_set found _).trans (if_neg mine), still⟩
    · exact ⟨check, found, still⟩

theorem course_of_pass {check : Check} (found : network.check? id = some check) {later : Nat}
    (allowed : network.mayPass later = true) : Course check network.now [] later check := by
  simp only [mayPass, Bool.and_eq_true, decide_eq_true_eq, List.all_eq_true, Bool.not_eq_true']
    at allowed
  obtain ⟨forward, idle⟩ := allowed
  have member : (id, check) ∈ network.checks := by
    obtain ⟨before, after, same, -⟩ := List.lookup_eq_some_iff.mp found
    rw [same]
    exact List.mem_append_right _ (List.mem_cons_self ..)
  obtain ⟨waits, limited⟩ := idle _ member
  exact .passed .nil forward waits limited

/-- A step of the network is to a check at most one event of its own, or time that it lets pass. -/
theorem course_of_step (sound : Sound network) {check : Check}
    (watched : Watched network id check) (step : network.step? action = some next) :
    ∃ changed, next.check? id = some changed ∧
      Course check network.now (courseOf id [(network, action)]) next.now changed := by
  have found := watched.found
  have quiet (silent : courseOf id [(network, action)] = [])
      (notBegun : ∀ request, action ≠ .begin request) (notAside : ¬action.IsAside) :
      ∃ changed, next.check? id = some changed ∧
        Course check network.now (courseOf id [(network, action)]) next.now changed := by
    rw [silent]
    -- All other steps are turns of calls, which know nothing of checks.
    cases move_of_step sound.one_builder step with
    | turn turn =>
        obtain ⟨checks, clock⟩ := turn_clock turn notBegun
        refine ⟨check, ?_, ?_⟩
        · rw [check?, settle_checks, checks]
          exact found
        · rw [settle_now, clock]
          exact .nil
    | aside aside => exact absurd aside notAside
    | shuffled => exact ⟨check, found, .nil⟩
  cases action with
  | spawnReturns | startReturns | commit | askToStop | stopReturns | leaveToBackground | shuffle =>
      exact quiet rfl (by simp) fun aside => aside
  | check other own => exact course_of_step_check found step
  | cancel call =>
      cases step
      exact course_of_cancel sound watched call
  | dropSignal other =>
      cases step
      exact course_of_drop found other
  | pass later =>
      simp only [step?] at step
      split at step
      · rename_i allowed
        cases step
        exact ⟨check, found, course_of_pass found allowed⟩
      · cases step
  | begin request =>
      obtain rfl := next_of_begin step
      obtain ⟨clock, checks⟩ := begin_checks network request
      refine ⟨check, ?_, ?_⟩
      · rcases checks with same | ⟨fresh, new⟩
        · rw [check?, same]
          exact found
        · have older : (id == network.nextCall) = false := by
            simpa using Nat.ne_of_lt (sound.check_known found)
          rw [check?, new, List.lookup_cons, older]
          exact found
      · rw [clock]
        exact .nil

/-- A run of the network is a run of each of its checks. -/
theorem course_of_trace {last : Network} {history : List (Network × Action)}
    (trace : Trace network history last) (sound : Sound network) {check : Check}
    (watched : Watched network id check) :
    ∃ final, Watched last id final ∧
      Course check network.now (courseOf id history) last.now final := by
  induction trace with
  | nil => exact ⟨check, watched, .nil⟩
  | @snoc history state next action before step ih =>
      obtain ⟨middle, still, course⟩ := ih
      have here := trace_sound before sound
      obtain ⟨changed, found, more⟩ := course_of_step here still step
      have told := move_outcome here (move_of_step here.one_builder step) still.told
      refine ⟨changed, ⟨found, told⟩, ?_⟩
      rw [course_of_append]
      exact course.append more

theorem healthy_begins {cancelled : Bool} (opened : network.registry.stopped = false)
    (step : network.step? (.begin (.healthy cancelled)) = some next) :
    next.now = network.now ∧
      Watched next network.nextCall
        (.ofSnapshot network.health (network.registry.nodes.map Prod.snd) cancelled) := by
  obtain rfl := next_of_begin step
  have notStopped : ¬network.registry.stopped = true := by simp [opened]
  simp only [begin, Registry.snapshot, if_neg notStopped]
  exact ⟨rfl, ⟨List.lookup_cons_self, List.lookup_cons_self⟩⟩

/-- What follows a request for the health of a network is to the new check a course from the nodes
there were. -/
theorem course_of_healthy {config : NetworkConfig} {cancelled : Bool} {last : Network}
    {early late : List (Network × Action)}
    (trace : Trace (construct config) (early ++ (network, .begin (.healthy cancelled)) :: late) last)
    (opened : network.registry.stopped = false) :
    ∃ check, Watched last network.nextCall check ∧
      Course (.ofSnapshot network.health (network.registry.nodes.map Prod.snd) cancelled)
        network.now (courseOf network.nextCall late) last.now check := by
  obtain ⟨before, first, step, rest⟩ := trace.split
  obtain ⟨clock, watched⟩ := healthy_begins opened step
  have here := reachable_sound (reachable_of_trace before)
  have sound := sound_move here (move_of_step here.one_builder step)
  have course := course_of_trace rest sound watched
  rwa [clock] at course

/-- The steps of a run, as far as they are possible, with the state in which each is taken. -/
def historyOf (network : Network) : List Action → List (Network × Action)
  | [] => []
  | action :: rest =>
    match network.step? action with
    | some next => (network, action) :: next.historyOf rest
    | none => []

theorem trace_of_history {last : Network} {actions : List Action}
    (ran : network.run? actions = some last) : Trace network (network.historyOf actions) last := by
  induction actions generalizing network with
  | nil =>
      cases ran
      exact .nil
  | cons action rest ih =>
      obtain ⟨next, step, onward⟩ := Option.bind_eq_some_iff.mp ran
      have goesOn := (Trace.nil.snoc step).append (ih onward)
      simpa only [historyOf, step, List.nil_append, List.singleton_append] using goesOn

theorem history_of_cons {last : Network} {rest : List Action}
    (ran : network.run? (action :: rest) = some last) :
    ∃ late, network.historyOf (action :: rest) = (network, action) :: late := by
  obtain ⟨next, step, -⟩ := Option.bind_eq_some_iff.mp ran
  exact ⟨next.historyOf rest, by simp only [historyOf, step]⟩

theorem taken_in_history {actions : List Action} {entry : Network × Action}
    (known : entry ∈ network.historyOf actions) : entry.2 ∈ actions := by
  induction actions generalizing network with
  | nil => cases known
  | cons action rest ih =>
      simp only [historyOf] at known
      split at known
      · rcases List.mem_cons.mp known with rfl | later
        · exact List.mem_cons_self ..
        · exact List.mem_cons_of_mem _ (ih later)
      · cases known

end Network

end LocalNet
