import LocalNet.Proofs.Health.Verdict

/-!
# The first node that fails

The first node that uses up its polls ends the check at once with its own failure, if the failure is
seen: among few nodes it always is, among many only if all nodes before it are healthy by then. A
failure that is not seen changes nothing, and the check goes on as if that node had not answered.
-/

namespace LocalNet

namespace Check

/-- The failure of a node is seen: there are few nodes, or those before it have answered that they are
healthy. -/
def Seen (nodes : List Node) (index : Nat) (moments : List Moment) : Prop :=
  nodes.length ≤ eagerLimit ∨ ∀ earlier < index, .ok true ∈ answers earlier moments

variable {config : HealthConfig} {nodes : List Node} {cancelled : Bool}
variable {start check next : Check} {since now : Nat} {moments : List Moment} {event : Event}

theorem Polled.healthy_iff {member : Member} {asked : Nat} {told : List (Except ApiError Bool)}
    (polled : Polled config member asked told) :
    member.phase = .healthy ↔ .ok true ∈ told := by
  cases polled with
  | healthy phase answered last => simp [phase, last]
  | fresh phase counted unasked silent => simp [phase, silent]
  | asking phase counted awaited unhealthy | resting phase counted answered unhealthy
  | failed phase answered whole unhealthy => simp [phase, unhealthy]

theorem Polled.fails {member : Member} {asked : Nat} {told : List (Except ApiError Bool)}
    {answer : Except ApiError Bool} (polled : Polled config member asked told)
    (asking : member.phase = .asking) (unhealthy : answer ≠ .ok true)
    (limited : 0 < config.maxAttempts.toNat) (last : asked = config.maxAttempts.toNat) (now : Nat) :
    (Member.judged config now member answer).phase =
      .failed (failureOf member.node config.maxAttempts.toNat answer) := by
  cases polled with
  | asking phase counted =>
      have spent : config.maxAttempts.toNat ≤ member.attempts := by
        rw [counted, last]
      rw [judged_otherwise unhealthy, if_pos ⟨limited_iff.mpr limited, spent⟩, counted, last]
  | fresh phase | resting phase | healthy phase | failed phase =>
      rw [asking] at phase
      cases phase

theorem Course.dropped_now (course : Course start since moments now check)
    (kept : start.dropped = false) (dropped : check.dropped = true)
    (undecided : check.verdict = none) :
    ∃ moment ∈ moments, moment.event = .dropped ∧ moment.time = now := by
  induction course with
  | nil => exact absurd (kept.symm.trans dropped) (by simp)
  | @moved moments now check next event before change ih =>
      have was := change.was_undecided undecided
      have earlier (same : check.dropped = true) :
          ∃ moment ∈ moments ++ [⟨now, event⟩], moment.event = .dropped ∧ moment.time = now := by
        obtain ⟨moment, known, told⟩ := ih same was
        exact ⟨moment, List.mem_append_left _ known, told⟩
      cases change with
      | dropped =>
          exact ⟨_, List.mem_append_right _ (List.mem_singleton_self _), rfl, rfl⟩
      | _ => exact earlier dropped
  | passed before forward idle limited ih =>
      have waits := (not_urgent_of_idle idle undecided).2.2.1
      exact absurd (waits.symm.trans dropped) (by simp)

structure Settled (check : Check) (outcome : Except HealthError Unit) : Prop where
  started : check.begun.isSome = true
  undecided : check.verdict = none
  uncancelled : check.cancelled = false
  heard : check.dropped = false
  settled : check.outcome? = some outcome

theorem Settled.concludes {outcome : Except HealthError Unit} (settled : Settled check outcome)
    (now : Nat) :
    ∃ events, check.step? now .conclude =
      some ({ check with verdict := some (.ofOutcome outcome) }, events) := by
  obtain ⟨started, undecided, uncancelled, -, settled⟩ := settled
  simp only [step?, started, undecided, uncancelled, settled, Option.isNone_none, Bool.and_self,
    Bool.not_false, if_true]
  cases outcome with
  | ok => exact ⟨_, rfl⟩
  | error reason => exact ⟨_, rfl⟩

/-- A settled check that nobody cancels or drops is concluded before any time passes and before any
other node is polled. -/
theorem Course.settled_ends {outcome : Except HealthError Unit}
    (course : Course start since moments now check) (settled : Settled start outcome)
    (calm : ∀ moment ∈ moments, moment.time = since →
      moment.event ≠ .cancelled ∧ moment.event ≠ .dropped) :
    (∀ moment ∈ moments, ∀ index, moment.event ≠ .step (.ask index)) ∧
      (now = since ∧ check = start ∨
        check.verdict = some (.ofOutcome outcome) ∧ ⟨since, .step .conclude⟩ ∈ moments) := by
  induction course with
  | nil => exact ⟨by simp, .inl ⟨rfl, rfl⟩⟩
  | @moved moments now check next event before change ih =>
      obtain ⟨unasked, stands⟩ := ih fun moment known => calm moment (List.mem_append_left _ known)
      have here : (⟨now, event⟩ : Moment) ∈ moments ++ [⟨now, event⟩] :=
        List.mem_append_right _ (List.mem_singleton_self _)
      have quiet (other : ∀ index, event ≠ .step (.ask index)) :
          ∀ moment ∈ moments ++ [⟨now, event⟩], ∀ index, moment.event ≠ .step (.ask index) := by
        intro moment known
        rcases List.mem_append.mp known with old | new
        · exact unasked moment old
        · rw [List.mem_singleton.mp new]
          exact other
      rcases stands with ⟨rfl, rfl⟩ | ⟨decided, concluded⟩
      -- Nothing has befallen the check so far: a settled check neither polls nor expires.
      · have unpolled (polling : check.isPolling = true) : False := by
          have unsettled := (polling_iff.mp polling).unsettled
          exact absurd (unsettled.symm.trans settled.settled) (by simp)
        cases change with
        | begun unbegun =>
            have started := settled.started
            simp [unbegun] at started
        | asked found polling | answered found polling | broke found polling | expired polling =>
            exact (unpolled polling).elim
        | gaveUp started undecided fired =>
            exact absurd (settled.uncancelled.symm.trans fired) (by simp)
        | dismissed undecided dropped =>
            exact absurd (settled.heard.symm.trans dropped) (by simp)
        | cancelled => exact absurd rfl (calm _ here rfl).1
        | dropped => exact absurd rfl (calm _ here rfl).2
        | concluded started undecided uncancelled same =>
            obtain rfl := Option.some.inj (settled.settled.symm.trans same)
            exact ⟨quiet (by simp), .inr ⟨rfl, here⟩⟩
      · refine ⟨quiet fun index asked => ?_, .inr ⟨change.verdict_kept decided, ?_⟩⟩
        · exact absurd ((change.undecided asked).symm.trans decided) (by simp)
        · exact List.mem_append_left _ concluded
  | passed before forward idle limited ih =>
      obtain ⟨unasked, ⟨rfl, rfl⟩ | ended⟩ := ih calm
      · -- An outcome cannot wait, so no time passes before it is concluded.
        have unsettled := (not_urgent_of_idle idle settled.undecided).2.2.2.1
        exact absurd (unsettled.symm.trans settled.settled) (by simp)
      · exact ⟨unasked, .inr ended⟩

/-- The last poll of a node fails: if that is seen the check is settled, and else it goes on. -/
theorem Course.last_poll_fails {index : Nat} {node : Node} {reply : Reply}
    {answer : Except ApiError Bool}
    (course : Course (ofSnapshot config nodes cancelled) since moments now check)
    (change : Change now check (.step (.answer index reply)) next)
    (listed : nodes[index]? = some node) (told : reply.answer? = some answer)
    (unhealthy : answer ≠ .ok true) (limited : 0 < config.maxAttempts.toNat)
    (last : polls index moments = config.maxAttempts.toNat)
    (heard : ∀ moment ∈ moments, moment.time = now → moment.event ≠ .dropped) :
    (Seen nodes index moments →
      Settled next (.error (failureOf node config.maxAttempts.toNat answer))) ∧
    (¬Seen nodes index moments → next.isPolling = true) := by
  have sameConfig : check.config = config := course.config_eq
  have sameNodes : check.members.map Member.node = nodes :=
    course.nodes_eq.trans (of_snapshot_nodes config nodes cancelled)
  have count : check.members.length = nodes.length := by
    rw [← sameNodes, List.length_map]
  have polled := course.polled of_snapshot_fresh
  rw [sameConfig] at polled
  cases change with
  | broke => cases told
  | @answered _ member _ other found polling asking same =>
      obtain rfl := Option.some.inj (told.symm.trans same)
      obtain ⟨started, undecided, uncancelled, unsettled⟩ := polling_iff.mp polling
      rw [sameConfig]
      have own : member.node = node := by
        rw [← sameNodes, List.getElem?_map, found] at listed
        exact Option.some.inj listed
      have failed := (polled index member found).fails asking unhealthy limited last now
      rw [own] at failed
      constructor
      · intro seen
        refine ⟨started, undecided, uncancelled, ?_, ?_⟩
        · cases dropped : check.dropped with
          | false => exact dropped
          | true =>
              obtain ⟨moment, known, drop, time⟩ := course.dropped_now rfl dropped undecided
              exact absurd drop (heard moment known time)
        · apply outcome_of_failure unsettled found failed
          refine seen.imp (fun few => count ▸ few) fun front earlier before other here => ?_
          exact (polled earlier other here).healthy_iff.mpr (front earlier before)
      · intro unseen
        obtain ⟨many, hidden⟩ := not_or.mp unseen
        obtain ⟨earlier, front, silent⟩ : ∃ earlier < index, .ok true ∉ answers earlier moments := by
          simpa using hidden
        obtain ⟨bound, -⟩ := List.getElem?_eq_some_iff.mp found
        have here : check.members[earlier]? = some check.members[earlier] :=
          List.getElem?_eq_getElem (Nat.lt_trans front bound)
        have waits : check.members[earlier].phase ≠ .healthy := fun phase =>
          silent ((polled earlier _ here).healthy_iff.mp phase)
        apply polling_iff.mpr
        exact ⟨started, undecided, uncancelled,
          outcome_withheld unsettled (count ▸ many) front here waits _⟩

end Check

namespace Network

/-- A check ends with a failure at an instant: it was concluded then, or it can be and no time has
passed, and no node has been polled since. -/
structure EndsWith (id : CheckId) (instant : Nat) (reason : HealthError)
    (late : List (Network × Action)) (network : Network) : Prop where
  unasked : ∀ entry ∈ late, ∀ index, entry.2 ≠ .check id (.ask index)
  ends : ∃ check, network.check? id = some check ∧
    (check.verdict = some (.failed reason) ∧
        (∃ entry ∈ late, entry.1.now = instant ∧ entry.2 = .check id .conclude) ∨
      check.verdict = none ∧ network.now = instant ∧
        ∃ next, network.step? (.check id .conclude) = some next ∧
          (next.check? id).bind Check.verdict = some (.failed reason))

structure GoesOn (id : CheckId) (network : Network) : Prop where
  polling : ∃ check, network.check? id = some check ∧ check.isPolling = true
  unsettled : network.step? (.check id .conclude) = none

variable {network last : Network} {id : CheckId} {check : Check} {instant : Nat}

/-- At an instant at which nobody cancels or drops a check it takes steps of its own only. -/
theorem course_of_calm {history : List (Network × Action)}
    (calm : ∀ entry ∈ history, entry.1.now = instant →
      entry.2 ≠ .cancel id ∧ entry.2 ≠ .dropSignal id) :
    ∀ moment ∈ courseOf id history, moment.time = instant →
      moment.event ≠ .cancelled ∧ moment.event ≠ .dropped := by
  intro moment known time
  obtain ⟨entry, taken, action, clock⟩ := mem_course_of.mp known
  obtain ⟨uncancelled, kept⟩ := calm entry taken (clock.symm.trans time)
  rw [action] at uncancelled kept
  exact ⟨fun fired => uncancelled (fired ▸ rfl), fun dropped => kept (dropped ▸ rfl)⟩

theorem ends_with_of_settled {late : List (Network × Action)} {reason : HealthError}
    (rest : Trace network late last) (sound : Sound network) (watched : Watched network id check)
    (settled : Check.Settled check (.error reason))
    (calm : ∀ moment ∈ courseOf id late, moment.time = network.now →
      moment.event ≠ .cancelled ∧ moment.event ≠ .dropped) :
    EndsWith id network.now reason late last := by
  obtain ⟨final, still, onward⟩ := course_of_trace rest sound watched
  obtain ⟨unasked, ends⟩ := onward.settled_ends settled calm
  refine ⟨fun entry taken index asks => ?_, final, still.found, ?_⟩
  · exact unasked ⟨entry.1.now, .step (.ask index)⟩
      (mem_course_of.mpr ⟨entry, taken, asks, rfl⟩) index rfl
  · rcases ends with ⟨unpassed, rfl⟩ | ⟨decided, concluded⟩
    · obtain ⟨events, possible⟩ := settled.concludes last.now
      obtain ⟨next, taken, verdict⟩ := step_check_possible still.found possible
      refine .inr ⟨settled.undecided, unpassed, next, taken, ?_⟩
      rw [verdict]
      rfl
    · obtain ⟨entry, taken, action, time⟩ := mem_course_of.mp concluded
      exact .inl ⟨decided, entry, taken, time.symm, action⟩

theorem goes_on_of_polling (found : network.check? id = some check)
    (polling : check.isPolling = true) : GoesOn id network := by
  refine ⟨⟨check, found, polling⟩, ?_⟩
  have impossible : check.step? network.now .conclude = none := by
    simp [Check.step?, (Check.polling_iff.mp polling).unsettled]
  simp only [step?, stepCheck, found, impossible]

/-- A node of the snapshot has used up its polls, with the token silent and the signal kept at that
instant. If its failure is seen, the check ends with it at that instant; if not, it goes on. -/
theorem first_failure_ends_check {config : NetworkConfig} {state there network : Network}
    {cancelled : Bool} {early middle late : List (Network × Action)} {index : Nat} {node : Node}
    {reply : Reply} {answer : Except ApiError Bool}
    (trace : Trace (construct config)
      (early ++ (state, .begin (.healthy cancelled)) :: middle ++
        (there, .check state.nextCall (.answer index reply)) :: late) network)
    (opened : state.registry.stopped = false)
    (listed : (state.registry.nodes.map Prod.snd)[index]? = some node)
    (told : reply.answer? = some answer) (unhealthy : answer ≠ .ok true)
    (limited : 0 < config.health.maxAttempts.toNat)
    (last : Check.polls index (courseOf state.nextCall middle) = config.health.maxAttempts.toNat)
    (calm : ∀ entry ∈ middle ++ late, entry.1.now = there.now →
      entry.2 ≠ .cancel state.nextCall ∧ entry.2 ≠ .dropSignal state.nextCall) :
    (Check.Seen (state.registry.nodes.map Prod.snd) index (courseOf state.nextCall middle) →
      EndsWith state.nextCall there.now
        (Check.failureOf node config.health.maxAttempts.toNat answer) late network) ∧
    (¬Check.Seen (state.registry.nodes.map Prod.snd) index (courseOf state.nextCall middle) →
      ∃ next, there.step? (.check state.nextCall (.answer index reply)) = some next ∧
        GoesOn state.nextCall next) := by
  obtain ⟨before, next, step, rest⟩ := trace.split
  obtain ⟨check, watched, course⟩ := course_of_healthy before opened
  rw [reachable_health (reachable_of_trace before.split.1)] at course
  obtain ⟨same, after, present, change, clock, later⟩ := change_of_step_check step
  obtain rfl : same = check := Option.some.inj (present.symm.trans watched.found)
  have found : next.check? state.nextCall = some after :=
    (later _).trans ((check_of_set present after).trans (if_pos rfl))
  have quiet := course_of_calm calm
  rw [course_of_append] at quiet
  obtain ⟨settles, goesOn⟩ := course.last_poll_fails change listed told unhealthy limited last
    fun moment known time => (quiet moment (List.mem_append_left _ known) time).2
  constructor
  · intro seen
    have here := reachable_sound (reachable_of_trace before)
    have move := move_of_step here.one_builder step
    have still : Watched next state.nextCall after :=
      ⟨found, move_outcome here move watched.told⟩
    rw [← clock] at quiet ⊢
    apply ends_with_of_settled rest (sound_move here move) still (settles seen)
    exact fun moment known => quiet moment (List.mem_append_right _ known)
  · intro unseen
    exact ⟨next, step, goes_on_of_polling found (goesOn unseen)⟩

def pollAll (names : List String) : List Action :=
  .begin (.healthy false) :: .check 1 (.begin ⟨1, 0⟩) ::
    (List.range names.length).map fun index => .check 1 (.ask index)

def failOne (index : Nat) (rest : List Action) : List Action :=
  .check 1 (.answer index (.healthy false)) :: rest

theorem fail_one_runs {names : List String} {index : Nat} {name : String} {rest : List Action}
    {verdict : Option Verdict} (listed : names[index]? = some name)
    (quiet : ∀ action ∈ rest, action ≠ .cancel 1 ∧ action ≠ .dropSignal 1)
    (ran : ((construct (lastChances names)).run? (startAll names)).bind (fun state =>
      (state.run? (pollAll names)).bind fun there =>
        (there.run? (failOne index rest)).map fun last =>
          (state.nextCall, state.registry.stopped, (state.registry.nodes.map Prod.snd).map Node.name,
            Check.polls index (courseOf 1 (state.historyOf (pollAll names))),
            (last.check? 1).bind Check.verdict)) = some (1, false, names, 1, verdict)) :
    ∃ state there network early middle late node,
      Trace (construct (lastChances names)) (early ++ (state, .begin (.healthy false)) :: middle ++
        (there, .check state.nextCall (.answer index (.healthy false))) :: late) network ∧
      state.registry.stopped = false ∧
      ((state.registry.nodes.map Prod.snd).length = names.length ∧
        (state.registry.nodes.map Prod.snd)[index]? = some node ∧ node.name = name) ∧
      Check.polls index (courseOf state.nextCall middle) = 1 ∧
      (∀ entry ∈ middle ++ late, entry.1.now = there.now →
        entry.2 ≠ .cancel state.nextCall ∧ entry.2 ≠ .dropSignal state.nextCall) ∧
      (network.check? state.nextCall).bind Check.verdict = verdict := by
  obtain ⟨state, run, more⟩ := Option.bind_eq_some_iff.mp ran
  obtain ⟨there, polling, last⟩ := Option.bind_eq_some_iff.mp more
  obtain ⟨network, onward, facts⟩ := Option.map_eq_some_iff.mp last
  simp only [Prod.mk.injEq] at facts
  obtain ⟨first, opened, named, polled, decided⟩ := facts
  obtain ⟨middle, begun⟩ := history_of_cons polling
  obtain ⟨late, answered⟩ := history_of_cons onward
  have trace := ((trace_of_history run).append (begun ▸ trace_of_history polling)).append
    (answered ▸ trace_of_history onward)
  have count : (state.registry.nodes.map Prod.snd).length = names.length := by
    simpa using congrArg List.length named
  obtain ⟨node, found, called⟩ : ∃ node,
      (state.registry.nodes.map Prod.snd)[index]? = some node ∧ node.name = name := by
    rw [← named, List.getElem?_map] at listed
    exact Option.map_eq_some_iff.mp listed
  have asked : Check.polls index (courseOf 1 middle) = 1 := by
    have whole : state.historyOf (pollAll names) = (state, .begin (.healthy false)) :: middle := begun
    rw [whole] at polled
    exact polled
  have calm : ∀ entry ∈ middle ++ late, entry.2 ≠ .cancel 1 ∧ entry.2 ≠ .dropSignal 1 := by
    intro entry known
    rcases List.mem_append.mp known with before | after
    · have taken := taken_in_history (begun ▸ List.mem_cons_of_mem _ before)
      simp only [List.mem_cons, List.mem_map] at taken
      rcases taken with same | same | ⟨_, -, same⟩
      · simp [same]
      · simp [same]
      · simp [← same]
    · have taken := taken_in_history (answered ▸ List.mem_cons_of_mem _ after)
      rcases List.mem_cons.mp taken with same | goesOn
      · simp [same]
      · exact quiet _ goesOn
  refine ⟨state, there, network, (construct (lastChances names)).historyOf (startAll names), middle,
    late, node, ?_, opened, ⟨count, found, called⟩, ?_⟩
  · rw [first]
    exact trace
  · rw [first]
    exact ⟨asked, fun entry known _ => calm entry known, decided⟩

/-- The second of two nodes fails while the first one hangs. -/
theorem second_of_two_ends_check :
    ∃ state there network early middle late node,
      Trace (construct (lastChances ["first", "second"]))
        (early ++ (state, .begin (.healthy false)) :: middle ++
          (there, .check state.nextCall (.answer 1 (.healthy false))) :: late) network ∧
      node.name = "second" ∧
      EndsWith state.nextCall there.now (Check.failureOf node 1 (.ok false)) late network := by
  obtain ⟨state, there, network, early, middle, late, node, trace, opened, ⟨count, listed, name⟩,
    last, calm, -⟩ := @fail_one_runs ["first", "second"] 1 "second" [.check 1 .conclude]
      (some (.failed (.unhealthy "second" 1))) rfl (by simp) (by decide +kernel)
  have few : (state.registry.nodes.map Prod.snd).length ≤ Check.eagerLimit := by
    rw [count]
    decide
  have ends := (first_failure_ends_check trace opened listed rfl (by simp) (by decide) last calm).1
    (.inl few)
  exact ⟨state, there, network, early, middle, late, node, trace, name, ends⟩

def crowd : List String :=
  ["a", "b", "c", "d", "e", "f", "g", "h", "i", "j", "k", "l", "m", "n", "o", "p", "q", "r", "s",
    "t", "u", "v", "w", "x", "y", "z", "A", "B", "C", "D", "E"]

/-- The last of many nodes fails while the others hang: the check ends with the timeout instead. -/
theorem crowded_failure_is_withheld :
    ¬∀ config state there network cancelled early middle late index node reply answer,
      Trace (construct config) (early ++ (state, .begin (.healthy cancelled)) :: middle ++
        (there, .check state.nextCall (.answer index reply)) :: late) network →
      state.registry.stopped = false →
      (state.registry.nodes.map Prod.snd)[index]? = some node →
      reply.answer? = some answer → answer ≠ .ok true →
      0 < config.health.maxAttempts.toNat →
      Check.polls index (courseOf state.nextCall middle) = config.health.maxAttempts.toNat →
      (∀ entry ∈ middle ++ late, entry.1.now = there.now →
        entry.2 ≠ .cancel state.nextCall ∧ entry.2 ≠ .dropSignal state.nextCall) →
      EndsWith state.nextCall there.now
        (Check.failureOf node config.health.maxAttempts.toNat answer) late network := by
  intro short
  obtain ⟨state, there, network, early, middle, late, node, trace, opened, ⟨-, listed, -⟩, last,
    calm, decided⟩ := @fail_one_runs crowd 30 "E" [.pass 1000, .check 1 .expire]
      (some (.failed (.timeout 1))) rfl (by simp) (by decide +kernel)
  have ends := short _ state there network false early middle late 30 node _ _ trace opened listed
    rfl (by simp) (by decide) last calm
  obtain ⟨check, found, ⟨other, -⟩ | ⟨none, -⟩⟩ := ends.ends
  · rw [found, Option.bind_some, other] at decided
    simp [Check.failureOf] at decided
  · rw [found, Option.bind_some, none] at decided
    cases decided

end Network

end LocalNet
