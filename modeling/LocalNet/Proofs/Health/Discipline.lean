import Mathlib.Algebra.BigOperators.Group.Finset.Piecewise
import Mathlib.Algebra.Order.BigOperators.Group.Finset
import LocalNet.Proofs.Health.Pace
import LocalNet.Proofs.Validation.Judgement

/-!
# Discipline of the polls

A check polls a node only while its outcome is open, and only when that node is due: once in its first
instant, and then an interval after each answer, until a clean one or the last that is allowed. What
ends the check ends all polls.
-/

namespace LocalNet

namespace Check

def Event.decides : Event → Bool
  | .step .conclude => true
  | .step .expire => true
  | .step .giveUp => true
  | .step .dismiss => true
  | .step (.answer _ .panicked) => true
  | _ => false

/-- What holds when a poll of a node starts, after the moments before it. -/
structure PollStarts (start : Check) (since index time : Nat) (before : List Moment) : Prop where
  /-- No verdict was reached, and none can be told from the answers so far. -/
  unsettled : ∃ check, Course start since before time check ∧ check.outcome? = none
  undecided : ∀ moment ∈ before, moment.event.decides = false
  uncancelled : ¬Fired start.cancelled before
  inTime : ∃ reading : ClockReading, ⟨since, .step (.begin reading)⟩ ∈ before ∧
    time ≤ reading.deadlineAfter since start.config.timeoutSecs.toNat
  /-- The signal may have been dropped in this very instant, but not earlier. -/
  heard : ∀ moment ∈ before, moment.event = .dropped → moment.time = time
  /-- No other poll of the node is in flight. -/
  alone : polls index before = (answers index before).length
  unhealthy : .ok true ∉ answers index before
  allowed : start.config.maxAttempts ≠ 0 → polls index before < start.config.maxAttempts.toNat
  paced : own index before = [] ∧ time = since ∨
    ∃ earlier answered reply,
      own index before = earlier ++ [⟨answered, .step (.answer index reply)⟩] ∧
      time = answered + start.config.pollIntervalMs

variable {config : HealthConfig} {nodes : List Node} {cancelled : Bool}
variable {start check next : Check} {since now index : Nat}
variable {moments : List Moment} {event : Event}

theorem Change.decides_not (change : Change now check event next) (undecided : next.verdict = none) :
    event.decides = false := by
  cases change with
  | answered found polling asking told =>
      rename_i reply answer
      cases reply with
      | panicked => cases told
      | _ => rfl
  | broke | concluded | expired | gaveUp | dismissed => cases undecided
  | _ => rfl

theorem Course.decides_not (course : Course start since moments now check)
    (undecided : check.verdict = none) : ∀ moment ∈ moments, moment.event.decides = false := by
  induction course with
  | nil => simp
  | moved before change ih =>
      intro moment known
      rcases List.mem_append.mp known with old | new
      · exact ih (change.was_undecided undecided) moment old
      · rw [List.mem_singleton.mp new]
        exact change.decides_not undecided
  | passed before forward idle limited ih => exact ih undecided

theorem Course.dropped_last (course : Course start since moments now check) {moment : Moment}
    (known : moment ∈ moments) (drop : moment.event = .dropped) :
    check.dropped = true ∧ (check.verdict = none → moment.time = now) := by
  induction course with
  | nil => cases known
  | @moved moments now check next event before change ih =>
      rcases List.mem_append.mp known with old | new
      · obtain ⟨marked, time⟩ := ih old
        refine ⟨?_, fun undecided => time (change.was_undecided undecided)⟩
        cases change with
        | dropped => rfl
        | _ => exact marked
      · obtain rfl := List.mem_singleton.mp new
        cases drop
        cases change
        exact ⟨rfl, fun _ => rfl⟩
  | passed before forward idle limited ih =>
      obtain ⟨marked, -⟩ := ih known
      refine ⟨marked, fun undecided => ?_⟩
      have heard := (not_urgent_of_idle idle undecided).2.2.1
      exact absurd (heard.symm.trans marked) (by simp)

theorem asks_iff {moment : Moment} :
    moment.asks index = true ↔ moment.event = .step (.ask index) := by
  simp [Moment.asks]

/-- A node that is due awaits no answer, has not answered that it is healthy, and may be polled. -/
theorem Polled.due {member : Member} {asked : Nat} {told : List (Except ApiError Bool)}
    (polled : Polled config member asked told) (due : isDue now member = true) :
    asked = told.length ∧ .ok true ∉ told ∧
      (config.maxAttempts ≠ 0 → asked < config.maxAttempts.toNat) := by
  cases polled with
  | fresh phase counted unasked silent =>
      subst unasked silent
      exact ⟨rfl, by simp, limited_iff.mp⟩
  | resting phase counted answered unhealthy more => exact ⟨answered, unhealthy, more⟩
  | asking phase | healthy phase | failed phase => simp [isDue, phase] at due

theorem Course.poll_starts {before after : List Moment} {moment : Moment}
    (course : Course (ofSnapshot config nodes cancelled) since (before ++ moment :: after) now check)
    (asks : moment.asks index = true) :
    index < nodes.length ∧
      PollStarts (ofSnapshot config nodes cancelled) since index moment.time before := by
  obtain ⟨reached, changed, early, change, -⟩ := course.split
  have sameNodes : reached.members.map Member.node = nodes :=
    early.nodes_eq.trans (of_snapshot_nodes config nodes cancelled)
  rw [asks_iff.mp asks] at change
  cases change with
  | @asked _ member found polling due =>
      obtain ⟨started, undecided, uncancelled, unsettled⟩ := polling_iff.mp polling
      have bound : index < nodes.length := by
        rw [← sameNodes, List.length_map]
        exact (List.getElem?_eq_some_iff.mp found).1
      have paced := early.paced undecided of_snapshot_fresh index member found
      have polled := early.polled of_snapshot_fresh index member found
      obtain ⟨reading, begun, deadline⟩ := (early.on_time rfl).deadline started
      have inTime := (early.on_time rfl).inTime undecided _ deadline
      rw [early.config_eq] at polled paced inTime
      obtain ⟨alone, unhealthy, allowed⟩ := polled.due due
      refine ⟨bound, ⟨⟨reached, early, unsettled⟩, early.decides_not undecided, fun fired => ?_,
        ⟨reading, begun, inTime⟩, fun moment known drop => (early.dropped_last known drop).2 undecided, alone, unhealthy,
        allowed, paced.due due⟩⟩
      exact absurd ((early.flags.1.mpr fired).symm.trans uncancelled) (by simp)

theorem nth_poll {count : Nat} (more : count < polls index moments) :
    ∃ before moment after, moments = before ++ moment :: after ∧ moment.asks index = true ∧
      polls index before = count := by
  induction moments using List.reverseRecOn with
  | nil => simp [polls] at more
  | append_singleton moments last ih =>
      by_cases earlier : count < polls index moments
      · obtain ⟨before, moment, after, rfl, asks, same⟩ := ih earlier
        exact ⟨before, moment, after ++ [last], by simp, asks, same⟩
      · rw [polls_append] at more
        cases asks : last.asks index with
        | false => simp [polls, asks] at more earlier; omega
        | true =>
            refine ⟨moments, last, [], rfl, asks, ?_⟩
            simp [polls, asks] at more earlier ⊢
            omega

/-- Why a check may have ended in its first instant before it could poll every node. -/
inductive EndsAtOnce (config : HealthConfig) (since : Nat) (moments : List Moment) : Prop where
  | failed {index : Nat} {reply : Reply} {answer : Except ApiError Bool}
      (only : config.maxAttempts.toNat = 1)
      (known : ⟨since, .step (.answer index reply)⟩ ∈ moments) (told : reply.answer? = some answer)
      (unhealthy : answer ≠ .ok true) (ended : ⟨since, .step .conclude⟩ ∈ moments)
  | panicked {index : Nat} (known : ⟨since, .step (.answer index .panicked)⟩ ∈ moments)
  | cancelled (known : ⟨since, .cancelled⟩ ∈ moments) (ended : ⟨since, .step .giveUp⟩ ∈ moments)
  | dropped (known : ⟨since, .dropped⟩ ∈ moments) (ended : ⟨since, .step .dismiss⟩ ∈ moments)

theorem EndsAtOnce.grow (ends : EndsAtOnce config since moments) (later : List Moment) :
    EndsAtOnce config since (moments ++ later) := by
  cases ends with
  | failed only known told unhealthy ended =>
      exact .failed only (List.mem_append_left _ known) told unhealthy
        (List.mem_append_left _ ended)
  | panicked known => exact .panicked (List.mem_append_left _ known)
  | cancelled known ended =>
      exact .cancelled (List.mem_append_left _ known) (List.mem_append_left _ ended)
  | dropped known ended =>
      exact .dropped (List.mem_append_left _ known) (List.mem_append_left _ ended)

theorem Course.unpolled_fresh (course : Course start since moments now check)
    (fresh : ∀ member ∈ start.members, member.phase = .fresh ∧ member.attempts = 0)
    (unpolled : polls index moments = 0) :
    ∀ member, check.members[index]? = some member → member.phase = .fresh := by
  induction course with
  | nil => exact fun member here => (fresh member (List.mem_of_getElem? here)).1
  | moved before change ih =>
      rw [polls_append, Nat.add_eq_zero_iff] at unpolled
      obtain ⟨earlier, last⟩ := unpolled
      intro member here
      cases change with
      | @asked target asked found =>
          rw [set_member_lookup found] at here
          split at here
          · rename_i same
            simp [same, polls, Moment.asks] at last
          · exact ih earlier member here
      | @answered target asked reply answer found polling asking =>
          rw [set_member_lookup found] at here
          split at here
          · rename_i same
            subst same
            have still := ih earlier asked found
            rw [asking] at still
            cases still
          · exact ih earlier member here
      | _ => exact ih earlier member here
  | passed before forward idle limited ih => exact ih unpolled

theorem Course.unpolled_due
    (course : Course (ofSnapshot config nodes cancelled) since moments now check)
    (bound : index < nodes.length) (unpolled : polls index moments = 0) :
    ∃ member, check.members[index]? = some member ∧ member.phase = .fresh ∧
      isDue now member = true := by
  have sameNodes : check.members.map Member.node = nodes :=
    course.nodes_eq.trans (of_snapshot_nodes config nodes cancelled)
  rw [← sameNodes, List.length_map] at bound
  have here : check.members[index]? = some check.members[index] := List.getElem?_eq_getElem bound
  have phase := course.unpolled_fresh of_snapshot_fresh unpolled _ here
  exact ⟨_, here, phase, by simp [isDue, phase]⟩

theorem answer_iff {moment : Moment} {answer : Except ApiError Bool} :
    moment.answer? index = some answer ↔
      ∃ reply, moment.event = .step (.answer index reply) ∧ reply.answer? = some answer := by
  constructor
  · intro told
    unfold Moment.answer? at told
    split at told
    · rename_i other reply event
      split at told
      · rename_i same
        subst same
        exact ⟨reply, event, told⟩
      · cases told
    · cases told
  · rintro ⟨reply, event, told⟩
    simp [Moment.answer?, event, told]

theorem polls_le_own (index : Nat) (moments : List Moment) :
    polls index moments ≤ (own index moments).length := by
  rw [own, ← List.countP_eq_length_filter]
  apply List.countP_mono_left
  intro moment _ asks
  simp [Moment.concerns, asks_iff.mp asks]

/-- A node that fails in the first instant has only one poll, if there is an interval between polls. -/
theorem Course.only_poll (course : Course (ofSnapshot config nodes cancelled) since moments now check)
    (interval : 0 < config.pollIntervalMs) (atOnce : now = since) : polls index moments ≤ 1 := by
  by_contra more
  obtain ⟨before, moment, after, rfl, asks, first⟩ := nth_poll (Nat.lt_of_not_le more)
  obtain ⟨-, starts⟩ := course.poll_starts asks
  have late := (course.times.2 moment (by simp)).2
  rcases starts.paced with ⟨silent, -⟩ | ⟨earlier, answered, reply, last, again⟩
  · have none := polls_le_own index before
    simp [silent, first] at none
  · have known : (⟨answered, .step (.answer index reply)⟩ : Moment) ∈ own index before := by
      simp [last]
    have later := (course.times.2 _ (List.mem_append_left _ (List.mem_filter.mp known).1)).1
    simp only [ofSnapshot] at again
    dsimp only at later
    omega

theorem Course.ends_at_once
    (course : Course (ofSnapshot config nodes cancelled) since moments since check)
    (interval : 0 < config.pollIntervalMs) (quiet : cancelled = false)
    (bound : index < nodes.length) (unpolled : polls index moments = 0)
    (undecided : check.verdict = none) (change : Change since check event next)
    (decided : next.verdict ≠ none) : EndsAtOnce config since (moments ++ [⟨since, event⟩]) := by
  obtain ⟨member, here, phase, due⟩ := course.unpolled_due bound unpolled
  have listed := List.mem_of_getElem? here
  have last : (⟨since, event⟩ : Moment) ∈ moments ++ [⟨since, event⟩] :=
    List.mem_append_right _ (List.mem_singleton_self _)
  -- Nothing has befallen the check at any other time.
  have instant {moment : Moment} (known : moment ∈ moments) : moment.time = since := by
    have times := course.times.2 moment known
    exact Nat.le_antisymm times.2 times.1
  cases change with
  | begun | asked | answered | cancelled | dropped => exact absurd undecided decided
  | broke => exact .panicked last
  | @concluded outcome started open_ uncancelled settled =>
      cases outcome with
      | ok =>
          have healthy := outcome_ok settled member listed
          rw [phase] at healthy
          cases healthy
      | error reason =>
          obtain ⟨failed, known, fault⟩ := outcome_error settled
          obtain ⟨other, found⟩ := List.mem_iff_getElem?.mp known
          have polled := course.polled of_snapshot_fresh other failed found
          rw [course.config_eq] at polled
          obtain ⟨answer, unhealthy, exhausted, -⟩ := polled.exhausted fault
          have only : config.maxAttempts.toNat = 1 := by
            have most : polls other moments ≤ 1 := course.only_poll interval rfl
            have some : 0 < config.maxAttempts.toNat := exhausted.limited
            have all : polls other moments = config.maxAttempts.toNat := exhausted.polled
            omega
          obtain ⟨⟨time, event⟩, heard, told⟩ :=
            List.mem_filterMap.mp (List.mem_of_getLast? exhausted.last)
          obtain ⟨reply, rfl, brought⟩ := answer_iff.mp told
          obtain rfl := instant heard
          exact .failed only (List.mem_append_left _ heard) brought unhealthy last
  | expired polling limit late idle =>
      exact absurd due (List.any_eq_false.mp idle member listed)
  | gaveUp started open_ fired =>
      rcases course.flags.1.mp fired with already | ⟨⟨time, event⟩, known, rfl⟩
      · exact absurd (already.symm.trans quiet) (by simp)
      · obtain rfl := instant known
        exact .cancelled (List.mem_append_left _ known) last
  | dismissed open_ heard =>
      rcases course.flags.2 heard with never | ⟨⟨time, event⟩, known, rfl⟩
      · cases never
      · obtain rfl := instant known
        exact .dropped (List.mem_append_left _ known) last

/-- A node is left out of the first instant only if the check ends in it. -/
theorem Course.unpolled_ends
    (course : Course (ofSnapshot config nodes cancelled) since moments now check)
    (interval : 0 < config.pollIntervalMs) (quiet : cancelled = false)
    (bound : index < nodes.length) (unpolled : polls index moments = 0) :
    (check.verdict = none → now = since) ∧
      (check.verdict ≠ none → EndsAtOnce config since moments) := by
  generalize same : ofSnapshot config nodes cancelled = start at course
  induction course with
  | nil =>
      subst same
      exact ⟨fun _ => rfl, fun decided => absurd rfl decided⟩
  | @moved moments now check next event before change ih =>
      rw [polls_append, Nat.add_eq_zero_iff] at unpolled
      obtain ⟨atOnce, ends⟩ := ih unpolled.1
      refine ⟨fun undecided => atOnce (change.was_undecided undecided), fun decided => ?_⟩
      cases was : check.verdict with
      | some verdict => exact (ends (by simp [was])).grow _
      | none =>
          subst same
          obtain rfl := atOnce was
          exact before.ends_at_once interval quiet bound unpolled.1 was change decided
  | @passed moments now later check before forward idle limited ih =>
      obtain ⟨atOnce, ends⟩ := ih unpolled
      refine ⟨fun undecided => ?_, ends⟩
      subst same
      obtain ⟨member, here, -, due⟩ := before.unpolled_due bound unpolled
      have none := (not_urgent_of_idle idle undecided).2.2.2.2
      have undue := List.any_eq_false.mp none member (List.mem_of_getElem? here)
      exact absurd due undue

theorem PollStarts.first {time : Nat} (starts : PollStarts start since index time moments)
    (unpolled : polls index moments = 0) : time = since := by
  rcases starts.paced with ⟨-, atOnce⟩ | ⟨earlier, answered, reply, last, -⟩
  · exact atOnce
  · have heard : (⟨answered, .step (.answer index reply)⟩ : Moment) ∈ moments := by
      have known : (⟨answered, .step (.answer index reply)⟩ : Moment) ∈ own index moments := by
        simp [last]
      exact (List.mem_filter.mp known).1
    have open_ := starts.undecided _ heard
    have none : answers index moments = [] := by
      rw [← List.length_eq_zero_iff, ← starts.alone, unpolled]
    have silent := List.filterMap_eq_nil_iff.mp none _ heard
    cases reply with
    | panicked => cases open_
    | healthy value | failed reason => simp [Moment.answer?, Reply.answer?] at silent

theorem Course.next_poll_waits {answered : Nat} {reply : Reply} {earlier : List Moment}
    (course : Course (ofSnapshot config nodes cancelled) since moments now check)
    (undecided : check.verdict = none) (bound : index < nodes.length)
    (last : own index moments = earlier ++ [⟨answered, .step (.answer index reply)⟩])
    (unhealthy : .ok true ∉ answers index moments)
    (more : config.maxAttempts ≠ 0 → polls index moments < config.maxAttempts.toNat) :
    now ≤ answered + config.pollIntervalMs := by
  have sameNodes : check.members.map Member.node = nodes :=
    course.nodes_eq.trans (of_snapshot_nodes config nodes cancelled)
  rw [← sameNodes, List.length_map] at bound
  have here : check.members[index]? = some check.members[index] := List.getElem?_eq_getElem bound
  have paced := course.paced undecided of_snapshot_fresh index _ here
  have polled := course.polled of_snapshot_fresh index _ here
  rw [course.config_eq] at paced polled
  cases paced with
  | fresh phase silent => simp [silent] at last
  | asking phase other =>
      have same := List.append_inj_right' (last.symm.trans other) rfl
      cases same
  | resting phase other waits =>
      have same := List.append_inj_right' (last.symm.trans other) rfl
      cases same
      exact waits
  | finished phase =>
      rcases phase with phase | ⟨reason, phase⟩
      · exact absurd (polled.healthy_iff.mp phase) unhealthy
      · obtain ⟨answer, -, exhausted, -⟩ := polled.exhausted phase
        have below := more (limited_iff.mpr exhausted.limited)
        have all : polls index moments = config.maxAttempts.toNat := exhausted.polled
        omega

theorem Course.unpolled_of_fired
    (course : Course (ofSnapshot config nodes true) since moments now check) (index : Nat) :
    polls index moments = 0 := by
  by_contra polled
  obtain ⟨before, moment, after, rfl, asks, -⟩ := nth_poll (Nat.pos_of_ne_zero polled)
  exact (course.poll_starts asks).2.uncancelled (.inl rfl)

/-- Once the first instant is over, every node was polled in it, or the check ended in it. -/
theorem Course.polled_at_once
    (course : Course (ofSnapshot config nodes cancelled) since moments now check)
    (interval : 0 < config.pollIntervalMs) (quiet : cancelled = false)
    (late : since < now ∨ check.verdict ≠ none) (bound : index < nodes.length) :
    (∃ moment ∈ moments, moment.asks index = true ∧ moment.time = since) ∨
      EndsAtOnce config since moments := by
  by_cases unpolled : polls index moments = 0
  · obtain ⟨atOnce, ends⟩ := course.unpolled_ends interval quiet bound unpolled
    refine .inr (ends fun undecided => ?_)
    rcases late with passed | decided
    · exact absurd (atOnce undecided) (Nat.ne_of_gt passed)
    · exact decided undecided
  · obtain ⟨before, moment, after, rfl, asks, first⟩ := nth_poll (Nat.pos_of_ne_zero unpolled)
    exact .inl ⟨moment, by simp, asks, (course.poll_starts asks).2.first first⟩

theorem judged_attempts (config : HealthConfig) (now : Nat) (member : Member)
    (answer : Except ApiError Bool) :
    (Member.judged config now member answer).attempts = member.attempts := by
  unfold Member.judged
  split
  · rfl
  · split <;> rfl

theorem Course.counted (course : Course start since moments now check)
    (fresh : ∀ member ∈ start.members, member.phase = .fresh ∧ member.attempts = 0) :
    ∀ index member, check.members[index]? = some member →
      member.attempts = polls index moments := by
  induction course with
  | nil => exact fun index member here => (fresh member (List.mem_of_getElem? here)).2
  | moved before change ih =>
      intro index member here
      rw [polls_append]
      cases change with
      | @asked target asked found =>
          rw [set_member_lookup found] at here
          split at here
          · rename_i same
            cases here
            simp [ih target asked found, ← same, polls, Moment.asks]
          · rename_i other
            simp [ih index member here, polls, Moment.asks, other]
      | @answered target asked reply answer found =>
          rw [set_member_lookup found] at here
          split at here
          · rename_i same
            cases here
            simp [judged_attempts, ih target asked found, ← same, polls, Moment.asks]
          · simp [ih index member here, polls, Moment.asks]
      | _ => simp [ih index member here, polls, Moment.asks]
  | passed before forward idle limited ih => exact ih

theorem Course.polls_le
    (course : Course (ofSnapshot config nodes cancelled) since moments now check)
    (limited : config.maxAttempts ≠ 0) (index : Nat) :
    polls index moments ≤ config.maxAttempts.toNat := by
  cases count : polls index moments with
  | zero => exact Nat.zero_le _
  | succ others =>
      have more : others < polls index moments := by omega
      obtain ⟨before, moment, after, rfl, asks, rfl⟩ := nth_poll more
      exact (course.poll_starts asks).2.allowed limited

def Moment.isPoll (moment : Moment) : Bool :=
  match moment.event with
  | .step (.ask _) => true
  | _ => false

open Finset in
theorem count_polls {count : Nat}
    (known : ∀ moment ∈ moments, ∀ index, moment.asks index = true → index < count) :
    moments.countP (·.isPoll) = ∑ index ∈ range count, polls index moments := by
  induction moments with
  | nil => simp [polls]
  | cons moment rest ih =>
      have later := ih fun other member => known other (List.mem_cons_of_mem _ member)
      have here := known moment List.mem_cons_self
      have apart (index : Nat) :
          polls index (moment :: rest) = polls index [moment] + polls index rest :=
        polls_append index [moment] rest
      rw [List.countP_cons, later]
      simp only [apart, sum_add_distrib]
      rw [Nat.add_comm]
      congr 1
      by_cases asked : ∃ target, moment.event = .step (.ask target)
      · obtain ⟨target, event⟩ := asked
        have single (index : Nat) : polls index [moment] = if target = index then 1 else 0 := by
          simp [polls, Moment.asks, event, List.countP_cons]
        have bound : target < count := here target (asks_iff.mpr event)
        simp [single, Moment.isPoll, event, Finset.sum_ite_eq, bound]
      · have single (index : Nat) : polls index [moment] = 0 := by
          simp only [polls, List.countP_singleton, asks_iff]
          exact if_neg fun event => asked ⟨index, event⟩
        have unasked : moment.isPoll = false := by
          unfold Moment.isPoll
          split
          · rename_i target event
            exact absurd ⟨target, event⟩ asked
          · rfl
        simp [single, unasked]

open Finset in
theorem Course.count_le
    (course : Course (ofSnapshot config nodes cancelled) since moments now check)
    (limited : config.maxAttempts ≠ 0) :
    moments.countP (·.isPoll) ≤ nodes.length * config.maxAttempts.toNat := by
  have known : ∀ moment ∈ moments, ∀ index, moment.asks index = true → index < nodes.length := by
    intro moment member index asks
    obtain ⟨before, after, rfl⟩ := List.append_of_mem member
    exact (course.poll_starts asks).1
  rw [count_polls known]
  have most := sum_le_card_nsmul (range nodes.length) (polls · moments) config.maxAttempts.toNat
    fun index _ => course.polls_le limited index
  simpa using most

end Check

namespace Network

open Check (polls answers own PollStarts EndsAtOnce)

variable {network next : Network} {config : NetworkConfig}

theorem interval_of_running (reachable : Reachable config network)
    (running : network.standing = .running) : 0 < config.health.pollIntervalMs := by
  cases judged : validateNetwork config [] {} with
  | mk answer names =>
      cases answer with
      | error reason =>
          have refused := (rejected_launches_nothing judged reachable).1
          exact absurd (running.symm.trans refused) (by simp)
      | ok accepted =>
          have valid := (validate_network_ok_iff config [] {}).mp ⟨accepted, by rw [judged]⟩
          exact UInt64.lt_iff_toNat_lt.mp valid.pollInterval

/-- The discipline of a health check. Under a token that has fired no node is polled. Otherwise every
node is polled in the first instant, unless the check ends in it. Every poll starts while the check is
open, with no other poll of its node in flight, at its time and within what is allowed, and a poll that
is to follow is not late. If polls are limited, so is their number, and no count overflows. -/
theorem polls_are_disciplined {state : Network} {cancelled : Bool}
    {early late : List (Network × Action)}
    (trace : Trace (construct config) (early ++ (state, .begin (.healthy cancelled)) :: late) network)
    (opened : state.registry.stopped = false) :
    let nodes := state.registry.nodes.map Prod.snd
    let start := Check.ofSnapshot config.health nodes cancelled
    let moments := courseOf state.nextCall late
    ∃ check, network.check? state.nextCall = some check ∧
      (cancelled = true → ∀ index, polls index moments = 0) ∧
      (cancelled = false → state.now < network.now ∨ check.verdict ≠ none →
        ∀ index < nodes.length,
          (∃ moment ∈ moments, moment.asks index = true ∧ moment.time = state.now) ∨
            EndsAtOnce config.health state.now moments) ∧
      (∀ before moment after index, moments = before ++ moment :: after →
        moment.asks index = true →
          index < nodes.length ∧ PollStarts start state.now index moment.time before) ∧
      (check.verdict = none → ∀ index < nodes.length, ∀ earlier answered reply,
        own index moments = earlier ++ [⟨answered, .step (.answer index reply)⟩] →
        .ok true ∉ answers index moments →
        (config.health.maxAttempts ≠ 0 →
          polls index moments < config.health.maxAttempts.toNat) →
        network.now ≤ answered + config.health.pollIntervalMs) ∧
      (config.health.maxAttempts ≠ 0 →
        moments.countP (·.isPoll) ≤ nodes.length * config.health.maxAttempts.toNat ∧
        ∀ index member, check.members[index]? = some member →
          member.attempts = polls index moments ∧
          member.attempts ≤ config.health.maxAttempts.toNat ∧
          member.attempts < UInt32.size) := by
  intro nodes start moments
  obtain ⟨before, first, step, -⟩ := trace.split
  have reachable := reachable_of_trace before
  have interval := interval_of_running reachable (running_of_begin step)
  obtain ⟨check, watched, course⟩ := course_of_healthy trace opened
  rw [reachable_health reachable] at course
  change start.Course state.now moments network.now check at course
  refine ⟨check, watched.found, ?_, ?_, ?_, ?_, ?_⟩
  · rintro rfl
    exact course.unpolled_of_fired
  · exact fun quiet late index bound => course.polled_at_once interval quiet late bound
  · intro before moment after index whole asks
    rw [whole] at course
    exact course.poll_starts asks
  · intro undecided index bound earlier answered reply last unhealthy more
    exact course.next_poll_waits undecided bound last unhealthy more
  · intro limited
    refine ⟨course.count_le limited, fun index member here => ?_⟩
    have counted := course.counted Check.of_snapshot_fresh index member here
    have most := course.polls_le limited index
    rw [← counted] at most
    exact ⟨counted, most, Nat.lt_of_le_of_lt most config.health.maxAttempts.toNat_lt⟩

def twoChances : NetworkConfig where
  nodes := [plainNode "first", plainNode "second"]
  health := { maxAttempts := 2, timeoutSecs := 1, pollIntervalMillis := 100 }

/-- The first node is polled again, the second one is healthy at once. -/
def secondTry : List Action :=
  [.begin (.healthy false), .check 1 (.begin ⟨1, 0⟩), .check 1 (.ask 0), .check 1 (.ask 1),
    .check 1 (.answer 0 (.healthy false)), .check 1 (.answer 1 (.healthy true)), .pass 100,
    .check 1 (.ask 0)]

theorem second_try_keeps_pace :
    ∃ state network late,
      Trace (construct twoChances)
        ((construct twoChances).historyOf (startAll ["first", "second"]) ++
          (state, .begin (.healthy false)) :: late) network ∧
      state.registry.stopped = false ∧
      ∃ before moment after, courseOf state.nextCall late = before ++ moment :: after ∧
        polls 0 before = 1 ∧
        PollStarts (.ofSnapshot twoChances.health (state.registry.nodes.map Prod.snd) false)
          state.now 0 moment.time before := by
  have ran : ((construct twoChances).run? (startAll ["first", "second"])).bind (fun state =>
      (state.run? secondTry).map fun _ =>
        (state.nextCall, state.registry.stopped, polls 0 (courseOf 1 (state.historyOf secondTry)))) =
          some (1, false, 2) := by
    decide +kernel
  obtain ⟨state, run, more⟩ := Option.bind_eq_some_iff.mp ran
  obtain ⟨network, onward, facts⟩ := Option.map_eq_some_iff.mp more
  simp only [Prod.mk.injEq] at facts
  obtain ⟨first, opened, polled⟩ := facts
  obtain ⟨late, same⟩ := history_of_cons onward
  have trace := (trace_of_history run).append (same ▸ trace_of_history onward)
  obtain ⟨check, -, -, -, starts, -⟩ := polls_are_disciplined trace opened
  have twice : polls 0 (courseOf state.nextCall late) = 2 := by
    rw [first]
    have whole : state.historyOf secondTry = (state, .begin (.healthy false)) :: late := same
    rw [whole] at polled
    exact polled
  obtain ⟨before, moment, after, whole, asks, once⟩ :=
    @Check.nth_poll 0 (courseOf state.nextCall late) 1 (by omega)
  exact ⟨state, network, late, trace, opened, before, moment, after, whole, once,
    (starts before moment after 0 whole asks).2⟩

end Network

end LocalNet
