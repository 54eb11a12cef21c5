import LocalNet.Proofs.Health.FirstFailure

/-!
# The pace of the polls

A node that was not polled yet, or is due again, keeps time from passing. As long as a check is open,
each node is therefore where its own last moment has left it: it waits for its first poll in the first
instant, for an answer, or for the end of the interval that its last answer began.
-/

namespace LocalNet.Check

def Moment.concerns (index : Nat) (moment : Moment) : Bool :=
  match moment.event with
  | .step (.ask other) => other = index
  | .step (.answer other _) => other = index
  | _ => false

def own (index : Nat) (moments : List Moment) : List Moment :=
  moments.filter (·.concerns index)

variable {config : HealthConfig} {start check next : Check} {since now index : Nat}
variable {moments : List Moment} {event : Event} {member : Member}

theorem Course.split {before after : List Moment} {moment : Moment}
    (course : Course start since (before ++ moment :: after) now check) :
    ∃ reached changed, Course start since before moment.time reached ∧
      Change moment.time reached moment.event changed ∧
      Course changed moment.time after now check := by
  generalize same : before ++ moment :: after = moments at course
  induction course generalizing after with
  | nil => simp at same
  | @moved moments now check next event course change ih =>
      rcases List.eq_nil_or_concat after with rfl | ⟨rest, last, rfl⟩
      · obtain ⟨rfl, ended⟩ := List.append_inj' same rfl
        cases ended
        exact ⟨check, next, course, change, .nil⟩
      · have whole : (before ++ moment :: rest) ++ [last] = moments ++ [⟨now, event⟩] := by
          rw [← same]
          simp
        obtain ⟨shorter, ended⟩ := List.append_inj' whole rfl
        cases ended
        obtain ⟨reached, changed, early, here, late⟩ := ih shorter
        rw [List.concat_eq_append]
        exact ⟨reached, changed, early, here, .moved late change⟩
  | passed course forward idle limited ih =>
      obtain ⟨reached, changed, early, here, late⟩ := ih same
      exact ⟨reached, changed, early, here, .passed late forward idle limited⟩

inductive Paced (config : HealthConfig) (since now index : Nat) (moments : List Moment)
    (member : Member) : Prop where
  | fresh (phase : member.phase = .fresh) (silent : own index moments = []) (atOnce : now = since)
  | asking {earlier : List Moment} {time : Nat} (phase : member.phase = .asking)
      (last : own index moments = earlier ++ [⟨time, .step (.ask index)⟩])
  | resting {earlier : List Moment} {time : Nat} {reply : Reply}
      (phase : member.phase = .resting (time + config.pollIntervalMs))
      (last : own index moments = earlier ++ [⟨time, .step (.answer index reply)⟩])
      (waits : now ≤ time + config.pollIntervalMs)
  | finished (phase : member.phase = .healthy ∨ ∃ reason, member.phase = .failed reason)

theorem Paced.other (paced : Paced config since now index moments member) {moment : Moment}
    (unconcerned : moment.concerns index = false) :
    Paced config since now index (moments ++ [moment]) member := by
  have same : own index (moments ++ [moment]) = own index moments := by
    simp [own, unconcerned]
  cases paced with
  | fresh phase silent atOnce => exact .fresh phase (same.trans silent) atOnce
  | asking phase last => exact .asking phase (same.trans last)
  | resting phase last waits => exact .resting phase (same.trans last) waits
  | finished phase => exact .finished phase

theorem paced_of_judged {reply : Reply} (answer : Except ApiError Bool) :
    Paced config since now index (moments ++ [⟨now, .step (.answer index reply)⟩])
      (Member.judged config now member answer) := by
  have last : own index (moments ++ [⟨now, .step (.answer index reply)⟩]) =
      own index moments ++ [⟨now, .step (.answer index reply)⟩] := by
    simp [own, Moment.concerns]
  by_cases clean : answer = .ok true
  · subst clean
    exact .finished (.inl rfl)
  · rw [judged_otherwise clean]
    split
    · exact .finished (.inr ⟨_, rfl⟩)
    · exact .resting rfl last (Nat.le_add_right ..)

theorem Change.paced (change : Change now check event next) (undecided : next.verdict = none)
    (before : ∀ index member, check.members[index]? = some member →
      Paced check.config since now index moments member) :
    ∀ index member, next.members[index]? = some member →
      Paced next.config since now index (moments ++ [⟨now, event⟩]) member := by
  intro index member here
  cases change with
  | @asked target asked found polling due =>
      rw [set_member_lookup found] at here
      split at here
      · rename_i same
        subst same
        cases here
        have last : own target (moments ++ [⟨now, .step (.ask target)⟩]) =
            own target moments ++ [⟨now, .step (.ask target)⟩] := by
          simp [own, Moment.concerns]
        exact .asking rfl last
      · rename_i other
        exact (before index member here).other (by simpa [Moment.concerns] using other)
  | @answered target asked reply answer found =>
      rw [set_member_lookup found] at here
      split at here
      · rename_i same
        subst same
        cases here
        exact paced_of_judged answer
      · rename_i other
        exact (before index member here).other (by simpa [Moment.concerns] using other)
  | broke => cases undecided
  | _ => exact (before index member here).other rfl

theorem Course.paced (course : Course start since moments now check) (undecided : check.verdict = none)
    (fresh : ∀ member ∈ start.members, member.phase = .fresh ∧ member.attempts = 0) :
    ∀ index member, check.members[index]? = some member →
      Paced check.config since now index moments member := by
  induction course with
  | nil =>
      intro index member here
      exact .fresh (fresh member (List.mem_of_getElem? here)).1 rfl rfl
  | moved before change ih => exact change.paced undecided (ih (change.was_undecided undecided))
  | @passed moments now later check before forward idle limited ih =>
      intro index member here
      have known := List.mem_of_getElem? here
      have undue : isDue now member = false := by
        have none := (not_urgent_of_idle idle undecided).2.2.2.2
        simpa using List.any_eq_false.mp none member known
      cases ih undecided index member here with
      | fresh phase => simp [isDue, phase] at undue
      | asking phase last => exact .asking phase last
      | @resting _ time _ phase last waits =>
          refine .resting phase last (limited _ ?_)
          simp only [dueTimes, undecided, Option.isSome_none, Bool.false_eq_true, if_false,
            List.mem_append, List.mem_filterMap]
          exact .inr ⟨member, known, by simp [phase]⟩
      | finished phase => exact .finished phase

/-- A node that is due is due now: in the first instant, or an interval after its last answer. -/
theorem Paced.due (paced : Paced config since now index moments member)
    (due : isDue now member = true) :
    own index moments = [] ∧ now = since ∨
      ∃ earlier time reply,
        own index moments = earlier ++ [⟨time, .step (.answer index reply)⟩] ∧
        now = time + config.pollIntervalMs := by
  cases paced with
  | fresh phase silent atOnce => exact .inl ⟨silent, atOnce⟩
  | asking phase => simp [isDue, phase] at due
  | @resting earlier time reply phase last waits =>
      have slept : time + config.pollIntervalMs ≤ now := by simpa [isDue, phase] using due
      exact .inr ⟨earlier, time, reply, last, Nat.le_antisymm waits slept⟩
  | finished phase => rcases phase with phase | ⟨reason, phase⟩ <;> simp [isDue, phase] at due

end LocalNet.Check
