import LocalNet.Network.Check

/-!
# What may befall a health check

A check takes steps of its own, its token may fire, and its signal may be dropped. Each of these is a
change that is told once, with the guard it has passed; what is proved of checks is proved from this
account and does not open the steps again.
-/

namespace LocalNet

/-- What a poll brings, if it does not break down. -/
def Reply.answer? : Reply → Option (Except ApiError Bool)
  | .healthy value => some (.ok value)
  | .failed reason => some (.error reason)
  | .panicked => none

def Verdict.ofOutcome : Except HealthError Unit → Verdict
  | .ok () => .healthy
  | .error reason => .failed reason

namespace Check

inductive Event where
  | step (step : Step)
  /-- The token fires. -/
  | cancelled
  /-- Nobody waits for the verdict any more. -/
  | dropped
  deriving DecidableEq, Repr

/-- The check after an event; absent where the event is not possible. -/
def after? (now : Nat) (check : Check) : Event → Option Check
  | .step step => (check.step? now step).map Prod.fst
  | .cancelled => some { check with cancelled := true }
  | .dropped => some { check with dropped := true }

inductive Change (now : Nat) (check : Check) : Event → Check → Prop where
  | begun {reading : ClockReading} (unbegun : check.begun = none)
      (undecided : check.verdict = none) :
    Change now check (.step (.begin reading))
      { check with begun := some { time := now, reading := reading } }
  | asked {index : Nat} {member : Member} (found : check.members[index]? = some member)
      (polling : check.isPolling = true) (due : isDue now member = true) :
    Change now check (.step (.ask index))
      (check.setMember index { member with attempts := member.attempts + 1, phase := .asking })
  | answered {index : Nat} {member : Member} {reply : Reply} {answer : Except ApiError Bool}
      (found : check.members[index]? = some member) (polling : check.isPolling = true)
      (asking : member.phase = .asking) (told : reply.answer? = some answer) :
    Change now check (.step (.answer index reply))
      (check.setMember index (Member.judged check.config now member answer))
  | broke {index : Nat} {member : Member} (found : check.members[index]? = some member)
      (polling : check.isPolling = true) (asking : member.phase = .asking) :
    Change now check (.step (.answer index .panicked))
      { check with verdict := some (.failed .aborted) }
  | concluded {outcome : Except HealthError Unit} (started : check.begun.isSome = true)
      (undecided : check.verdict = none) (uncancelled : check.cancelled = false)
      (settled : check.outcome? = some outcome) :
    Change now check (.step .conclude) { check with verdict := some (.ofOutcome outcome) }
  | expired {deadline : Nat} (polling : check.isPolling = true)
      (limit : check.deadline? = some deadline) (late : deadline ≤ now)
      (idle : check.members.any (isDue now) = false) :
    Change now check (.step .expire)
      { check with verdict := some (.failed (.timeout check.config.timeoutSecs.toNat)) }
  | gaveUp (started : check.begun.isSome = true) (undecided : check.verdict = none)
      (cancelled : check.cancelled = true) :
    Change now check (.step .giveUp) { check with verdict := some (.failed .cancelled) }
  | dismissed (undecided : check.verdict = none) (dropped : check.dropped = true) :
    Change now check (.step .dismiss) { check with verdict := some .dismissed }
  | cancelled : Change now check .cancelled { check with cancelled := true }
  | dropped : Change now check .dropped { check with dropped := true }

variable {now : Nat} {check next : Check} {event : Event}

structure Polling (check : Check) : Prop where
  started : check.begun.isSome = true
  undecided : check.verdict = none
  uncancelled : check.cancelled = false
  unsettled : check.outcome? = none

theorem polling_iff : check.isPolling = true ↔ Polling check := by
  simp only [isPolling, Bool.and_eq_true, Option.isNone_iff_eq_none, Bool.not_eq_true']
  constructor
  · rintro ⟨⟨⟨started, undecided⟩, uncancelled⟩, unsettled⟩
    exact ⟨started, undecided, uncancelled, unsettled⟩
  · rintro ⟨started, undecided, uncancelled, unsettled⟩
    exact ⟨⟨⟨started, undecided⟩, uncancelled⟩, unsettled⟩

theorem change_of_ask {index : Nat} {events : List Log.Event}
    (step : check.step? now (.ask index) = some (next, events)) :
    Change now check (.step (.ask index)) next := by
  simp only [step?] at step
  split at step
  · rename_i member found
    split at step
    · rename_i guarded
      obtain ⟨polling, due⟩ := Bool.and_eq_true_iff.mp guarded
      cases step
      exact .asked found polling due
    · cases step
  · cases step

theorem change_of_answer {index : Nat} {reply : Reply} {events : List Log.Event}
    (step : check.step? now (.answer index reply) = some (next, events)) :
    Change now check (.step (.answer index reply)) next := by
  simp only [step?] at step
  split at step
  · rename_i member found
    split at step
    · rename_i guarded
      obtain ⟨polling, phase⟩ := Bool.and_eq_true_iff.mp guarded
      have asking : member.phase = .asking := by simpa using phase
      cases reply with
      | healthy value =>
          cases step
          exact .answered found polling asking rfl
      | failed reason =>
          cases step
          exact .answered found polling asking rfl
      | panicked =>
          cases step
          exact .broke found polling asking
    · cases step
  · cases step

theorem change_of_conclude {events : List Log.Event}
    (step : check.step? now .conclude = some (next, events)) :
    Change now check (.step .conclude) next := by
  simp only [step?] at step
  split at step
  · rename_i guarded
    simp only [Bool.and_eq_true, Option.isNone_iff_eq_none, Bool.not_eq_true'] at guarded
    obtain ⟨⟨started, undecided⟩, uncancelled⟩ := guarded
    split at step
    · rename_i settled
      cases step
      exact .concluded started undecided uncancelled settled
    · rename_i reason settled
      cases step
      exact .concluded started undecided uncancelled settled
    · cases step
  · cases step

theorem change_of_expire {events : List Log.Event}
    (step : check.step? now .expire = some (next, events)) :
    Change now check (.step .expire) next := by
  simp only [step?] at step
  split at step
  · rename_i guarded
    simp only [Bool.and_eq_true, Bool.not_eq_true'] at guarded
    obtain ⟨⟨polling, late⟩, idle⟩ := guarded
    cases limit : check.deadline? with
    | none => simp [limit] at late
    | some deadline =>
        cases step
        exact .expired polling limit (by simpa [limit] using late) idle
  · cases step

/-- This account of the changes is complete. -/
theorem change_of_event (possible : check.after? now event = some next) :
    Change now check event next := by
  cases event with
  | cancelled =>
      cases possible
      exact .cancelled
  | dropped =>
      cases possible
      exact .dropped
  | step step =>
      obtain ⟨⟨later, events⟩, taken, rfl⟩ := Option.map_eq_some_iff.mp possible
      cases step with
      | ask => exact change_of_ask taken
      | answer => exact change_of_answer taken
      | conclude => exact change_of_conclude taken
      | expire => exact change_of_expire taken
      | begin =>
          simp only [step?] at taken
          split at taken
          · rename_i guarded
            simp only [Bool.and_eq_true, Option.isNone_iff_eq_none] at guarded
            cases taken
            exact .begun guarded.1 guarded.2
          · cases taken
      | giveUp =>
          simp only [step?] at taken
          split at taken
          · rename_i guarded
            simp only [Bool.and_eq_true, Option.isNone_iff_eq_none] at guarded
            cases taken
            exact .gaveUp guarded.1.1 guarded.1.2 guarded.2
          · cases taken
      | dismiss =>
          simp only [step?] at taken
          split at taken
          · rename_i guarded
            simp only [Bool.and_eq_true, Option.isNone_iff_eq_none] at guarded
            cases taken
            exact .dismissed guarded.1 guarded.2
          · cases taken

/-- A verdict is final. -/
theorem Change.verdict_kept (change : Change now check event next) {verdict : Verdict}
    (decided : check.verdict = some verdict) : next.verdict = some verdict := by
  cases change with
  | begun unbegun undecided | concluded started undecided | gaveUp started undecided
  | dismissed undecided => exact absurd (undecided.symm.trans decided) (by simp)
  | asked found polling | answered found polling | broke found polling | expired polling =>
      exact absurd ((polling_iff.mp polling).undecided.symm.trans decided) (by simp)
  | cancelled | dropped => exact decided

theorem Change.was_undecided (change : Change now check event next) (still : next.verdict = none) :
    check.verdict = none := by
  cases decided : check.verdict with
  | none => rfl
  | some verdict => exact absurd ((change.verdict_kept decided).symm.trans still) (by simp)

theorem Change.undecided (change : Change now check event next) {step : Step}
    (own : event = .step step) : check.verdict = none := by
  cases change with
  | begun unbegun undecided | concluded started undecided | gaveUp started undecided
  | dismissed undecided => exact undecided
  | asked found polling | answered found polling | broke found polling | expired polling =>
      exact (polling_iff.mp polling).undecided
  | cancelled | dropped => cases own

theorem Change.config_eq (change : Change now check event next) : next.config = check.config := by
  cases change <;> rfl

theorem judged_node (config : HealthConfig) (member : Member) (answer : Except ApiError Bool) :
    (Member.judged config now member answer).node = member.node := by
  unfold Member.judged
  split
  · rfl
  · split <;> rfl

theorem set_member_lookup {index : Nat} {member changed : Member}
    (found : check.members[index]? = some member) (other : Nat) :
    (check.setMember index changed).members[other]? =
      if index = other then some changed else check.members[other]? := by
  obtain ⟨bound, -⟩ := List.getElem?_eq_some_iff.mp found
  simp only [setMember, List.getElem?_set, if_pos bound]

theorem set_member_nodes {index : Nat} {member changed : Member}
    (found : check.members[index]? = some member) (same : changed.node = member.node) :
    (check.setMember index changed).members.map Member.node = check.members.map Member.node := by
  apply List.ext_getElem?
  intro other
  rw [List.getElem?_map, List.getElem?_map, set_member_lookup found]
  split
  · rename_i own
    subst own
    rw [found, Option.map_some, Option.map_some, same]
  · rfl

theorem Change.nodes_eq (change : Change now check event next) :
    next.members.map Member.node = check.members.map Member.node := by
  cases change with
  | asked found => exact set_member_nodes found rfl
  | answered found => exact set_member_nodes found (judged_node _ _ _)
  | _ => rfl

end Check

end LocalNet
