import LocalNet.Proofs.Health.Step

/-!
# How the polls are joined

A few polls are looked at all together: one failure is the outcome of all of them. More of them are
looked at in their order, and what lies behind an open one is not seen. Both ways agree on success,
and both report only failures that there are.
-/

namespace LocalNet.Check

variable {members before after : List Member} {member failed : Member} {reason : HealthError}

def Undecided (member : Member) : Prop :=
  member.phase ≠ .healthy ∧ ∀ reason, member.phase ≠ .failed reason

theorem first_failure_found (found : firstFailure? members = some reason) :
    ∃ member ∈ members, member.phase = .failed reason := by
  induction members with
  | nil => cases found
  | cons member rest ih =>
      simp only [firstFailure?] at found
      split at found
      · rename_i failure phase
        cases found
        exact ⟨member, List.mem_cons_self .., phase⟩
      · obtain ⟨other, known, phase⟩ := ih found
        exact ⟨other, List.mem_cons_of_mem _ known, phase⟩

theorem first_failure_none :
    firstFailure? members = none ↔ ∀ member ∈ members, ∀ reason, member.phase ≠ .failed reason := by
  induction members with
  | nil => simp [firstFailure?]
  | cons member rest ih =>
      simp only [firstFailure?, List.forall_mem_cons]
      split
      · rename_i failure phase
        simp [phase]
      · rename_i phase
        rw [ih]
        exact (and_iff_right phase).symm

theorem first_failure_skips (clean : ∀ member ∈ before, ∀ reason, member.phase ≠ .failed reason)
    (rest : List Member) : firstFailure? (before ++ rest) = firstFailure? rest := by
  induction before with
  | nil => rfl
  | cons member others ih =>
      obtain ⟨here, later⟩ := List.forall_mem_cons.mp clean
      rw [List.cons_append, firstFailure?]
      split
      · rename_i failure phase
        exact absurd phase (here failure)
      · exact ih later

theorem ordered_outcome_skips (healthy : ∀ member ∈ before, member.phase = .healthy)
    (rest : List Member) : orderedOutcome? (before ++ rest) = orderedOutcome? rest := by
  induction before with
  | nil => rfl
  | cons member others ih =>
      obtain ⟨here, later⟩ := List.forall_mem_cons.mp healthy
      rw [List.cons_append, orderedOutcome?, here]
      exact ih later

theorem ordered_outcome_waits (healthy : ∀ member ∈ before, member.phase = .healthy)
    (waiting : Undecided member) (rest : List Member) :
    orderedOutcome? (before ++ member :: rest) = none := by
  rw [ordered_outcome_skips healthy, orderedOutcome?]
  split
  · rename_i failure phase
    exact absurd phase (waiting.2 failure)
  · rename_i phase
    exact absurd phase waiting.1
  · rfl

theorem ordered_outcome_ok :
    orderedOutcome? members = some (.ok ()) ↔ ∀ member ∈ members, member.phase = .healthy := by
  induction members with
  | nil => simp [orderedOutcome?]
  | cons member rest ih =>
      simp only [orderedOutcome?, List.forall_mem_cons]
      split
      · rename_i failure phase
        simp [phase]
      · rename_i phase
        rw [ih]
        exact (and_iff_right phase).symm
      · rename_i unhealthy
        exact iff_of_false (by simp) fun all => unhealthy all.1

theorem ordered_outcome_error (found : orderedOutcome? members = some (.error reason)) :
    ∃ member ∈ members, member.phase = .failed reason := by
  induction members with
  | nil => cases found
  | cons member rest ih =>
      simp only [orderedOutcome?] at found
      split at found
      · rename_i failure phase
        cases found
        exact ⟨member, List.mem_cons_self .., phase⟩
      · obtain ⟨other, known, phase⟩ := ih found
        exact ⟨other, List.mem_cons_of_mem _ known, phase⟩
      · cases found

theorem ordered_outcome_none (waits : orderedOutcome? members = none) :
    ∃ before member after, members = before ++ member :: after ∧
      (∀ other ∈ before, other.phase = .healthy) ∧ Undecided member := by
  induction members with
  | nil => cases waits
  | cons member rest ih =>
      simp only [orderedOutcome?] at waits
      split at waits
      · cases waits
      · rename_i phase
        obtain ⟨before, waiting, after, rfl, healthy, undecided⟩ := ih waits
        refine ⟨member :: before, waiting, after, rfl, ?_, undecided⟩
        exact List.forall_mem_cons.mpr ⟨phase, healthy⟩
      · rename_i clean unhealthy
        exact ⟨[], member, rest, rfl, by simp, unhealthy, clean⟩

variable {check : Check}

/-- All is well when all members are healthy, however they are joined. -/
theorem outcome_ok (settled : check.outcome? = some (.ok ())) :
    ∀ member ∈ check.members, member.phase = .healthy := by
  unfold outcome? at settled
  split at settled
  · split at settled
    · cases settled
    · split at settled
      · rename_i all
        simpa using all
      · cases settled
  · exact ordered_outcome_ok.mp settled

theorem outcome_error (settled : check.outcome? = some (.error reason)) :
    ∃ member ∈ check.members, member.phase = .failed reason := by
  unfold outcome? at settled
  split at settled
  · split at settled
    · rename_i failure found
      cases settled
      exact first_failure_found found
    · split at settled <;> cases settled
  · exact ordered_outcome_error settled

/-- A failure is the outcome of few members at once, and of many if those before it are healthy. -/
theorem outcome_of_failure {index : Nat} (unsettled : check.outcome? = none)
    (found : check.members[index]? = some member) (phase : failed.phase = .failed reason)
    (seen : check.members.length ≤ eagerLimit ∨
      ∀ earlier < index, ∀ other, check.members[earlier]? = some other → other.phase = .healthy) :
    (check.setMember index failed).outcome? = some (.error reason) := by
  obtain ⟨bound, -⟩ := List.getElem?_eq_some_iff.mp found
  have split : check.members.set index failed =
      check.members.take index ++ failed :: check.members.drop (index + 1) :=
    List.set_eq_take_append_cons_drop.trans (if_pos bound)
  unfold outcome? at unsettled ⊢
  rw [setMember, List.length_set, split]
  by_cases few : check.members.length ≤ eagerLimit
  · rw [if_pos few] at unsettled ⊢
    have none : firstFailure? check.members = none := by
      cases first : firstFailure? check.members with
      | none => rfl
      | some failure => simp [first] at unsettled
    have clean := first_failure_none.mp none
    rw [first_failure_skips fun other known => clean other (List.mem_of_mem_take known)]
    simp [firstFailure?, phase]
  · rw [if_neg few]
    have healthy : ∀ other ∈ check.members.take index, other.phase = .healthy := by
      intro other known
      obtain ⟨earlier, inside, here⟩ := List.mem_take_iff_getElem.mp known
      apply seen.resolve_left few earlier (Nat.lt_of_lt_of_le inside (Nat.min_le_left _ _)) other
      exact List.getElem?_eq_some_iff.mpr ⟨_, here⟩
    rw [ordered_outcome_skips healthy]
    simp [orderedOutcome?, phase]

theorem outcome_withheld {index earlier : Nat} {other : Member} (unsettled : check.outcome? = none)
    (many : ¬check.members.length ≤ eagerLimit) (front : earlier < index)
    (found : check.members[earlier]? = some other) (unhealthy : other.phase ≠ .healthy)
    (changed : Member) : (check.setMember index changed).outcome? = none := by
  unfold outcome? at unsettled ⊢
  rw [if_neg many] at unsettled
  rw [setMember, List.length_set, if_neg many]
  obtain ⟨before, waiting, after, whole, healthy, undecided⟩ := ordered_outcome_none unsettled
  -- The first open member is no later than the one that is not healthy, so it stays in front.
  have behind : before.length ≤ earlier := by
    apply Nat.le_of_not_lt
    intro inside
    rw [whole, List.getElem?_append_left inside] at found
    exact unhealthy (healthy other (List.mem_of_getElem? found))
  obtain ⟨distance, same⟩ := Nat.exists_eq_add_of_lt (Nat.lt_of_le_of_lt behind front)
  have beyond : index - before.length = distance + 1 := by omega
  rw [whole, List.set_append_right _ _ (by omega), beyond, List.set_cons_succ]
  exact ordered_outcome_waits healthy undecided _

end LocalNet.Check
