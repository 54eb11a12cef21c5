import LocalNet.Proofs.Health.Course

/-!
# What the polls of a node have told

Each node of a check is polled on its own. How often it was polled and what it has answered is read
off the course of the check, and where its member stands follows from these two alone: the answers of
other nodes, the clock and the caller do not enter.
-/

namespace LocalNet.Check

def Moment.asks (index : Nat) (moment : Moment) : Bool :=
  moment.event = .step (.ask index)

def Moment.answer? (index : Nat) (moment : Moment) : Option (Except ApiError Bool) :=
  match moment.event with
  | .step (.answer other reply) => if other = index then reply.answer? else none
  | _ => none

def polls (index : Nat) (moments : List Moment) : Nat :=
  moments.countP (·.asks index)

def answers (index : Nat) (moments : List Moment) : List (Except ApiError Bool) :=
  moments.filterMap (·.answer? index)

@[simp] theorem polls_append (index : Nat) (early late : List Moment) :
    polls index (early ++ late) = polls index early + polls index late :=
  List.countP_append

@[simp] theorem answers_append (index : Nat) (early late : List Moment) :
    answers index (early ++ late) = answers index early ++ answers index late :=
  List.filterMap_append

/-- The failure of a node whose last allowed poll has brought this answer. -/
def failureOf (node : Node) (attempts : Nat) : Except ApiError Bool → HealthError
  | .ok _ => .unhealthy node.name attempts
  | .error reason => .client node.name reason.message

/-- Where a member stands, by what its node was asked and has answered. -/
inductive Polled (config : HealthConfig) (member : Member) (asked : Nat)
    (told : List (Except ApiError Bool)) : Prop where
  | fresh (phase : member.phase = .fresh) (counted : member.attempts = asked) (unasked : asked = 0)
      (silent : told = [])
  | asking (phase : member.phase = .asking) (counted : member.attempts = asked)
      (awaited : asked = told.length + 1) (unhealthy : .ok true ∉ told)
      (allowed : config.maxAttempts ≠ 0 → asked ≤ config.maxAttempts.toNat)
  | resting {wake : Nat} (phase : member.phase = .resting wake) (counted : member.attempts = asked)
      (answered : asked = told.length) (unhealthy : .ok true ∉ told)
      (more : config.maxAttempts ≠ 0 → asked < config.maxAttempts.toNat)
  | healthy {earlier : List (Except ApiError Bool)} (phase : member.phase = .healthy)
      (answered : asked = told.length) (last : told = earlier ++ [.ok true])
      (first : .ok true ∉ earlier)
      (allowed : config.maxAttempts ≠ 0 → asked ≤ config.maxAttempts.toNat)
  | failed {earlier : List (Except ApiError Bool)} {last : Except ApiError Bool}
      (phase : member.phase = .failed (failureOf member.node asked last))
      (answered : asked = told.length) (whole : told = earlier ++ [last])
      (unhealthy : .ok true ∉ told) (limited : config.maxAttempts ≠ 0)
      (exhausted : asked = config.maxAttempts.toNat)

variable {config : HealthConfig} {member : Member} {asked now : Nat}
variable {told : List (Except ApiError Bool)}

theorem limited_iff : config.maxAttempts ≠ 0 ↔ 0 < config.maxAttempts.toNat := by
  rw [Nat.pos_iff_ne_zero, ne_eq, ne_eq, ← UInt32.toNat_inj]
  rfl

theorem judged_otherwise {answer : Except ApiError Bool} (unhealthy : answer ≠ .ok true) :
    Member.judged config now member answer =
      if config.maxAttempts ≠ 0 ∧ config.maxAttempts.toNat ≤ member.attempts then
        { member with phase := .failed (failureOf member.node member.attempts answer) }
      else { member with phase := .resting (now + config.pollIntervalMs) } := by
  have guard : (config.maxAttempts ≠ 0 && config.maxAttempts.toNat ≤ member.attempts) =
      decide (config.maxAttempts ≠ 0 ∧ config.maxAttempts.toNat ≤ member.attempts) := by
    rw [Bool.decide_and]
  cases answer with
  | error reason =>
      simp only [Member.judged, guard, decide_eq_true_eq]
      rfl
  | ok value =>
      cases value with
      | true => exact absurd rfl unhealthy
      | false =>
          simp only [Member.judged, guard, decide_eq_true_eq]
          rfl

theorem Polled.ask (polled : Polled config member asked told) (due : isDue now member = true) :
    Polled config { member with attempts := member.attempts + 1, phase := .asking } (asked + 1)
      told := by
  cases polled with
  | fresh phase counted unasked silent =>
      subst unasked silent
      exact .asking rfl (by simp [counted]) rfl (by simp) limited_iff.mp
  | resting phase counted answered unhealthy more =>
      exact .asking rfl (by simp [counted]) (by rw [answered]) unhealthy more
  | asking phase | healthy phase | failed phase => simp [isDue, phase] at due

theorem Polled.hear (polled : Polled config member asked told) (asking : member.phase = .asking)
    (answer : Except ApiError Bool) :
    Polled config (Member.judged config now member answer) asked (told ++ [answer]) := by
  cases polled with
  | asking phase counted awaited unhealthy allowed =>
      have answered : asked = (told ++ [answer]).length := by simpa using awaited
      by_cases clean : answer = .ok true
      · subst clean
        exact .healthy rfl answered rfl unhealthy allowed
      · have still : .ok true ∉ told ++ [answer] := by
          simpa [unhealthy] using Ne.symm clean
        rw [judged_otherwise clean]
        split
        · rename_i last
          have exhausted : asked = config.maxAttempts.toNat := by
            have bound := allowed last.1
            omega
          refine .failed ?_ answered rfl still last.1 exhausted
          rw [counted]
        · rename_i goesOn
          refine .resting rfl counted answered still fun limited => ?_
          have notLast : ¬config.maxAttempts.toNat ≤ member.attempts :=
            fun late => goesOn ⟨limited, late⟩
          omega
  | fresh phase | resting phase | healthy phase | failed phase =>
      rw [asking] at phase
      cases phase

variable {start check next : Check} {since : Nat} {moments : List Moment} {event : Event}

/-- Only a poll of its own, and its answer, change where a member stands. -/
theorem Change.polled (change : Change now check event next)
    (before : ∀ index member, check.members[index]? = some member →
      Polled check.config member (polls index moments) (answers index moments)) :
    ∀ index member, next.members[index]? = some member →
      Polled next.config member (polls index (moments ++ [⟨now, event⟩]))
        (answers index (moments ++ [⟨now, event⟩])) := by
  intro index member here
  rw [polls_append, answers_append]
  cases change with
  | @asked target asking found polling due =>
      rw [set_member_lookup found] at here
      have silent : answers index [⟨now, .step (.ask target)⟩] = [] := rfl
      rw [silent, List.append_nil]
      split at here
      · rename_i own
        subst own
        cases here
        have one : polls target [⟨now, .step (.ask target)⟩] = 1 := by
          simp [polls, Moment.asks]
        rw [one]
        exact (before target asking found).ask due
      · rename_i other
        have none : polls index [⟨now, .step (.ask target)⟩] = 0 := by
          simp [polls, Moment.asks, other]
        rw [none]
        exact before index member here
  | @answered target asking reply answer found polling phase heard =>
      rw [set_member_lookup found] at here
      have none : polls index [⟨now, .step (.answer target reply)⟩] = 0 := by
        simp [polls, Moment.asks]
      rw [none]
      split at here
      · rename_i own
        subst own
        cases here
        have one : answers target [⟨now, .step (.answer target reply)⟩] = [answer] := by
          simp [answers, Moment.answer?, heard]
        rw [one]
        exact (before target asking found).hear phase answer
      · rename_i other
        have silent : answers index [⟨now, .step (.answer target reply)⟩] = [] := by
          simp [answers, Moment.answer?, other]
        rw [silent, List.append_nil]
        exact before index member here
  | @broke target =>
      have none : polls index [⟨now, .step (.answer target .panicked)⟩] = 0 := by
        simp [polls, Moment.asks]
      have silent : answers index [⟨now, .step (.answer target .panicked)⟩] = [] := by
        simp [answers, Moment.answer?, Reply.answer?]
      rw [none, silent, List.append_nil]
      exact before index member here
  | _ =>
      simp only [polls, answers, Moment.asks, Moment.answer?, List.countP_cons, List.countP_nil,
        List.filterMap_cons_none, List.filterMap_nil, List.append_nil]
      exact before index member here

/-- All along its course each member of a check stands where its polls have brought it. -/
theorem Course.polled (course : Course start since moments now check)
    (fresh : ∀ member ∈ start.members, member.phase = .fresh ∧ member.attempts = 0) :
    ∀ index member, check.members[index]? = some member →
      Polled check.config member (polls index moments) (answers index moments) := by
  induction course with
  | nil =>
      intro index member here
      obtain ⟨phase, unasked⟩ := fresh member (List.mem_of_getElem? here)
      exact .fresh phase unasked rfl rfl
  | moved before change ih => exact change.polled ih
  | passed before forward idle limited ih => exact ih

theorem of_snapshot_fresh {nodes : List Node} {cancelled : Bool} :
    ∀ member ∈ (ofSnapshot config nodes cancelled).members,
      member.phase = .fresh ∧ member.attempts = 0 := by
  intro member known
  obtain ⟨node, -, rfl⟩ := List.mem_map.mp known
  exact ⟨rfl, rfl⟩

theorem of_snapshot_nodes (config : HealthConfig) (nodes : List Node) (cancelled : Bool) :
    (ofSnapshot config nodes cancelled).members.map Member.node = nodes := by
  simp [ofSnapshot, Function.comp_def]

end LocalNet.Check
