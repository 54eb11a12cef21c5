import LocalNet.Proofs.Network.Step
import Mathlib.Algebra.Ring.Nat

/-!
# The table of calls

A turn of a call changes that call's entry and no other. The tally of a weight over all calls in
flight therefore changes by what the turn does to the weight of its own call, and invariants about
single calls need to be looked at only where a turn leaves its call.
-/

namespace LocalNet.Network

def outcome? (network : Network) (call : CallId) : Option Outcome :=
  network.outcomes.lookup call

/-- Nothing is in flight: no operation, and nothing that a stop call left to the background. -/
def Quiescent (network : Network) : Prop :=
  network.activities = []

namespace Fate

def activity? : Fate → Option Activity
  | .goesOn activity => some activity
  | _ => none

def outcome? : Fate → Option Outcome
  | .ends outcome => some outcome
  | .handsOver outcome _ => some outcome
  | _ => none

def leftover? : Fate → Option Activity
  | .handsOver _ activity => some activity
  | _ => none

end Fate

@[simp] theorem settle_standing (shared : Network) (call : CallId) (fate : Fate) :
    (shared.settle call fate).standing = shared.standing := by
  cases fate <;> rfl

@[simp] theorem settle_registry (shared : Network) (call : CallId) (fate : Fate) :
    (shared.settle call fate).registry = shared.registry := by
  cases fate <;> rfl

@[simp] theorem settle_happenings (shared : Network) (call : CallId) (fate : Fate) :
    (shared.settle call fate).happenings = shared.happenings := by
  cases fate <;> rfl

@[simp] theorem settle_nextInstance (shared : Network) (call : CallId) (fate : Fate) :
    (shared.settle call fate).nextInstance = shared.nextInstance := by
  cases fate <;> rfl

@[simp] theorem settle_checks (shared : Network) (call : CallId) (fate : Fate) :
    (shared.settle call fate).checks = shared.checks := by
  cases fate <;> rfl

theorem settle_nextCall (shared : Network) (call : CallId) (fate : Fate) :
    (shared.settle call fate).nextCall =
      shared.nextCall + (if fate.leftover?.isSome then 1 else 0) := by
  cases fate <;> rfl

theorem settle_activity_self (shared : Network) {call : CallId} (fate : Fate)
    (known : call < shared.nextCall) :
    (shared.settle call fate).activity? call = fate.activity? := by
  have different : call ≠ shared.nextCall := Nat.ne_of_lt known
  have skipped : (call == shared.nextCall) = false := by simpa using different
  cases fate with
  | goesOn activity => simp [settle, setActivity, activity?, Fate.activity?]
  | ends outcome => exact lookup_filter_self _ _
  | vanishes => exact lookup_filter_self _ _
  | handsOver outcome activity =>
      simp only [settle, setActivity, finish, activity?, List.lookup_cons, skipped, Fate.activity?]
      rw [lookup_filter_other _ different]
      exact lookup_filter_self _ _

theorem settle_activity_other (shared : Network) {call other : CallId} {fate : Fate}
    (different : other ≠ call) (old : fate.leftover? = none ∨ other ≠ shared.nextCall) :
    (shared.settle call fate).activity? other = shared.activity? other := by
  have skipped : (other == call) = false := by simpa using different
  cases fate with
  | goesOn activity =>
      simp only [settle, setActivity, activity?, List.lookup_cons, skipped]
      exact lookup_filter_other _ different
  | ends outcome => exact lookup_filter_other _ different
  | vanishes => exact lookup_filter_other _ different
  | handsOver outcome activity =>
      have notNew : other ≠ shared.nextCall := old.resolve_left (by simp [Fate.leftover?])
      have skippedNew : (other == shared.nextCall) = false := by simpa using notNew
      simp only [settle, setActivity, finish, activity?, List.lookup_cons, skippedNew]
      rw [lookup_filter_other _ notNew]
      exact lookup_filter_other _ different

theorem settle_activity_new (shared : Network) (call : CallId) {fate : Fate}
    {activity : Activity} (leftover : fate.leftover? = some activity) :
    (shared.settle call fate).activity? shared.nextCall = some activity := by
  cases fate with
  | handsOver outcome taken =>
      cases leftover
      simp [settle, setActivity, finish, activity?]
  | goesOn | ends | vanishes => cases leftover

theorem settle_outcome_self (shared : Network) (call : CallId) {fate : Fate} {outcome : Outcome}
    (ended : fate.outcome? = some outcome) :
    (shared.settle call fate).outcome? call = some outcome := by
  cases fate with
  | ends | handsOver =>
      cases ended
      simp [settle, setActivity, finish, outcome?]
  | goesOn | vanishes => cases ended

theorem settle_outcome_none (shared : Network) (call other : CallId) {fate : Fate}
    (unended : fate.outcome? = none) :
    (shared.settle call fate).outcome? other = shared.outcome? other := by
  cases fate with
  | goesOn | vanishes => rfl
  | ends | handsOver => cases unended

theorem settle_outcome_other (shared : Network) {call other : CallId} (fate : Fate)
    (different : other ≠ call) :
    (shared.settle call fate).outcome? other = shared.outcome? other := by
  have skipped : (other == call) = false := by simpa using different
  cases fate with
  | goesOn | vanishes => rfl
  | ends | handsOver =>
      simp [settle, setActivity, finish, outcome?, List.lookup_cons, skipped]

theorem turn_call {network shared : Network} {call : CallId} {action : Action} {fate : Fate}
    (turn : Turn network call action shared fate) :
    (∃ request, action = .begin request ∧ call = network.nextCall ∧
        shared.nextCall = network.nextCall + 1 ∧ fate.leftover? = none) ∨
      (∃ activity, network.activity? call = some activity) ∧
        shared.nextCall = network.nextCall ∧ ∀ request, action ≠ .begin request := by
  cases turn with
  | refused | answered | reserved | taken | drained | drainedNone =>
      exact .inl ⟨_, rfl, rfl, rfl, rfl⟩
  | buildFailed busy fails | buildFailedAlone busy fails | addFailed busy fails =>
      exact .inr ⟨⟨_, busy⟩, rfl, fun request same => by subst same; cases fails⟩
  | _ => exact .inr ⟨⟨_, ‹_›⟩, rfl, by simp⟩

theorem turn_caller {network shared : Network} {call : CallId} {action : Action} {fate : Fate}
    (turn : Turn network call action shared fate) {caller : CallId}
    (goesOn : action.call? = some caller) : caller = call := by
  cases turn with
  | refused | answered | reserved | taken | drained | drainedNone | cancelled =>
      cases goesOn
  | buildFailed busy fails | buildFailedAlone busy fails | addFailed busy fails =>
      cases fails <;> exact (Option.some.inj goesOn).symm
  | _ => exact (Option.some.inj goesOn).symm

theorem turn_table {network shared : Network} {call : CallId} {action : Action} {fate : Fate}
    (turn : Turn network call action shared fate) :
    shared.activities = network.activities ∧ shared.outcomes = network.outcomes := by
  cases turn <;> exact ⟨rfl, rfl⟩

def tally (network : Network) (weight : Activity → Nat) : Nat :=
  (network.activities.map fun entry => weight entry.2).sum

def Fate.weigh (weight : Activity → Nat) : Fate → Nat
  | .goesOn activity => weight activity
  | .handsOver _ activity => weight activity
  | _ => 0

def DistinctCalls (network : Network) : Prop :=
  (network.activities.map Prod.fst).Nodup

def KnownCalls (network : Network) : Prop :=
  ∀ call activity, network.activity? call = some activity → call < network.nextCall

theorem distinct_filter {Value : Type} {entries : List (CallId × Value)}
    (distinct : (entries.map Prod.fst).Nodup) (call : CallId) :
    ((entries.filter (·.1 ≠ call)).map Prod.fst).Nodup :=
  distinct.sublist (List.filter_sublist.map Prod.fst)

theorem distinct_set {Value : Type} {entries : List (CallId × Value)}
    (distinct : (entries.map Prod.fst).Nodup) (call : CallId) (value : Value) :
    (((call, value) :: entries.filter (·.1 ≠ call)).map Prod.fst).Nodup := by
  rw [List.map_cons, List.nodup_cons]
  refine ⟨?_, distinct_filter distinct call⟩
  intro again
  obtain ⟨entry, member, same⟩ := List.mem_map.mp again
  have different : entry.1 ≠ call := by simpa using (List.mem_filter.mp member).2
  exact different same

theorem settle_distinct {shared : Network} (distinct : DistinctCalls shared) (call : CallId)
    (fate : Fate) : DistinctCalls (shared.settle call fate) := by
  cases fate with
  | goesOn activity => exact distinct_set distinct call activity
  | ends outcome => exact distinct_filter distinct call
  | vanishes => exact distinct_filter distinct call
  | handsOver outcome activity => exact distinct_set (distinct_filter distinct call) _ activity

/-- The sum over distinct entries is the weight of one of them and the sum over the others. -/
theorem sum_eq_lookup_add_filter {entries : List (CallId × Activity)}
    (distinct : (entries.map Prod.fst).Nodup) (weight : Activity → Nat) (call : CallId) :
    (entries.map fun entry => weight entry.2).sum =
      (entries.lookup call).elim 0 weight +
        ((entries.filter (·.1 ≠ call)).map fun entry => weight entry.2).sum := by
  induction entries with
  | nil => rfl
  | cons entry rest ih =>
      obtain ⟨key, activity⟩ := entry
      obtain ⟨absent, distinct⟩ := List.nodup_cons.mp distinct
      have total := ih distinct
      by_cases same : key = call
      · subst same
        have missing : rest.lookup key = none := by
          rw [List.lookup_eq_none_iff]
          intro other member
          have different : other.1 ≠ key := fun equal =>
            absent (List.mem_map.mpr ⟨other, member, equal⟩)
          simpa using Ne.symm different
        rw [missing] at total
        simpa using total
      · have skipped : (call == key) = false := by simpa using Ne.symm same
        rw [List.filter_cons_of_pos (by simpa using same)]
        simp only [List.map_cons, List.sum_cons, List.lookup_cons, skipped]
        omega

theorem tally_settle {shared : Network} (distinct : DistinctCalls shared)
    (known : KnownCalls shared) (weight : Activity → Nat) (call : CallId) (fate : Fate) :
    (shared.settle call fate).tally weight + (shared.activity? call).elim 0 weight =
      shared.tally weight + fate.weigh weight := by
  have total := sum_eq_lookup_add_filter distinct weight call
  cases fate with
  | goesOn activity =>
      simp only [settle, setActivity, tally, activity?, Fate.weigh, List.map_cons, List.sum_cons]
      omega
  | ends outcome =>
      simp only [settle, finish, tally, activity?, Fate.weigh]
      omega
  | vanishes =>
      simp only [settle, vanish, tally, activity?, Fate.weigh]
      omega
  | handsOver outcome activity =>
      have fresh : shared.activities.lookup shared.nextCall = none := by
        cases found : shared.activities.lookup shared.nextCall with
        | none => rfl
        | some other => exact absurd (known _ _ found) (Nat.lt_irrefl _)
      have missing :
          (shared.activities.filter (·.1 ≠ call)).lookup shared.nextCall = none := by
        by_cases same : shared.nextCall = call
        · rw [same]
          exact lookup_filter_self _ _
        · rw [lookup_filter_other _ same]
          exact fresh
      have rest := sum_eq_lookup_add_filter (distinct_filter distinct call) weight
        shared.nextCall
      rw [missing] at rest
      simp only [settle, setActivity, finish, tally, activity?, Fate.weigh, List.map_cons,
        List.sum_cons, Option.elim_none] at rest ⊢
      omega

theorem weight_le_tally {network : Network} (distinct : DistinctCalls network)
    {call : CallId} {activity : Activity} (busy : network.activity? call = some activity)
    (weight : Activity → Nat) : weight activity ≤ network.tally weight := by
  have total := sum_eq_lookup_add_filter distinct weight call
  simp only [activity?] at busy
  rw [busy, Option.elim_some] at total
  simp only [tally]
  omega

theorem two_weights_le_tally {network : Network} (distinct : DistinctCalls network)
    {left right : CallId} {first second : Activity} (different : left ≠ right)
    (leftBusy : network.activity? left = some first)
    (rightBusy : network.activity? right = some second) (weight : Activity → Nat) :
    weight first + weight second ≤ network.tally weight := by
  have total := sum_eq_lookup_add_filter distinct weight left
  have rest := sum_eq_lookup_add_filter (distinct_filter distinct left) weight right
  simp only [activity?] at leftBusy rightBusy
  rw [lookup_filter_other _ (Ne.symm different), rightBusy, Option.elim_some] at rest
  rw [leftBusy, Option.elim_some] at total
  simp only [tally]
  omega

theorem activity_of_mem {network : Network} (distinct : DistinctCalls network)
    {call : CallId} {activity : Activity} (member : (call, activity) ∈ network.activities) :
    network.activity? call = some activity :=
  (lookup_iff_mem distinct).mpr member

theorem exists_of_tally_pos {network : Network} (distinct : DistinctCalls network)
    {weight : Activity → Nat} (positive : 0 < network.tally weight) :
    ∃ call activity, network.activity? call = some activity ∧ 0 < weight activity := by
  obtain ⟨value, member, heavy⟩ := List.sum_pos_iff_exists_pos_nat.mp positive
  obtain ⟨entry, inFlight, rfl⟩ := List.mem_map.mp member
  exact ⟨entry.1, entry.2, activity_of_mem distinct inFlight, heavy⟩

theorem quiescent_of_no_activity {network : Network}
    (idle : ∀ call, network.activity? call = none) : Quiescent network := by
  unfold Quiescent
  cases entries : network.activities with
  | nil => rfl
  | cons entry rest =>
      have missing := idle entry.1
      simp [activity?, entries] at missing

end LocalNet.Network
