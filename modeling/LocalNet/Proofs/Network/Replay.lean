import LocalNet.Proofs.Network.Course

/-!
# A registry without one of its calls

A registry can be told from the steps of its calls alone: a replay is a fold of what each step does to
it. A reservation of one call that is set aside stays out of the way of all steps of the others, since
names are reserved once and releases commute.
-/

namespace LocalNet

namespace Registry

/-- Nodes, reservations and being stopped are the same; the allocators need not be. -/
structure Alike (left right : Registry) : Prop where
  nodes : left.nodes = right.nodes
  pending : left.pending = right.pending
  stopped : left.stopped = right.stopped

def without (registry : Registry) (held : Option String) : Registry :=
  { registry with pending := held.elim registry.pending registry.pending.erase }

section Without

variable (registry : Registry) (held : Option String)

@[simp] theorem without_stopped : (registry.without held).stopped = registry.stopped := rfl

@[simp] theorem without_some (name : String) : registry.without (some name) = registry.giveBack name :=
  rfl

theorem without_give_back (name : String) :
    (registry.giveBack name).without held = (registry.without held).giveBack name := by
  cases held with
  | none => rfl
  | some other => simp only [without_some, giveBack, List.erase_comm]

theorem without_reserved {name : String} (fresh : held ≠ some name) :
    ({ registry with pending := name :: registry.pending } : Registry).without held =
      { registry.without held with pending := name :: (registry.without held).pending } := by
  cases held with
  | none => rfl
  | some other =>
      have different : name ≠ other := fun same => fresh (congrArg some same.symm)
      have kept : (name :: registry.pending).erase other = name :: registry.pending.erase other :=
        List.erase_cons_tail (by simpa using different)
      simp only [without, Option.elim_some, kept]

theorem mem_taken_without {name : String} (other : held ≠ some name) :
    name ∈ (registry.without held).taken ↔ name ∈ registry.taken := by
  cases held with
  | none => rfl
  | some reserved =>
      have different : name ≠ reserved := fun same => other (congrArg some same.symm)
      simp only [taken, without_some, giveBack, List.mem_append, List.mem_erase_of_ne different]

end Without

namespace Alike

variable {left middle right : Registry}

theorem refl (registry : Registry) : Alike registry registry := ⟨rfl, rfl, rfl⟩

theorem trans (first : Alike left middle) (second : Alike middle right) : Alike left right :=
  ⟨first.nodes.trans second.nodes, first.pending.trans second.pending,
    first.stopped.trans second.stopped⟩

theorem eq (alike : Alike left right) : left = { right with names := left.names } := by
  cases left
  cases alike.nodes
  cases alike.pending
  cases alike.stopped
  rfl

theorem taken (alike : Alike left right) : left.taken = right.taken := by
  rw [Registry.taken, Registry.taken, alike.nodes, alike.pending]

end Alike

end Registry

namespace Network

open Registry (Alike)

/-- What a step does to a registry. Of the network, only the name that an add is given and the launch
that a commit ends are looked up; all else is decided on the registry at hand. -/
def effect (registry : Registry) : Network × Action → Registry
  | (network, .begin (.add config _)) =>
    match network.registry.reserve config with
    | (.ok resolved, _) => { registry with pending := resolved.name :: registry.pending }
    | (.error _, _) => registry
  | (_, .begin (.remove name)) => (registry.take name).2
  | (_, .begin (.stop _)) => registry.drain.2
  | (network, .commit call) =>
    match network.activity? call with
    | some (.committing name launched) => (registry.commit name launched).2
    | _ => registry
  | (_, .shuffle nodes) => (registry.shuffle? nodes).getD registry
  | _ => registry

/-- What the steps of a history do to a registry if those that go on with this call are left out. -/
def replay (call : CallId) (registry : Registry) (history : List (Network × Action)) : Registry :=
  (history.filter fun entry => entry.2.call? ≠ some call).foldl effect registry

/-- The registry as it is apart from what this call has reserved. -/
def registryWithout (network : Network) (call : CallId) : Registry :=
  network.registry.without ((network.activity? call).bind Activity.reserved?)

theorem replay_snoc_own (call : CallId) (registry : Registry) (history : List (Network × Action))
    {entry : Network × Action} (own : entry.2.call? = some call) :
    replay call registry (history ++ [entry]) = replay call registry history := by
  simp [replay, List.filter_append, own]

theorem replay_snoc_other (call : CallId) (registry : Registry)
    (history : List (Network × Action)) {entry : Network × Action}
    (other : entry.2.call? ≠ some call) :
    replay call registry (history ++ [entry]) = effect (replay call registry history) entry := by
  simp [replay, List.filter_append, other]

theorem effect_names (registry : Registry) (names : NameAllocator) (entry : Network × Action) :
    effect { registry with names := names } entry =
      { effect registry entry with names := names } := by
  obtain ⟨network, action⟩ := entry
  cases action with
  | begin request =>
      cases request with
      | add config args =>
          simp only [effect]
          split <;> rfl
      | remove name =>
          simp only [effect, Registry.take, Registry.find?]
          split
          · rfl
          · split <;> rfl
      | stop cancelled =>
          simp only [effect, Registry.drain]
          split <;> rfl
      | get | names | healthy => rfl
  | commit call =>
      simp only [effect]
      split
      · rename_i name launched _
        cases launched with
        | error reason => rfl
        | ok node =>
            by_cases stopped : registry.stopped = true
            · have same : ({ registry with names := names } : Registry).stopped = true := stopped
              rw [Registry.commit_of_stopped same, Registry.commit_of_stopped stopped]
              rfl
            · rw [Bool.not_eq_true] at stopped
              have same : ({ registry with names := names } : Registry).stopped = false := stopped
              rw [Registry.commit_of_opened same, Registry.commit_of_opened stopped]
              rfl
      · rfl
  | shuffle nodes =>
      simp only [effect, Registry.shuffle?]
      split <;> rfl
  | _ => rfl

theorem effect_alike {left right : Registry} (alike : Alike left right)
    (entry : Network × Action) : Alike (effect left entry) (effect right entry) := by
  rw [alike.eq, effect_names]
  exact ⟨rfl, rfl, rfl⟩

variable {network shared next : Network} {call : CallId} {action : Action} {fate : Fate}

theorem effect_of_refusal {request : Request} {reason : NetworkError}
    (refusal : network.registry.refusal? request = some reason) (held : Option String) :
    effect (network.registry.without held) (network, .begin request) =
      network.registry.without held := by
  cases request with
  | add config args => simp only [effect, Registry.reserve_of_refusal refusal]
  | remove name =>
      have same : (network.registry.without held).refusal? (.remove name) = some reason := refusal
      simp only [effect, Registry.take_of_refusal same]
  | stop cancelled =>
      have stopped : network.registry.stopped = true := by
        cases stopped : network.registry.stopped with
        | true => rfl
        | false => simp [Registry.refusal?, stopped] at refusal
      simp [effect, Registry.drain, stopped]
  | get | names | healthy => rfl

theorem effect_of_answer {request : Request} {outcome : Outcome}
    (answer : network.registry.answer? call request = some outcome) (registry : Registry) :
    effect registry (network, .begin request) = registry := by
  cases request with
  | add | remove | stop => cases answer
  | get | names | healthy => rfl

theorem effect_of_failure {launch : Launch} {reason : ProcessError} {nextInstance : Nat}
    {happenings : List Happening}
    (fails : LaunchFails network call launch action reason nextInstance happenings)
    (registry : Registry) : effect registry (network, action) = registry := by
  cases fails <;> rfl

/-- A turn of a call on a running network does the same to the registry with a reservation of another
call and without it. -/
theorem effect_of_turn (sound : Sound network) (running : network.standing = .running)
    (turn : Turn network call action shared fate) {held : Option String}
    (reserved : ∀ name, held = some name → name ∈ network.registry.pending) :
    Alike (effect (network.registry.without held) (network, action))
      (shared.registry.without held) := by
  have ordinary {activity : Activity} (busy : network.activity? constructionCall = some activity) :
      ¬activity.Builds := fun builds =>
    Standing.noConfusion (running.symm.trans (sound.builder _ _ busy builds).2)
  cases turn with
  | refused running refusal =>
      rw [effect_of_refusal refusal]
      exact .refl _
  | answered running opened answer =>
      rw [effect_of_answer answer]
      exact .refl _
  | reserved running opened judged =>
      have fresh : held ≠ some _ := fun same =>
        (validate_added_node_ok judged).2.free (List.mem_append_right _ (reserved _ same))
      have apart := network.registry.without_reserved held fresh
      simp only [effect, Registry.reserve_of_judged opened judged]
      exact ⟨rfl, (congrArg Registry.pending apart).symm, rfl⟩
  | @taken name node _ running opened found =>
      have welcome : (network.registry.without held).stopped = false := opened
      have present : (network.registry.without held).find? name = some node := found
      simp only [effect, Registry.take_of_found welcome present]
      exact ⟨rfl, rfl, rfl⟩
  | drained running opened | drainedNone running opened =>
      have welcome : (network.registry.without held).stopped = false := opened
      simp only [effect, Registry.drain_of_opened welcome]
      exact ⟨rfl, rfl, rfl⟩
  | @registered _ name node _ busy opened =>
      have welcome : (network.registry.without held).stopped = false := opened
      have apart := congrArg Registry.pending (network.registry.without_give_back held name)
      simp only [effect, busy, Registry.commit_of_opened welcome]
      exact ⟨rfl, apart.symm, rfl⟩
  | @tooLate _ name node _ busy stopped =>
      have closed : (network.registry.without held).stopped = true := stopped
      simp only [effect, busy, Registry.commit_of_stopped closed, Registry.without_give_back]
      exact .refl _
  | lost busy =>
      simp only [effect, busy, Registry.commit, Registry.without_give_back]
      exact .refl _
  | addFailed busy fails =>
      rw [effect_of_failure fails]
      exact .refl _
  | spawnedBuilding busy | buildFailed busy | buildFailedAlone busy | built busy | builtLast busy
  | unbuilt busy | unbuiltLast busy => exact absurd trivial (ordinary busy)
  | spawnedAdding | started | asked | withdrawn | removed | stopped | stoppedLast | cleared
  | clearedLast | cancelled | left => exact .refl _

theorem effect_of_aside (aside : action.IsAside) (registry : Registry) :
    effect registry (network, action) = registry := by
  cases action with
  | cancel | check | dropSignal | pass => rfl
  | _ => exact aside.elim

/-- A step of a running network is a turn of a given call, or it does to the registry without that call
what it does to the whole. -/
theorem effect_of_move (sound : Sound network) (names : NamesSound network)
    (running : network.standing = .running) (move : Move network action next)
    (begun : call < network.nextCall) :
    (∃ shared fate, Turn network call action shared fate ∧ next = shared.settle call fate) ∨
      action.call? ≠ some call ∧
        Alike (effect (network.registryWithout call) (network, action))
          (next.registryWithout call) := by
  cases move with
  | @turn other _ shared fate turn =>
      by_cases own : call = other
      · subst own
        exact .inl ⟨shared, fate, turn, rfl⟩
      · refine .inr ⟨fun goesOn => own (turn_caller turn goesOn), ?_⟩
        simp only [registryWithout, settle_registry, settle_activity_kept sound turn own begun]
        apply effect_of_turn sound running turn
        intro name held
        obtain ⟨activity, busy, reserved⟩ := Option.bind_eq_some_iff.mp held
        exact pending_of_reserved sound names busy reserved
  | aside aside =>
      refine .inr ⟨aside_calls_none aside, ?_⟩
      rw [effect_of_aside aside]
      exact .refl _
  | @shuffled nodes same =>
      refine .inr ⟨by simp [Action.call?], ?_⟩
      have shuffles : nodes.isPerm (network.registryWithout call).nodes = true :=
        List.isPerm_iff.mpr same
      simp only [effect, Registry.shuffle?, if_pos shuffles, Option.getD_some]
      exact ⟨rfl, rfl, rfl⟩

end Network

end LocalNet
