import LocalNet.Proofs.Network.Replay
import LocalNet.Proofs.Validation.Joining
import LocalNet.Proofs.Validation.Normalization

/-!
# A failed add leaves no trace

The steps of an add touch its own reservation and nothing else of what calls share, until the node is
registered. So as long as it is not, the registry without the reservation is what the other calls make
of it, and when the add has failed the reservation is gone.
-/

namespace LocalNet

namespace Registry

/-- Of the names that are taken, an add is turned down for its own only. -/
theorem reserve_error_congr {left right : Registry} {config : NodeConfig}
    (stopped : left.stopped = right.stopped)
    (same : config.name ∈ left.taken ↔ config.name ∈ right.taken) (reason : NetworkError) :
    (left.reserve config).1 = .error reason ↔ (right.reserve config).1 = .error reason := by
  unfold reserve
  rw [stopped]
  split
  · rfl
  · have congr := fun fault => @validate_added_node_error_congr config left.taken right.taken
      left.names right.names same fault
    cases first : validateAddedNode config left.taken left.names with
    | mk verdict names =>
        cases second : validateAddedNode config right.taken right.names with
        | mk other later =>
            simp only [first, second] at congr
            cases verdict with
            | error fault =>
                cases (congr fault).mp rfl
                rfl
            | ok =>
                cases other with
                | error fault => cases (congr fault).mpr rfl
                | ok => simp

theorem taken_of_duplicate {registry : Registry} {config : NodeConfig} {index : Nat}
    {name : String}
    (clash : (registry.reserve config).1 =
      .error (.validation (.node index (.duplicateName name)))) : config.name ∈ registry.taken := by
  unfold reserve at clash
  split at clash
  · cases clash
  · split at clash
    · rename_i judged
      cases clash
      exact taken_of_clash (congrArg Prod.fst judged)
    · cases clash

end Registry

def Activity.IsAdd : Activity → Prop
  | .adding _ => True
  | .committing .. => True
  | .withdrawing _ => True
  | _ => False

namespace Network

open Registry (Alike)

/-- A step of this call leaves to all others what they share with it: reservations and the allocator
apart, nothing has changed but the call. -/
structure Spares (call : CallId) (network next : Network) : Prop where
  nodes : next.registry.nodes = network.registry.nodes
  stopped : next.registry.stopped = network.registry.stopped
  standing : next.standing = network.standing
  checks : next.checks = network.checks
  activities : ∀ other, other ≠ call → next.activity? other = network.activity? other
  outcomes : ∀ other, other ≠ call → next.outcome? other = network.outcome? other

variable {network shared next : Network} {call : CallId} {action : Action} {fate : Fate}

theorem settle_spares (turn : Turn network call action shared fate)
    (nodes : shared.registry.nodes = network.registry.nodes)
    (stopped : shared.registry.stopped = network.registry.stopped)
    (standing : shared.standing = network.standing) (checks : shared.checks = network.checks)
    (alone : fate.leftover? = none) : Spares call network (shared.settle call fate) where
  nodes := by rw [settle_registry, nodes]
  stopped := by rw [settle_registry, stopped]
  standing := by rw [settle_standing, standing]
  checks := by rw [settle_checks, checks]
  activities := fun other different => by
    rw [settle_activity_other shared different (.inl alone), turn_activity turn]
  outcomes := fun _ different => settle_outcome_kept turn different

theorem settle_without (sound : Sound network) (turn : Turn network call action shared fate) :
    (shared.settle call fate).registryWithout call =
      shared.registry.without (fate.activity?.bind Activity.reserved?) := by
  rw [registryWithout, settle_registry, settle_activity_self shared fate (turn_known sound turn).1]

/-- What a turn of an add does unless it registers the node. -/
structure Discreet (call : CallId) (network next : Network) : Prop where
  spares : Spares call network next
  names : next.registry.names = network.registry.names
  without : next.registryWithout call = network.registryWithout call

/-- A turn of an add keeps the reservation, or ends it, or registers the node. -/
theorem add_turn_discreet (sound : Sound network) {activity : Activity}
    (busy : network.activity? call = some activity) (adds : activity.IsAdd)
    (turn : Turn network call action shared fate) :
    action.call? = some call ∧
      (Discreet call network (shared.settle call fate) ∨
        ∃ node, fate.outcome? = some (.node node)) := by
  have settled := settle_without sound turn
  have spares := settle_spares turn
  obtain ⟨begun, only⟩ := turn_goes_on sound busy
  have before : network.registryWithout call =
      network.registry.without activity.reserved? := by
    rw [registryWithout, busy, Option.bind_some]
  clear busy
  cases turn with
  | refused | answered | reserved | taken | drained | drainedNone => exact absurd rfl begun
  | registered same => exact ⟨rfl, .inr ⟨_, rfl⟩⟩
  | spawnedAdding same | started same | tooLate same | lost same | withdrawn same =>
      cases only _ same
      refine ⟨rfl, .inl ⟨spares rfl rfl rfl rfl rfl, by simp [Registry.giveBack], ?_⟩⟩
      rw [settled, before]
      rfl
  | addFailed same fails =>
      cases only _ same
      refine ⟨by cases fails <;> rfl, .inl ⟨spares rfl rfl rfl rfl rfl, by rw [settle_registry], ?_⟩⟩
      rw [settled, before]
      rfl
  | _ =>
      cases only _ ‹network.activity? _ = some _›
      exact adds.elim

theorem AddInFlight.adds {config : NodeConfig} {history : List (Network × Action)}
    (inFlight : AddInFlight config call history network) :
    ∃ activity, network.activity? call = some activity ∧ activity.IsAdd := by
  cases inFlight with
  | launching busy | launched busy | failed busy | withdrawing busy => exact ⟨_, busy, trivial⟩

/-- The allocator stays, or it has moved just past a name that is generated for this node. -/
def AllocatorMoves (config : NodeConfig) (network next : Network) : Prop :=
  next.registry.names = network.registry.names ∨
    config.name = "" ∧ ∃ resolved suffix, (network.registry.reserve config).1 = .ok resolved ∧
      resolved.name = NameAllocator.nameOf suffix ∧
      network.registry.names.nextSuffix ≤ suffix ∧ next.registry.names = ⟨suffix + 1⟩

/-- With its first locked section an add makes its reservation, and nothing else but the move of the
allocator. -/
theorem add_begins_spares (sound : Sound network) {config : NodeConfig} {args : List String}
    (move : Move network (.begin (.add config args)) next) :
    Spares network.nextCall network next ∧
      Alike network.registry (next.registryWithout network.nextCall) ∧
      AllocatorMoves config network next := by
  cases move with
  | @turn _ _ shared fate turn =>
      have settled := settle_without sound turn
      have spares := settle_spares turn
      cases turn with
      | refused =>
          refine ⟨spares rfl rfl rfl rfl rfl, ?_, .inl (by rw [settle_registry])⟩
          rw [settled]
          exact .refl _
      | answered running opened answer => cases answer
      | @reserved _ resolved _ names _ running opened judged =>
          refine ⟨spares rfl rfl rfl rfl rfl, ?_, ?_⟩
          · rw [settled]
            exact ⟨rfl, (List.erase_cons_head ..).symm, rfl⟩
          · have accepted := Registry.reserve_of_judged opened judged
            rw [AllocatorMoves, settle_registry]
            refine (validate_added_node_names judged).imp id ?_
            rintro ⟨blank, suffix, onward, generated, moved⟩
            exact ⟨blank, resolved, suffix, by rw [accepted], generated, onward, moved⟩
      | buildFailed busy fails | buildFailedAlone busy fails | addFailed busy fails =>
          cases fails
  | aside aside => exact aside.elim

/-- An add that is turned down ends at once and leaves the registry as it is. -/
theorem add_begins_judged (sound : Sound network) {config : NodeConfig} {args : List String}
    (move : Move network (.begin (.add config args)) next) :
    (∃ reason, (network.registry.reserve config).1 = .error reason ∧
        next.outcome? network.nextCall = some (.failed reason) ∧
        next.registry = network.registry ∧ next.happenings = network.happenings) ∨
      (∃ resolved, (network.registry.reserve config).1 = .ok resolved) ∧
        next.outcome? network.nextCall = none := by
  cases move with
  | turn turn =>
      have fresh := sound.not_over turn
      cases turn with
      | refused running refusal =>
          rw [Registry.reserve_of_refusal refusal]
          exact .inl ⟨_, rfl, settle_outcome_self _ _ rfl, rfl, rfl⟩
      | answered running opened answer => cases answer
      | reserved running opened judged =>
          rw [Registry.reserve_of_judged opened judged]
          exact .inr ⟨⟨_, rfl⟩, fresh⟩
      | buildFailed busy fails | buildFailedAlone busy fails | addFailed busy fails =>
          cases fails
  | aside aside => exact aside.elim

variable {config : NetworkConfig} {node : NodeConfig} {args : List String} {state : Network}
variable {early late : List (Network × Action)}

theorem AddCourse.begun {history : List (Network × Action)}
    (course : AddCourse node call history network) (sound : Sound network) :
    call < network.nextCall := by
  rcases course with inFlight | ⟨outcome, finished, _⟩
  · obtain ⟨activity, busy, _⟩ := inFlight.adds
    exact sound.known _ _ busy
  · exact (sound.finished _ _ finished).2

/-- A step of a running network keeps the account of the registry without an add, whether it goes on with
the add or not, unless it registers the node. -/
theorem replay_move {registry : Registry} {history : List (Network × Action)}
    (sound : Sound network) (names : NamesSound network) (running : network.standing = .running)
    (course : AddCourse node call history network) (move : Move network action next)
    (alike : Alike (replay call registry history) (network.registryWithout call)) :
    Alike (replay call registry (history ++ [(network, action)])) (next.registryWithout call) ∨
      ∃ joined, next.outcome? call = some (.node joined) := by
  rcases effect_of_move sound names running move (course.begun sound) with
    ⟨shared, fate, turn, rfl⟩ | ⟨other, same⟩
  · rcases course with inFlight | ⟨outcome, finished, _⟩
    · obtain ⟨activity, busy, adds⟩ := inFlight.adds
      obtain ⟨own, discreet | ⟨joined, ends⟩⟩ := add_turn_discreet sound busy adds turn
      · rw [replay_snoc_own _ _ _ own, discreet.without]
        exact .inl alike
      · exact .inr ⟨joined, settle_outcome_self shared _ ends⟩
    · cases (sound.not_over turn).symm.trans finished
  · rw [replay_snoc_other _ _ _ other]
    exact .inl ((effect_alike alike _).trans same)

/-- As long as an add has not registered its node, the registry without its reservation is what the
other calls have made of it. -/
theorem replayed_without_add
    (trace : Trace (construct config) (early ++ (state, .begin (.add node args)) :: late)
      network) :
    network.standing = .running ∧
      (Alike (replay state.nextCall state.registry late)
          (network.registryWithout state.nextCall) ∨
        ∃ joined, network.outcome? state.nextCall = some (.node joined)) := by
  obtain ⟨before, first, begins, rest⟩ := trace.split
  have sound := reachable_sound (reachable_of_trace before)
  have move := move_of_step sound.one_builder begins
  have carried := @trace_carries first network late
    (fun history network => network.standing = .running ∧
      (Alike (replay state.nextCall state.registry history)
          (network.registryWithout state.nextCall) ∨
        ∃ joined, network.outcome? state.nextCall = some (.node joined)))
    rest (sound_move sound move) ?_ ?_
  · exact carried.2
  · intro history network next action part sound earlier step
    obtain ⟨running, known⟩ := earlier
    have whole : Trace (construct config)
        (early ++ (state, .begin (.add node args)) :: history) network := by
      simpa using (before.snoc begins).append part
    have names := reachable_names (reachable_of_trace whole)
    have move := move_of_step sound.one_builder step
    refine ⟨running_move sound running move, ?_⟩
    rcases known with alike | ⟨joined, told⟩
    · exact replay_move sound names running (add_course whole) move alike
    · exact .inr ⟨joined, move_outcome sound move told⟩
  · have running := running_move sound (running_of_begin begins) move
    exact ⟨running, .inl (add_begins_spares sound move).2.1⟩

theorem trace_at {start : Network} {front back : List (Network × Action)}
    {first entry : Network × Action}
    (trace : Trace start (early ++ first :: (front ++ entry :: back)) network) :
    Trace start (early ++ first :: front) entry.1 ∧
      ∃ next, entry.1.step? entry.2 = some next ∧ Trace next back network := by
  have regrouped : early ++ first :: (front ++ entry :: back) =
      (early ++ first :: front) ++ (entry.1, entry.2) :: back := by simp
  rw [regrouped] at trace
  exact trace.split

section Failed

variable {reason : NetworkError}
variable (trace : Trace (construct config) (early ++ (state, .begin (.add node args)) :: late) network)
variable (failed : network.outcome? state.nextCall = some (.failed reason))

include trace failed

theorem not_joined {front back : List (Network × Action)} {entry : Network × Action}
    (split : late = front ++ entry :: back) (joined : Node) :
    entry.1.outcome? state.nextCall ≠ some (.node joined) := by
  subst split
  obtain ⟨before, next, step, rest⟩ := trace_at trace
  have sound := reachable_sound (reachable_of_trace before)
  have move := move_of_step sound.one_builder step
  intro told
  have last := trace_outcome rest (sound_move sound move) (move_outcome sound move told)
  cases failed.symm.trans last

theorem replayed_before {front back : List (Network × Action)} {entry : Network × Action}
    (split : late = front ++ entry :: back) :
    Alike (replay state.nextCall state.registry front)
      (entry.1.registryWithout state.nextCall) := by
  have clean := not_joined trace failed split
  subst split
  rcases (replayed_without_add (trace_at trace).1).2 with alike | ⟨joined, told⟩
  · exact alike
  · exact absurd told (clean joined)

theorem failed_add_discreet {entry : Network × Action} (member : entry ∈ late)
    (own : entry.2.call? = some state.nextCall) {next : Network}
    (step : entry.1.step? entry.2 = some next) : Discreet state.nextCall entry.1 next := by
  obtain ⟨front, back, rfl⟩ := List.append_of_mem member
  obtain ⟨before, other, same, rest⟩ := trace_at trace
  cases step.symm.trans same
  have sound := reachable_sound (reachable_of_trace before)
  have move := move_of_step sound.one_builder step
  rcases add_course before with inFlight | ⟨outcome, finished, _⟩
  · obtain ⟨activity, busy, adds⟩ := inFlight.adds
    rcases move_call sound move (sound.known _ _ busy) with
      ⟨shared, fate, turn, rfl⟩ | ⟨_, silent⟩
    · rcases (add_turn_discreet sound busy adds turn).2 with discreet | ⟨joined, ends⟩
      · exact discreet
      · have told := settle_outcome_self shared state.nextCall ends
        cases failed.symm.trans (trace_outcome rest (sound_move sound move) told)
    · exact absurd own silent
  · exact absurd own (over_calls_none sound move finished)

/-- Others are judged as if the add had reserved nothing, unless it is its very name that they want. -/
theorem judged_without_add {front back : List (Network × Action)} {entry : Network × Action}
    (split : late = front ++ entry :: back) (other : NodeConfig)
    (apart : (entry.1.activity? state.nextCall).bind Activity.reserved? ≠ some other.name)
    (fault : NetworkError) :
    (entry.1.registry.reserve other).1 = .error fault ↔
      ((replay state.nextCall state.registry front).reserve other).1 = .error fault := by
  have alike := replayed_before trace failed split
  apply Registry.reserve_error_congr
  · exact alike.stopped.symm
  · rw [alike.taken]
    exact (Registry.mem_taken_without _ _ apart).symm

theorem holder_of_pending {name : String} (pending : name ∈ network.registry.pending) :
    ∃ other, other ≠ state.nextCall ∧
      (network.activity? other).bind Activity.reserved? = some name := by
  have reachable := reachable_of_trace trace
  have sound := reachable_sound reachable
  obtain ⟨other, holds, -⟩ :=
    unique_add_of_pending sound (reachable_names reachable) name pending
  refine ⟨other, ?_, holds⟩
  rintro rfl
  rw [(sound.finished _ _ failed).1] at holds
  cases holds

/-- A following add finds its name free if nobody else has it. -/
theorem following_add_is_no_duplicate (following : NodeConfig) (args : List String)
    (unregistered : network.registry.find? following.name = none)
    (unreserved : ∀ other, other ≠ state.nextCall →
      (network.activity? other).bind Activity.reserved? ≠ some following.name) :
    ∃ next, network.step? (.begin (.add following args)) = some next ∧
      ∀ index name, next.outcome? network.nextCall ≠
        some (.failed (.validation (.node index (.duplicateName name)))) := by
  have running := (replayed_without_add trace).1
  have sound := reachable_sound (reachable_of_trace trace)
  have free : following.name ∉ network.registry.taken := by
    intro taken
    rcases List.mem_append.mp taken with registered | pending
    · obtain ⟨entry, member, same⟩ := List.mem_map.mp registered
      have missing := List.lookup_eq_none_iff.mp unregistered entry member
      simp [same] at missing
    · obtain ⟨other, different, holds⟩ := holder_of_pending trace failed pending
      exact unreserved other different holds
  have step : network.step? (.begin (.add following args)) =
      some (network.begin (.add following args)) := by simp [step?, running]
  refine ⟨_, step, ?_⟩
  intro index name told
  generalize network.begin (.add following args) = next at step told
  rcases add_begins_judged sound (move_of_step sound.one_builder step) with
    ⟨reason, refused, ended, _⟩ | ⟨_, unended⟩
  · cases ended.symm.trans told
    exact free (Registry.taken_of_duplicate refused)
  · cases unended.symm.trans told

theorem refused_add_is_silent {fault : NetworkError}
    (refused : (state.registry.reserve node).1 = .error fault) :
    reason = fault ∧
      (∀ next, state.step? (.begin (.add node args)) = some next →
        next.registry = state.registry ∧ next.happenings = state.happenings) ∧
      ∀ entry ∈ late, entry.2.call? ≠ some state.nextCall ∧
        entry.1.activity? state.nextCall = none := by
  obtain ⟨before, first, step, rest⟩ := trace.split
  have sound := reachable_sound (reachable_of_trace before)
  have move := move_of_step sound.one_builder step
  have soundNext := sound_move sound move
  rcases add_begins_judged sound move with ⟨_, same, ended, kept⟩ | ⟨⟨resolved, accepted⟩, _⟩
  · cases same.symm.trans refused
    refine ⟨?_, ?_, ?_⟩
    · cases failed.symm.trans (trace_outcome rest soundNext ended)
      rfl
    · intro next again
      cases step.symm.trans again
      exact kept
    · intro entry member
      obtain ⟨front, back, rfl⟩ := List.append_of_mem member
      obtain ⟨part, next, goesOn, _⟩ := rest.split
      have here := trace_sound part soundNext
      have told := trace_outcome part soundNext ended
      exact ⟨over_calls_none here (move_of_step here.one_builder goesOn) told,
        (here.finished _ _ told).1⟩
  · cases accepted.symm.trans refused

end Failed

/-- An add that ends in an error, whichever, leaves no trace but a suffix that is used up. Its first
locked section makes one reservation and may move the allocator past the name that it generates for a
node without one; its other steps touch nothing but the reservation, and no step of it touches the nodes
or another call. Nodes and reservations are in the end as the other calls leave them if its own steps are
left out, and who asks for another name is judged as without it. Its name is not reserved any more, so
that a following add is a duplicate only of another holder. Where it is turned down at once, the registry
stays as it is and no step is ever taken for it: nothing is spawned. -/
theorem failed_add_leaves_no_trace {reason : NetworkError}
    (trace : Trace (construct config) (early ++ (state, .begin (.add node args)) :: late) network)
    (failed : network.outcome? state.nextCall = some (.failed reason)) :
    (∀ next, state.step? (.begin (.add node args)) = some next →
      Spares state.nextCall state next ∧ AllocatorMoves node state next ∧
        Alike state.registry (next.registryWithout state.nextCall)) ∧
    (∀ entry ∈ late, entry.2.call? = some state.nextCall →
      ∀ next, entry.1.step? entry.2 = some next → Discreet state.nextCall entry.1 next) ∧
    Alike (replay state.nextCall state.registry late) network.registry ∧
    (∀ front entry back, late = front ++ entry :: back →
      ∀ other, (entry.1.activity? state.nextCall).bind Activity.reserved? ≠ some other.name →
        ∀ fault, (entry.1.registry.reserve other).1 = .error fault ↔
          ((replay state.nextCall state.registry front).reserve other).1 = .error fault) ∧
    (∀ name ∈ network.registry.pending, ∃ other, other ≠ state.nextCall ∧
      (network.activity? other).bind Activity.reserved? = some name) ∧
    (∀ following args, network.registry.find? following.name = none →
      (∀ other, other ≠ state.nextCall →
        (network.activity? other).bind Activity.reserved? ≠ some following.name) →
      ∃ next, network.step? (.begin (.add following args)) = some next ∧
        ∀ index name, next.outcome? network.nextCall ≠
          some (.failed (.validation (.node index (.duplicateName name))))) ∧
    ∀ fault, (state.registry.reserve node).1 = .error fault →
      reason = fault ∧
        (∀ next, state.step? (.begin (.add node args)) = some next →
          next.registry = state.registry ∧ next.happenings = state.happenings) ∧
        ∀ entry ∈ late, entry.2.call? ≠ some state.nextCall ∧
          entry.1.activity? state.nextCall = none := by
  refine ⟨?_, ?_, ?_, ?_, ?_, ?_, ?_⟩
  · intro next step
    have sound := reachable_sound (reachable_of_trace trace.split.1)
    obtain ⟨spares, alike, moves⟩ := add_begins_spares sound (move_of_step sound.one_builder step)
    exact ⟨spares, moves, alike⟩
  · intro entry member own next step
    exact failed_add_discreet trace failed member own step
  · have sound := reachable_sound (reachable_of_trace trace)
    have gone := (sound.finished _ _ failed).1
    rcases (replayed_without_add trace).2 with alike | ⟨joined, told⟩
    · rwa [registryWithout, gone] at alike
    · cases failed.symm.trans told
  · intro front entry back split other apart fault
    exact judged_without_add trace failed split other apart fault
  · intro name pending
    exact holder_of_pending trace failed pending
  · intro following args unregistered unreserved
    exact following_add_is_no_duplicate trace failed following args unregistered unreserved
  · intro fault refused
    exact refused_add_is_silent trace failed refused

/-- Another node joins between the locked sections of an add without a name, whose start then fails. -/
def overtakenFailure : List Action :=
  [.begin (.add nameless []), .begin (.add (plainNode "other") []), .spawnReturns 1 (.ok ()),
    .spawnReturns 2 (.ok ()), .startReturns 2 (.ok ()), .commit 2,
    .startReturns 1 (.error .alreadyStarted), .commit 1]

theorem failed_start_uses_up_its_suffix :
    ∃ late network,
      Trace (construct {}) ([] ++ (construct {}, .begin (.add nameless [])) :: late) network ∧
      (construct {}).nextCall = 1 ∧ .begin (.add nameless []) :: late.map Prod.snd = overtakenFailure ∧
      network.outcome? 1 = some (.failed (.process "node-1" .alreadyStarted)) ∧
      Alike (replay 1 (construct {}).registry late) network.registry ∧
      network.registry.nodes.map Prod.fst = ["other"] ∧
      { network.registry with nodes := [] } = ({ names := ⟨2⟩ } : Registry) ∧
      ∃ next, network.step? (.begin (.add (plainNode "node-1") [])) = some next ∧
        ∀ index name, next.outcome? network.nextCall ≠
          some (.failed (.validation (.node index (.duplicateName name)))) := by
  have ran : ((construct {}).run? overtakenFailure).map (fun last =>
      (last.outcome? 1, last.registry.nodes.map Prod.fst, { last.registry with nodes := [] },
        last.activities.isEmpty)) =
      some (some (.failed (.process "node-1" .alreadyStarted)), ["other"],
        ({ names := ⟨2⟩ } : Registry), true) := by
    decide +kernel
  obtain ⟨network, run, facts⟩ := Option.map_eq_some_iff.mp ran
  simp only [Prod.mk.injEq, List.isEmpty_iff] at facts
  obtain ⟨failed, nodes, rest, idle⟩ := facts
  have first : (construct {}).nextCall = 1 := by decide +kernel
  have taken := along_actions run
  have trace := trace_along run
  rw [overtakenFailure, along] at trace taken
  generalize ((construct {}).step? (.begin (.add nameless []))).elim [] _ = late at trace taken
  have whole : Trace (construct {}) ([] ++ (construct {}, .begin (.add nameless [])) :: late)
      network := trace
  obtain ⟨-, -, alike, -, -, following, -⟩ := failed_add_leaves_no_trace whole (first ▸ failed)
  have unregistered : network.registry.find? (plainNode "node-1").name = none := by
    rw [Registry.find?, List.lookup_eq_none_iff]
    intro entry member
    have name : entry.1 ∈ ["other"] := nodes ▸ List.mem_map_of_mem member
    simp [List.mem_singleton.mp name, plainNode]
  have unreserved (other : CallId) : (network.activity? other).bind Activity.reserved? ≠
      some (plainNode "node-1").name := by
    simp [activity?, idle]
  exact ⟨late, network, whole, first, taken, failed, first ▸ alike, nodes, rest,
    following (plainNode "node-1") [] unregistered fun other _ => unreserved other⟩

end Network

end LocalNet
