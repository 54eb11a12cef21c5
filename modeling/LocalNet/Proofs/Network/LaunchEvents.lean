import LocalNet.Proofs.Network.Construction
import LocalNet.Proofs.Network.Course

/-!
# What is done for a launch

Spawns, starts and clients are told by what happens with a step, and registrations by who joins. So the
events of the launches are read off a history, each under the call that takes the step. A turn of an add
or of the construction moves its launch on in one of four ways, and no other turn does anything for one.
-/

namespace LocalNet

inductive LaunchEvent where
  /-- A process is asked for; the answer is its instance, or why there is none. -/
  | spawn (config : NodeConfig) (args : List String) (answer : Except ProcessError Nat)
  | start (name : String) (instanceId : Nat) (answer : Except ProcessError Unit)
  | client (instanceId : Nat) (client : Client)
  | register (node : Node)
  deriving DecidableEq, Repr

def LaunchEvent.returned? : LaunchEvent → Option Nat
  | .spawn _ _ (.ok instanceId) => some instanceId
  | _ => none

/-- The activities that may still do something for a launch. -/
def Activity.Launches : Activity → Prop
  | .building .. => True
  | .adding _ => True
  | .committing _ (.ok _) => True
  | _ => False

namespace Network

def news (entry : Network × Action) : List Happening :=
  (entry.1.step? entry.2).elim [] fun next =>
    (next.happenings.take (next.happenings.length - entry.1.happenings.length)).reverse

/-- What a spawner or a process answers with a step. -/
def Action.answer : Action → Except ProcessError Unit
  | .spawnReturns _ answer => answer
  | .startReturns _ answer => answer
  | _ => .ok ()

def launchEvent? (entry : Network × Action) : Happening → Option LaunchEvent
  | .spawned config args =>
    some (.spawn config args (entry.2.answer.map fun _ => entry.1.nextInstance))
  | .started name instanceId => some (.start name instanceId (.ok ()))
  | .startFailed name instanceId => some (.start name instanceId entry.2.answer)
  | .client instanceId client => some (.client instanceId client)
  | _ => none

def launchEvents (entry : Network × Action) : List LaunchEvent :=
  (news entry).filterMap (launchEvent? entry) ++ (joining? entry).toList.map .register

def launchedBy (call : CallId) (history : List (Network × Action)) : List LaunchEvent :=
  history.flatMap fun entry => if entry.2.call? = some call then launchEvents entry else []

variable {network shared next : Network} {call : CallId} {action : Action} {fate : Fate}
variable {history : List (Network × Action)} {launch : Launch}

theorem news_of_step (step : network.step? action = some next) (fresh : List Happening)
    (grown : next.happenings = fresh ++ network.happenings) :
    news (network, action) = fresh.reverse := by
  unfold news
  rw [step]
  simp [grown]

theorem happenings_are_news {start : Network} (trace : Trace start history network)
    (sound : Sound start) :
    network.happenings.reverse = start.happenings.reverse ++ history.flatMap news := by
  have follows := @trace_carries start network history
    (fun history network =>
      network.happenings.reverse = start.happenings.reverse ++ history.flatMap news)
    trace sound ?_ (by simp)
  · exact follows.2
  · intro history network next action _ sound earlier step
    obtain ⟨fresh, grown⟩ := move_grows (move_of_step sound.one_builder step)
    rw [List.flatMap_append, List.flatMap_singleton, news_of_step step fresh grown.symm,
      ← List.append_assoc, ← earlier, ← grown, List.reverse_append]

theorem launched_by_snoc (call : CallId) (history : List (Network × Action))
    (entry : Network × Action) :
    launchedBy call (history ++ [entry]) = launchedBy call history ++
      if entry.2.call? = some call then launchEvents entry else [] := by
  simp [launchedBy]

theorem no_launch_events (step : network.step? action = some next) (fresh : List Happening)
    (grown : next.happenings = fresh ++ network.happenings)
    (silent : ∀ happening ∈ fresh, launchEvent? (network, action) happening = none)
    (unjoined : joining? (network, action) = none) : launchEvents (network, action) = [] := by
  have none : (news (network, action)).filterMap (launchEvent? (network, action)) = [] := by
    rw [news_of_step step fresh grown, List.filterMap_eq_nil_iff]
    intro happening member
    exact silent happening (List.mem_reverse.mp member)
  rw [launchEvents, none, unjoined]
  rfl

inductive Upshot where
  | spawned (instanceId : Nat)
  | failed (reason : ProcessError)
  | up (node : Node)

/-- How a turn moves a launch on: with the events, and what comes of it. -/
inductive Advance (network : Network) (launch : Launch) : List LaunchEvent → Upshot → Prop where
  | spawned (waiting : launch.spawned = none) :
    Advance network launch [.spawn launch.config launch.args (.ok network.nextInstance)]
      (.spawned network.nextInstance)
  | unspawned {reason : ProcessError} (waiting : launch.spawned = none) :
    Advance network launch [.spawn launch.config launch.args (.error reason)] (.failed reason)
  | unstarted {instanceId : Nat} {reason : ProcessError}
      (spawned : launch.spawned = some instanceId) :
    Advance network launch [.start launch.config.name instanceId (.error reason)]
      (.failed reason)
  | started {instanceId : Nat} (spawned : launch.spawned = some instanceId) :
    Advance network launch
      [.start launch.config.name instanceId (.ok ()),
        .client instanceId (network.nodeOf launch instanceId).client]
      (.up (network.nodeOf launch instanceId))

theorem advance_of_spawned (waiting : launch.spawned = none)
    (step : network.step? (.spawnReturns call (.ok ())) = some next)
    (happened : next.happenings = .spawned launch.config launch.args :: network.happenings) :
    Advance network launch (launchEvents (network, .spawnReturns call (.ok ())))
      (.spawned network.nextInstance) := by
  have fresh := news_of_step step [_] happened
  have events : launchEvents (network, .spawnReturns call (.ok ())) =
      [.spawn launch.config launch.args (.ok network.nextInstance)] := by
    rw [launchEvents, fresh]
    rfl
  rw [events]
  exact .spawned waiting

theorem advance_of_failed {reason : ProcessError} {nextInstance : Nat}
    {happenings : List Happening}
    (fails : LaunchFails network call launch action reason nextInstance happenings)
    (step : network.step? action = some next) (happened : next.happenings = happenings) :
    action.call? = some call ∧
      Advance network launch (launchEvents (network, action)) (.failed reason) := by
  cases fails with
  | spawn waiting =>
      have fresh := news_of_step step [_] happened
      have events : launchEvents (network, .spawnReturns call (.error reason)) =
          [.spawn launch.config launch.args (.error reason)] := by
        rw [launchEvents, fresh]
        rfl
      rw [events]
      exact ⟨rfl, .unspawned waiting⟩
  | @start _ instanceId spawned =>
      have fresh := news_of_step step [_] happened
      have events : launchEvents (network, .startReturns call (.error reason)) =
          [.start launch.config.name instanceId (.error reason)] := by
        rw [launchEvents, fresh]
        rfl
      rw [events]
      exact ⟨rfl, .unstarted spawned⟩

theorem started_events {instanceId : Nat}
    (step : network.step? (.startReturns call (.ok ())) = some next)
    (happened : next.happenings = network.startedHappenings launch instanceId) :
    launchEvents (network, .startReturns call (.ok ())) =
      [.start launch.config.name instanceId (.ok ()),
        .client instanceId (network.nodeOf launch instanceId).client] ++
        (joining? (network, .startReturns call (.ok ()))).toList.map .register := by
  have fresh := news_of_step step [_, _] happened
  rw [launchEvents, fresh]
  rfl

def Upshot.addFate (launch : Launch) : Upshot → Fate
  | .spawned instanceId => .goesOn (.adding { launch with spawned := some instanceId })
  | .failed reason =>
    .goesOn (.committing launch.config.name (.error (processFault launch.config.name reason)))
  | .up node => .goesOn (.committing launch.config.name (.ok node))

theorem adding_advances (sound : Sound network)
    (busy : network.activity? call = some (.adding launch))
    (turn : Turn network call action shared fate)
    (step : network.step? action = some (shared.settle call fate)) :
    action.call? = some call ∧ ∃ upshot,
      Advance network launch (launchEvents (network, action)) upshot ∧
        fate = upshot.addFate launch := by
  have happened := settle_happenings shared call fate
  have adding := add_turn_of_adding sound busy turn
  generalize shared.happenings = happenings at adding happened
  cases adding with
  | spawned waiting => exact ⟨rfl, _, advance_of_spawned waiting step happened, rfl⟩
  | failed fails =>
      obtain ⟨own, advance⟩ := advance_of_failed fails step happened
      exact ⟨own, _, advance, rfl⟩
  | @started instanceId spawned =>
      have unjoined : joining? (network, .startReturns call (.ok ())) = none := by
        simp [joining?, busy]
      have events := started_events step happened
      rw [unjoined] at events
      rw [events]
      exact ⟨rfl, _, .started spawned, rfl⟩

/-- How the construction goes on with its current launch and those that follow. -/
inductive BuildFate (launch : Launch) (rest : List NodeConfig) : Upshot → Fate → Prop where
  | spawned {instanceId : Nat} :
    BuildFate launch rest (.spawned instanceId)
      (.goesOn (.building { launch with spawned := some instanceId } rest))
  | failed {reason : ProcessError} {onward : Fate}
      (ended : ∀ activity, onward.activity? = some activity → ¬activity.Launches) :
    BuildFate launch rest (.failed reason) onward
  | following {node : Node} {config : NodeConfig} {more : List NodeConfig}
      (left : rest = config :: more) :
    BuildFate launch rest (.up node) (.goesOn (.building (launchOf config []) more))
  | finished {node : Node} (last : rest = []) :
    BuildFate launch rest (.up node) (.ends .done)

/-- A construction registers a node as soon as it is up. -/
def Upshot.registration : Upshot → List LaunchEvent
  | .spawned _ => []
  | .failed _ => []
  | .up node => [.register node]

theorem building_advances (sound : Sound network) {rest : List NodeConfig}
    (busy : network.activity? constructionCall = some (.building launch rest))
    (turn : Turn network constructionCall action shared fate)
    (step : network.step? action = some (shared.settle constructionCall fate)) :
    action.call? = some constructionCall ∧ ∃ events upshot,
      Advance network launch events upshot ∧
        launchEvents (network, action) = events ++ upshot.registration ∧
        BuildFate launch rest upshot fate := by
  cases turn_of_launch sound busy turn with
  | spawned waiting told goesOn count registry happened =>
      subst told goesOn
      have advance := advance_of_spawned waiting step ((settle_happenings ..).trans happened)
      exact ⟨rfl, _, _, advance, (List.append_nil _).symm, .spawned⟩
  | failed fails ends =>
      obtain ⟨own, advance⟩ := advance_of_failed fails step (settle_happenings ..)
      refine ⟨own, _, _, advance, (List.append_nil _).symm, .failed ?_⟩
      rcases ends with rfl | ⟨-, rfl, -⟩ <;> simp [Fate.activity?, Activity.Launches]
  | @started instanceId spawned told count registry happened onward =>
      subst told
      have joined : joining? (network, .startReturns constructionCall (.ok ())) =
          some (network.nodeOf launch instanceId) := by
        simp [joining?, busy, spawned]
      have events := started_events step ((settle_happenings ..).trans happened)
      rw [joined] at events
      refine ⟨rfl, _, _, .started spawned, events, ?_⟩
      rcases onward with ⟨config, more, left, rfl⟩ | ⟨last, rfl, -⟩
      · exact .following left
      · exact .finished last

/-- The node of an add that has come up is registered, or stopped again. -/
theorem launched_events (sound : Sound network) {name : String} {node : Node}
    (busy : network.activity? call = some (.committing name (.ok node)))
    (turn : Turn network call action shared fate)
    (step : network.step? action = some (shared.settle call fate)) :
    launchEvents (network, action) = [.register node] ∧ action.call? = some call ∧
        fate = .ends (.node node) ∨
      launchEvents (network, action) = [] ∧ fate = .goesOn (.withdrawing node) := by
  obtain ⟨begun, only⟩ := turn_goes_on sound busy
  clear busy
  cases turn with
  | refused | answered | reserved | taken | drained | drainedNone => exact absurd rfl begun
  | registered same opened =>
      cases only _ same
      have fresh := news_of_step step [] (settle_happenings ..)
      have joined : joining? (network, .commit call) = some node := by
        simp [joining?, same, opened]
      refine .inl ⟨?_, rfl, rfl⟩
      rw [launchEvents, fresh, joined]
      rfl
  | tooLate same stopped =>
      cases only _ same
      refine .inr ⟨no_launch_events step [] (settle_happenings ..) (by simp) ?_, rfl⟩
      simp [joining?, same, stopped]
  | _ =>
      have clash := only _ ‹network.activity? _ = some _›
      cases clash

theorem launching_of_events (turn : Turn network call action shared fate)
    (step : network.step? action = some (shared.settle call fate))
    (some : launchEvents (network, action) ≠ []) :
    action.call? = .some call ∧
      ∃ activity, network.activity? call = .some activity ∧ activity.Launches := by
  have happened := settle_happenings shared call fate
  cases turn with
  | refused | answered | reserved | taken | drained | drainedNone | asked | cancelled | left =>
      exact absurd (no_launch_events step [] happened (by simp) rfl) some
  | unbuilt | unbuiltLast | withdrawn | removed | stopped | stoppedLast | cleared | clearedLast =>
      exact absurd (no_launch_events step [_] happened (by simp [launchEvent?]) rfl) some
  | lost busy =>
      exact absurd (no_launch_events step [] happened (by simp) (by simp [joining?, busy])) some
  | buildFailed busy fails | buildFailedAlone busy fails | addFailed busy fails =>
      exact ⟨(advance_of_failed fails step happened).1, _, busy, trivial⟩
  | spawnedBuilding busy | spawnedAdding busy | built busy | builtLast busy | started busy
  | registered busy | tooLate busy => exact ⟨rfl, _, busy, trivial⟩

theorem no_events_of_turn (turn : Turn network call action shared fate)
    (step : network.step? action = some (shared.settle call fate))
    (idle : ∀ activity, network.activity? call = some activity → ¬activity.Launches) :
    launchEvents (network, action) = [] := by
  apply Decidable.byContradiction
  intro some
  obtain ⟨-, activity, busy, launches⟩ := launching_of_events turn step some
  exact idle activity busy launches

/-- Checks, time and a new order of the registry do nothing for a launch. -/
theorem no_events_of_aside {polls : List Happening} {checks : List CheckId}
    (aside : action.IsAside) (step : network.step? action = some next)
    (grown : next.happenings = polls ++ network.happenings)
    (onlyPolls : ∀ happening ∈ polls, Happening.IsPoll checks happening) :
    launchEvents (network, action) = [] := by
  refine no_launch_events step polls grown ?_ ?_
  · intro happening member
    have poll := onlyPolls happening member
    cases happening with
    | polled => rfl
    | _ => exact False.elim poll
  · cases action with
    | cancel | check | dropSignal | pass => rfl
    | _ => exact aside.elim

theorem launching_of_step (sound : Sound network) (step : network.step? action = some next)
    (some : launchEvents (network, action) ≠ []) :
    ∃ call activity, action.call? = .some call ∧ network.activity? call = .some activity ∧
      activity.Launches := by
  have move := move_of_step sound.one_builder step
  cases move with
  | turn turn =>
      obtain ⟨own, activity, busy, launches⟩ := launching_of_events turn step some
      exact ⟨_, activity, own, busy, launches⟩
  | aside aside _ onlyPolls =>
      exact absurd (no_events_of_aside aside step rfl onlyPolls) some
  | shuffled => exact absurd (no_launch_events step [] rfl (by simp) rfl) some

theorem launching_turn (turn : Turn network call action shared fate) {activity : Activity}
    (next : fate.activity? = some activity) (launches : activity.Launches) :
    (∃ given args resolved, action = .begin (.add given args) ∧ call = network.nextCall ∧
        (network.registry.reserve given).1 = .ok resolved ∧
        activity = .adding (launchOf resolved args)) ∨
      ∃ before, network.activity? call = some before ∧ before.Launches := by
  cases turn with
  | @reserved given resolved args names log running opened judged =>
      refine .inl ⟨given, args, resolved, rfl, rfl, ?_, ?_⟩
      · rw [Registry.reserve_of_judged opened judged]
      · exact (Option.some.inj next).symm
  | spawnedBuilding busy | spawnedAdding busy | built busy | started busy =>
      exact .inr ⟨_, busy, trivial⟩
  | taken | drained | buildFailed | addFailed | tooLate | asked | unbuilt | stopped | cleared
  | cancelled =>
      obtain rfl := Option.some.inj next
      exact False.elim launches
  | refused | answered | drainedNone | buildFailedAlone | builtLast | registered | lost
  | unbuiltLast | withdrawn | removed | stoppedLast | clearedLast | left => cases next

/-- Instances are returned by what happens; a registration returns none. -/
theorem returned_of_step (step : network.step? action = some next) (fresh : List Happening)
    (grown : next.happenings = fresh ++ network.happenings) :
    (launchEvents (network, action)).filterMap LaunchEvent.returned? =
      (fresh.reverse.filterMap (launchEvent? (network, action))).filterMap
        LaunchEvent.returned? := by
  rw [launchEvents, news_of_step step fresh grown, List.filterMap_append]
  cases joining? (network, action) <;> simp [LaunchEvent.returned?]

/-- A spawn returns the next instance and moves on to the one after it. -/
theorem returned_by_turn (turn : Turn network call action shared fate)
    (step : network.step? action = some (shared.settle call fate)) :
    (launchEvents (network, action)).filterMap LaunchEvent.returned? = [] ∧
        network.nextInstance ≤ shared.nextInstance ∨
      (launchEvents (network, action)).filterMap LaunchEvent.returned? =
          [network.nextInstance] ∧ shared.nextInstance = network.nextInstance + 1 := by
  have happened := settle_happenings shared call fate
  cases turn with
  | spawnedBuilding | spawnedAdding =>
      rw [returned_of_step step [_] happened]
      exact .inr ⟨rfl, rfl⟩
  | buildFailed busy fails | buildFailedAlone busy fails | addFailed busy fails =>
      cases fails with
      | spawn =>
          rw [returned_of_step step [_] happened]
          exact .inl ⟨rfl, Nat.le_succ _⟩
      | start =>
          rw [returned_of_step step [_] happened]
          exact .inl ⟨rfl, Nat.le_refl _⟩
  | built | builtLast | started =>
      rw [returned_of_step step [_, _] happened]
      exact .inl ⟨rfl, Nat.le_refl _⟩
  | unbuilt | unbuiltLast | withdrawn | removed | stopped | stoppedLast | cleared | clearedLast =>
      rw [returned_of_step step [_] happened]
      exact .inl ⟨rfl, Nat.le_refl _⟩
  | refused | answered | reserved | taken | drained | drainedNone | asked | cancelled | left
  | registered | tooLate | lost =>
      rw [returned_of_step step [] happened]
      exact .inl ⟨rfl, Nat.le_refl _⟩

theorem returned_by_step (sound : Sound network) (step : network.step? action = some next) :
    (launchEvents (network, action)).filterMap LaunchEvent.returned? = [] ∧
        network.nextInstance ≤ next.nextInstance ∨
      (launchEvents (network, action)).filterMap LaunchEvent.returned? =
          [network.nextInstance] ∧ next.nextInstance = network.nextInstance + 1 := by
  have move := move_of_step sound.one_builder step
  cases move with
  | turn turn =>
      rw [settle_nextInstance]
      exact returned_by_turn turn step
  | aside aside _ onlyPolls =>
      rw [no_events_of_aside aside step rfl onlyPolls]
      exact .inl ⟨rfl, Nat.le_refl _⟩
  | shuffled =>
      rw [returned_of_step step [] rfl]
      exact .inl ⟨rfl, Nat.le_refl _⟩

def returnedInstances (history : List (Network × Action)) : List Nat :=
  (history.flatMap launchEvents).filterMap LaunchEvent.returned?

theorem returned_instances_grow {start : Network} (trace : Trace start history network)
    (sound : Sound start) :
    (returnedInstances history).Pairwise (· < ·) ∧
      ∀ instanceId ∈ returnedInstances history, instanceId < network.nextInstance := by
  have follows := @trace_carries start network history
    (fun history network => (returnedInstances history).Pairwise (· < ·) ∧
      ∀ instanceId ∈ returnedInstances history, instanceId < network.nextInstance)
    trace sound ?_ ⟨.nil, by simp [returnedInstances]⟩
  · exact follows.2
  · rintro history network next action - sound ⟨ordered, below⟩ step
    have whole : returnedInstances (history ++ [(network, action)]) =
        returnedInstances history ++
          (launchEvents (network, action)).filterMap LaunchEvent.returned? := by
      simp [returnedInstances]
    rcases returned_by_step sound step with ⟨none, onward⟩ | ⟨one, later⟩
    · rw [whole, none, List.append_nil]
      exact ⟨ordered, fun instanceId member => Nat.lt_of_lt_of_le (below _ member) onward⟩
    · rw [whole, one, later]
      constructor
      · rw [List.pairwise_append]
        refine ⟨ordered, List.pairwise_singleton _ _, ?_⟩
        intro earlier member last new
        rw [List.mem_singleton.mp new]
        exact below earlier member
      · intro instanceId member
        rcases List.mem_append.mp member with old | new
        · exact Nat.lt_succ_of_lt (below _ old)
        · rw [List.mem_singleton.mp new]
          exact Nat.lt_succ_self _

end Network

end LocalNet
