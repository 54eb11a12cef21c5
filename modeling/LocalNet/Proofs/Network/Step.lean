import LocalNet.Proofs.Network.Turn

/-!
# Every step is a move

One inversion for each kind of action: a step that succeeds is a turn of a call, or leaves calls and
registry alone. Nothing after this module opens the steps.
-/

namespace LocalNet.Network

/-- Only the first call constructs. -/
def OneBuilder (network : Network) : Prop :=
  ∀ call launch rest nodes reason,
    network.activity? call = some (.building launch rest) ∨
      network.activity? call = some (.unbuilding nodes reason) → call = constructionCall

theorem refused_turn {network : Network} (running : network.standing = .running)
    {request : Request} {reason : NetworkError}
    (refusal : network.registry.refusal? request = some reason) :
    ∃ shared fate, Turn network network.nextCall (.begin request) shared fate ∧
      network.begin request = shared.settle network.nextCall fate := by
  refine ⟨_, _, @Turn.refused network request reason network.log running refusal, ?_⟩
  cases request with
  | add config args =>
      unfold begin
      simp only [Registry.reserve_of_refusal refusal]
      rfl
  | remove name =>
      unfold begin
      simp only [Registry.take_of_refusal refusal]
      rfl
  | get name =>
      unfold begin
      simp only [Registry.get_of_refusal refusal]
      rfl
  | names | stop | healthy =>
      unfold Registry.refusal? at refusal
      split at refusal
      · rename_i stopped
        obtain rfl : NetworkError.stopped = reason := by simpa using refusal
        unfold begin
        simp only [Registry.nodeNames, Registry.drain, Registry.snapshot, stopped, if_true]
        rfl
      · simp at refusal

theorem begin_turn {network : Network} (running : network.standing = .running)
    (request : Request) :
    ∃ shared fate, Turn network network.nextCall (.begin request) shared fate ∧
      network.begin request = shared.settle network.nextCall fate := by
  cases refusal : network.registry.refusal? request with
  | some reason => exact refused_turn running refusal
  | none =>
      have opened := Registry.opened_of_refusal_none refusal
      have notStopped : ¬network.registry.stopped = true := by simp [opened]
      unfold Registry.refusal? at refusal
      rw [if_neg notStopped] at refusal
      cases request with
      | add config args =>
          cases judged :
              validateAddedNode config network.registry.taken network.registry.names with
          | mk verdict names =>
              cases verdict with
              | error reason => simp [judged] at refusal
              | ok resolved =>
                  unfold begin
                  simp only [Registry.reserve_of_judged opened judged]
                  exact ⟨_, _, .reserved running opened judged, rfl⟩
      | remove name =>
          cases found : network.registry.find? name with
          | none => simp [found] at refusal
          | some node =>
              unfold begin
              simp only [Registry.take_of_found opened found]
              exact ⟨_, _, .taken running opened found, rfl⟩
      | get name =>
          cases found : network.registry.find? name with
          | none => simp [found] at refusal
          | some node =>
              unfold begin
              simp only [Registry.get_of_found opened found]
              have answer : network.registry.answer? network.nextCall (.get name) =
                  some (.node node) := by
                rw [Registry.answer?, found]
                rfl
              exact ⟨_, _, .answered running opened answer fun _ known => .inr known, rfl⟩
      | names =>
          unfold begin Registry.nodeNames
          simp only [if_neg notStopped]
          exact ⟨_, _, .answered running opened rfl fun _ known => .inr known, rfl⟩
      | stop cancelled =>
          unfold begin
          simp only [Registry.drain_of_opened opened]
          by_cases none : network.registry.nodes = []
          · rw [if_pos (by simp [none])]
            exact ⟨_, _, .drainedNone running opened none, rfl⟩
          · rw [if_neg (by simp [none])]
            exact ⟨_, _, .drained running opened none, rfl⟩
      | healthy cancelled =>
          unfold begin Registry.snapshot
          simp only [if_neg notStopped]
          refine ⟨_, _, .answered running opened rfl ?_, rfl⟩
          exact fun _ known => List.mem_cons.mp known

theorem fail_building_turn {network : Network} {launch : Launch} {rest : List NodeConfig}
    {action : Action} {reason : ProcessError} {nextInstance : Nat}
    {happenings : List Happening}
    (busy : network.activity? constructionCall = some (.building launch rest))
    (fails : LaunchFails network constructionCall launch action reason nextInstance happenings) :
    ∃ shared fate, Turn network constructionCall action shared fate ∧
      { network with nextInstance := nextInstance, happenings := happenings }.failBuilding
        (processFault launch.config.name reason) = shared.settle constructionCall fate := by
  by_cases none : network.registry.nodes = []
  · unfold failBuilding
    rw [if_pos (by simp [none, recordWithin, record])]
    exact ⟨_, _, .buildFailedAlone busy fails none, rfl⟩
  · unfold failBuilding
    rw [if_neg (by simp [none, recordWithin, record])]
    exact ⟨_, _, .buildFailed busy fails none, rfl⟩

theorem spawn_returns_turn {network next : Network} {call : CallId}
    {answer : Except ProcessError Unit} (oneBuilder : OneBuilder network)
    (step : network.spawnReturns call answer = some next) :
    ∃ shared fate, Turn network call (.spawnReturns call answer) shared fate ∧
      next = shared.settle call fate := by
  unfold spawnReturns at step
  split at step
  · rename_i launch rest busy
    obtain rfl := oneBuilder call launch rest [] .stopped (.inl busy)
    split at step
    · cases step
    · rename_i unspawned
      have waiting : launch.spawned = none := by simpa using unspawned
      cases answer with
      | error reason =>
          obtain ⟨shared, fate, turn, same⟩ := fail_building_turn busy (.spawn waiting)
          exact ⟨shared, fate, turn, (Option.some.inj step).symm.trans same⟩
      | ok =>
          cases step
          exact ⟨_, _, .spawnedBuilding busy waiting, rfl⟩
  · rename_i launch busy
    split at step
    · cases step
    · rename_i unspawned
      have waiting : launch.spawned = none := by simpa using unspawned
      cases answer with
      | error reason =>
          cases step
          exact ⟨_, _, .addFailed busy (.spawn waiting), rfl⟩
      | ok =>
          cases step
          exact ⟨_, _, .spawnedAdding busy waiting, rfl⟩
  · cases step

theorem start_returns_turn {network next : Network} {call : CallId}
    {answer : Except ProcessError Unit} (oneBuilder : OneBuilder network)
    (step : network.startReturns call answer = some next) :
    ∃ shared fate, Turn network call (.startReturns call answer) shared fate ∧
      next = shared.settle call fate := by
  unfold startReturns at step
  split at step
  · rename_i launch rest busy
    obtain rfl := oneBuilder call launch rest [] .stopped (.inl busy)
    split at step
    · cases step
    · rename_i instanceId spawned
      cases answer with
      | error reason =>
          obtain ⟨shared, fate, turn, same⟩ := fail_building_turn busy (.start spawned)
          exact ⟨shared, fate, turn, (Option.some.inj step).symm.trans same⟩
      | ok =>
          cases rest with
          | nil =>
              cases step
              exact ⟨_, _, .builtLast busy spawned, rfl⟩
          | cons config rest =>
              cases step
              exact ⟨_, _, .built busy spawned, rfl⟩
  · rename_i launch busy
    split at step
    · cases step
    · rename_i instanceId spawned
      cases answer with
      | error reason =>
          cases step
          exact ⟨_, _, .addFailed busy (.start spawned), rfl⟩
      | ok =>
          cases step
          exact ⟨_, _, .started busy spawned, rfl⟩
  · cases step

theorem commit_turn {network next : Network} {call : CallId}
    (step : network.commit call = some next) :
    ∃ shared fate, Turn network call (.commit call) shared fate ∧
      next = shared.settle call fate := by
  unfold commit at step
  split at step
  · rename_i name launched busy
    cases launched with
    | error reason =>
        cases step
        exact ⟨_, _, .lost busy, rfl⟩
    | ok node =>
        unfold Registry.commit at step
        cases stopped : network.registry.stopped with
        | false =>
            have opened : ¬(network.registry.giveBack name).stopped = true := by
              simp [Registry.giveBack, stopped]
            simp only [if_neg opened] at step
            cases step
            exact ⟨_, _, .registered busy stopped, rfl⟩
        | true =>
            have closed : (network.registry.giveBack name).stopped = true := stopped
            simp only [if_pos closed] at step
            cases step
            exact ⟨_, _, .tooLate busy stopped, rfl⟩
  · cases step

theorem stop_returns_turn {network next : Network} {call : CallId}
    {answer : Except ProcessError Unit} (oneBuilder : OneBuilder network)
    (step : network.stopReturns call answer = some next) :
    ∃ shared fate, Turn network call (.stopReturns call answer) shared fate ∧
      next = shared.settle call fate := by
  unfold stopReturns at step
  split at step
  · rename_i node rest reason busy
    obtain rfl := oneBuilder call (launchOf {} []) [] _ _ (.inr busy)
    cases rest with
    | nil =>
        cases step
        exact ⟨_, _, .unbuiltLast busy, rfl⟩
    | cons other rest =>
        cases step
        exact ⟨_, _, .unbuilt busy, rfl⟩
  · rename_i node busy
    cases step
    exact ⟨_, _, .withdrawn busy, rfl⟩
  · rename_i name node busy
    cases answer with
    | error reason =>
        cases step
        exact ⟨_, _, .removed busy, rfl⟩
    | ok =>
        cases step
        exact ⟨_, _, .removed busy, rfl⟩
  · rename_i node rest firstError busy
    cases rest with
    | nil =>
        cases answer with
        | error reason =>
            cases step
            exact ⟨_, _, .stoppedLast busy, rfl⟩
        | ok =>
            cases step
            exact ⟨_, _, .stoppedLast busy, rfl⟩
    | cons other rest =>
        cases answer with
        | error reason =>
            cases step
            exact ⟨_, _, .stopped busy, rfl⟩
        | ok =>
            cases step
            exact ⟨_, _, .stopped busy, rfl⟩
  · rename_i node rest busy
    cases rest with
    | nil =>
        cases step
        exact ⟨_, _, .clearedLast busy, rfl⟩
    | cons other rest =>
        cases step
        exact ⟨_, _, .cleared busy, rfl⟩
  · cases step

theorem leave_to_background_turn {network next : Network} {call : CallId}
    (step : network.leaveToBackground call = some next) :
    ∃ shared fate, Turn network call (.leaveToBackground call) shared fate ∧
      next = shared.settle call fate := by
  unfold leaveToBackground at step
  split at step
  · rename_i nodes asked firstError busy
    have turn := @Turn.left network call nodes asked firstError
      (network.record [note .warn ("Network " ++ network.name ++ " stop cancelled, stopping " ++
        toString nodes.length ++ " nodes in the background")]).log busy
    exact ⟨_, _, turn, (Option.some.inj step).symm⟩
  · cases step

theorem ask_to_stop_turn {network next : Network} {call : CallId}
    (step : network.askToStop call = some next) :
    ∃ shared fate, Turn network call (.askToStop call) shared fate ∧
      next = shared.settle call fate := by
  unfold askToStop at step
  split at step
  · rename_i nodes firstError busy
    cases step
    exact ⟨_, _, .asked busy, rfl⟩
  · cases step

theorem set_check_ids (network : Network) (id : CheckId) (check : Check) :
    (network.setCheck id check).checks.map Prod.fst = network.checks.map Prod.fst := by
  simp only [setCheck, List.map_map]
  apply List.map_congr_left
  intro entry _
  simp only [Function.comp_apply]
  split
  · rename_i same
    exact same.symm
  · rfl

theorem cancel_check_ids (network : Network) (id : CheckId) :
    (network.checks.map fun entry =>
      if entry.1 = id then (entry.1, { entry.2 with cancelled := true }) else entry).map Prod.fst =
        network.checks.map Prod.fst := by
  rw [List.map_map]
  apply List.map_congr_left
  intro entry _
  simp only [Function.comp_apply]
  split <;> rfl

theorem cancel_move (network : Network) (call : CallId) :
    Move network (.cancel call) (network.cancel call) := by
  unfold cancel
  split
  · rename_i nodes asked known firstError busy
    exact .turn (.cancelled busy)
  · exact @Move.aside network (.cancel call) [] _ network.now network.log trivial
      (cancel_check_ids network call) (by simp)

theorem note_poll_happenings (network : Network) {id : CheckId} {checks : List CheckId}
    (known : id ∈ checks) (check : Check) (step : Check.Step) :
    ∃ polls, (∀ happening ∈ polls, Happening.IsPoll checks happening) ∧
      network.notePoll id check step =
        { network with happenings := polls ++ network.happenings } := by
  unfold notePoll
  split
  · split
    · refine ⟨[_], ?_, rfl⟩
      intro happening member
      rw [List.mem_singleton.mp member]
      exact known
    · exact ⟨[], by simp, rfl⟩
  · exact ⟨[], by simp, rfl⟩

theorem check_move {network next : Network} {id : CheckId} {checkStep : Check.Step}
    (step : network.stepCheck id checkStep = some next) :
    Move network (.check id checkStep) next := by
  unfold stepCheck at step
  split at step
  · cases step
  · rename_i check found
    split at step
    · cases step
    · rename_i later events stepped
      have known : id ∈ network.checks.map Prod.fst := by
        have present : (network.checks.lookup id).isSome := by
          rw [show network.checks.lookup id = some check from found]
          rfl
        obtain ⟨entry, member, same⟩ := List.lookup_isSome_iff.mp present
        exact List.mem_map.mpr ⟨entry, member, (beq_iff_eq.mp same).symm⟩
      obtain ⟨polls, onlyPolls, noted⟩ :=
        note_poll_happenings (network.setCheck id later) known check checkStep
      rw [noted] at step
      cases step
      exact .aside trivial (set_check_ids network id later) onlyPolls

theorem running_of_begin {network next : Network} {request : Request}
    (step : network.step? (.begin request) = some next) : network.standing = .running := by
  cases standing : network.standing with
  | running => rfl
  | constructing | refused => simp [step?, standing] at step

/-- Every step is a move: this account of them is complete. -/
theorem move_of_step {network next : Network} {action : Action} (oneBuilder : OneBuilder network)
    (step : network.step? action = some next) : Move network action next := by
  cases action with
  | begin request =>
      unfold step? at step
      cases running : network.standing with
      | running =>
          obtain ⟨shared, fate, turn, same⟩ := begin_turn running request
          simp only [running, Option.some.injEq] at step
          rw [← step, same]
          exact .turn turn
      | constructing => simp [running] at step
      | refused reason => simp [running] at step
  | spawnReturns call answer =>
      obtain ⟨shared, fate, turn, rfl⟩ := spawn_returns_turn oneBuilder step
      exact .turn turn
  | startReturns call answer =>
      obtain ⟨shared, fate, turn, rfl⟩ := start_returns_turn oneBuilder step
      exact .turn turn
  | commit call =>
      obtain ⟨shared, fate, turn, rfl⟩ := commit_turn step
      exact .turn turn
  | askToStop call =>
      obtain ⟨shared, fate, turn, rfl⟩ := ask_to_stop_turn step
      exact .turn turn
  | stopReturns call answer =>
      obtain ⟨shared, fate, turn, rfl⟩ := stop_returns_turn oneBuilder step
      exact .turn turn
  | cancel call =>
      cases step
      exact cancel_move network call
  | leaveToBackground call =>
      obtain ⟨shared, fate, turn, rfl⟩ := leave_to_background_turn step
      exact .turn turn
  | check id checkStep => exact check_move step
  | dropSignal id =>
      cases step
      unfold dropSignal
      split
      · exact @Move.aside network (.dropSignal id) [] _ network.now network.log trivial
          (set_check_ids network id _) (by simp)
      · exact @Move.aside network (.dropSignal id) [] network.checks network.now network.log
          trivial rfl (by simp)
  | shuffle nodes =>
      simp only [step?, Registry.shuffle?] at step
      split at step
      · rename_i same
        cases step
        exact .shuffled (List.isPerm_iff.mp same)
      · cases step
  | pass later =>
      simp only [step?] at step
      split at step
      · cases step
        exact @Move.aside network (.pass later) [] network.checks later network.log trivial rfl
          (by simp)
      · cases step

end LocalNet.Network
