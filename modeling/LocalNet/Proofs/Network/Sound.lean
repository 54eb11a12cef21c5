import LocalNet.Proofs.Network.Calls

/-!
# Networks that make sense

What holds of every state of a network whatever its nodes are called: calls are told apart, a call
that has ended is not in flight, only the first one constructs, and whoever stops nodes has one to
stop. With it come the shape of a fresh network and the induction over what it can come to.
-/

namespace LocalNet

namespace Activity

/-- Whoever stops nodes has one to stop, and failures of processes are told as such. -/
def Sound : Activity → Prop
  | .building launch _ => launch.args = []
  | .unbuilding nodes _ => nodes ≠ []
  | .committing _ (.error reason) => ∃ node fault, reason = .process node fault
  | .committing name (.ok node) => node.name = name
  | .stopping nodes _ _ firstError =>
    nodes ≠ [] ∧ ∀ reason, firstError = some reason → ∃ node fault, reason = .process node fault
  | .clearing nodes => nodes ≠ []
  | _ => True

def Builds : Activity → Prop
  | .building .. => True
  | .unbuilding .. => True
  | _ => False

end Activity

namespace Network

structure Sound (network : Network) : Prop where
  distinct : DistinctCalls network
  known : KnownCalls network
  begun : 0 < network.nextCall
  finished : ∀ call outcome, network.outcome? call = some outcome →
    network.activity? call = none ∧ call < network.nextCall
  sound : ∀ call activity, network.activity? call = some activity → activity.Sound
  builder : ∀ call activity, network.activity? call = some activity → activity.Builds →
    call = constructionCall ∧ network.standing = .constructing
  constructing : network.standing = .constructing →
    network.nextCall = 1 ∧
      ∃ activity, network.activity? constructionCall = some activity ∧ activity.Builds
  emptied : ∀ call nodes reason, network.activity? call = some (.unbuilding nodes reason) →
    network.registry.nodes = []
  refused : ∀ reason, network.standing = .refused reason →
    Quiescent network ∧ network.registry.nodes = []
  closed : network.registry.stopped = true →
    network.registry.nodes = [] ∧ network.standing = .running
  watched : ∀ id ∈ network.checks.map Prod.fst, id < network.nextCall
  unwatched : network.standing ≠ .running → network.checks = []

theorem Sound.one_builder {network : Network} (sound : Sound network) : OneBuilder network := by
  intro call launch rest nodes reason busy
  rcases busy with building | unbuilding
  · exact (sound.builder call _ building trivial).1
  · exact (sound.builder call _ unbuilding trivial).1

theorem Sound.fresh {network : Network} (sound : Sound network) :
    network.activity? network.nextCall = none := by
  cases busy : network.activity? network.nextCall with
  | none => rfl
  | some activity => exact absurd (sound.known _ _ busy) (Nat.lt_irrefl _)

theorem Sound.alone {network : Network} (sound : Sound network)
    (constructing : network.standing = .constructing) {call : CallId} {activity : Activity}
    (busy : network.activity? call = some activity) : call = constructionCall := by
  have known := sound.known call activity busy
  have one := (sound.constructing constructing).1
  rw [one] at known
  exact Nat.lt_one_iff.mp known

variable {network shared : Network} {call : CallId} {action : Action} {fate : Fate}

/-- A turn of a call in flight is no beginning, and it goes on from what the call is doing. -/
theorem turn_goes_on (sound : Sound network) {activity : Activity}
    (busy : network.activity? call = some activity) :
    call ≠ network.nextCall ∧
      ∀ other, network.activity? call = some other → other = activity := by
  refine ⟨Nat.ne_of_lt (sound.known _ _ busy), fun other same => ?_⟩
  exact Option.some.inj (same.symm.trans busy)

theorem kept_error_process {node : Node} {firstError : Option NetworkError}
    (told : ∀ reason, firstError = some reason → ∃ node fault, reason = .process node fault)
    (answer : Except ProcessError Unit) :
    ∀ reason, keptError node firstError answer = some reason →
      ∃ node fault, reason = .process node fault := by
  intro reason kept
  cases answer with
  | ok => exact told reason kept
  | error fault =>
      cases firstError with
      | none =>
          obtain rfl : processFault node.name fault = reason := by
            simpa [keptError] using kept
          exact ⟨_, _, rfl⟩
      | some first => exact told reason (by simpa [keptError] using kept)

theorem turn_activity_sound (turn : Turn network call action shared fate)
    (sound : ∀ call activity, network.activity? call = some activity → activity.Sound)
    {activity : Activity}
    (next : fate.activity? = some activity ∨ fate.leftover? = some activity) :
    activity.Sound := by
  cases turn with
  | reserved | taken | spawnedAdding | tooLate =>
      obtain rfl : _ = activity := by simpa [Fate.activity?, Fate.leftover?] using next
      trivial
  | drained running opened some =>
      obtain rfl : _ = activity := by simpa [Fate.activity?, Fate.leftover?] using next
      exact ⟨by simpa using some, by simp⟩
  | spawnedBuilding busy | asked busy | cancelled busy =>
      obtain rfl : _ = activity := by simpa [Fate.activity?, Fate.leftover?] using next
      have before := sound _ _ busy
      exact before
  | buildFailed busy fails some =>
      obtain rfl : _ = activity := by simpa [Fate.activity?, Fate.leftover?] using next
      simpa [Activity.Sound] using some
  | addFailed =>
      obtain rfl : _ = activity := by simpa [Fate.activity?, Fate.leftover?] using next
      exact ⟨_, _, rfl⟩
  | built | started =>
      obtain rfl : _ = activity := by simpa [Fate.activity?, Fate.leftover?] using next
      rfl
  | unbuilt | cleared =>
      obtain rfl : _ = activity := by simpa [Fate.activity?, Fate.leftover?] using next
      exact List.cons_ne_nil _ _
  | stopped busy =>
      obtain rfl : _ = activity := by simpa [Fate.activity?, Fate.leftover?] using next
      exact ⟨List.cons_ne_nil _ _, kept_error_process (sound _ _ busy).2 _⟩
  | left busy =>
      obtain rfl : _ = activity := by simpa [Fate.activity?, Fate.leftover?] using next
      exact (sound _ _ busy).1
  | refused | answered | drainedNone | buildFailedAlone | builtLast | registered | lost
  | unbuiltLast | withdrawn | removed | stoppedLast | clearedLast =>
      simp [Fate.activity?, Fate.leftover?] at next

/-- A turn that does not construct is one of a running network, which goes on running. -/
structure OrdinaryTurn (network shared : Network) (fate : Fate) : Prop where
  running : network.standing = .running
  standing : shared.standing = .running
  after : ∀ activity, fate.activity? = some activity ∨ fate.leftover? = some activity →
    ¬activity.Builds

/-- A turn of the construction goes on with it, or settles how the network stands. -/
structure BuildingTurn (network shared : Network) (call : CallId) (fate : Fate) : Prop where
  first : call = constructionCall
  before : ∃ activity, network.activity? call = some activity ∧ activity.Builds
  nextCall : shared.nextCall = network.nextCall
  after : (∃ activity, fate = .goesOn activity ∧ activity.Builds ∧
        shared.standing = network.standing ∧
        ∀ nodes reason, activity = .unbuilding nodes reason → shared.registry.nodes = []) ∨
      ∃ outcome, fate = .ends outcome ∧
        (shared.standing = .running ∨
          (∃ reason, shared.standing = .refused reason) ∧ shared.registry.nodes = [])

theorem Sound.running_of_busy (sound : Sound network) {activity : Activity}
    (busy : network.activity? call = some activity) (ordinary : ¬activity.Builds) :
    network.standing = .running := by
  cases standing : network.standing with
  | running => rfl
  | constructing =>
      obtain ⟨-, builder, building, builds⟩ := sound.constructing standing
      obtain rfl := sound.alone standing busy
      rw [building] at busy
      cases busy
      exact absurd builds ordinary
  | refused reason =>
      have idle : network.activities = [] := (sound.refused reason standing).1
      simp [activity?, idle] at busy

theorem ordinary_turn (sound : Sound network) {before : Activity}
    (busy : network.activity? call = some before) (ordinary : ¬before.Builds)
    (same : shared.standing = network.standing)
    (after : ∀ activity, fate.activity? = some activity ∨ fate.leftover? = some activity →
      ¬activity.Builds) :
    OrdinaryTurn network shared fate where
  running := sound.running_of_busy busy ordinary
  standing := same.trans (sound.running_of_busy busy ordinary)
  after := after

theorem turn_ordinary_or_building (sound : Sound network)
    (turn : Turn network call action shared fate) :
    OrdinaryTurn network shared fate ∨ BuildingTurn network shared call fate := by
  cases turn with
  | refused running | answered running | reserved running | taken running | drained running
  | drainedNone running =>
      refine .inl ⟨running, running, ?_⟩
      simp [Fate.activity?, Fate.leftover?, Activity.Builds]
  | spawnedBuilding busy | built busy =>
      refine .inr ⟨rfl, ⟨_, busy, trivial⟩, rfl, .inl ⟨_, rfl, trivial, rfl, by simp⟩⟩
  | buildFailed busy =>
      refine .inr ⟨rfl, ⟨_, busy, trivial⟩, rfl, .inl ⟨_, rfl, trivial, rfl, ?_⟩⟩
      exact fun _ _ _ => rfl
  | buildFailedAlone busy =>
      exact .inr ⟨rfl, ⟨_, busy, trivial⟩, rfl, .inr ⟨_, rfl, .inr ⟨⟨_, rfl⟩, rfl⟩⟩⟩
  | builtLast busy =>
      exact .inr ⟨rfl, ⟨_, busy, trivial⟩, rfl, .inr ⟨_, rfl, .inl rfl⟩⟩
  | unbuilt busy =>
      refine .inr ⟨rfl, ⟨_, busy, trivial⟩, rfl, .inl ⟨_, rfl, trivial, rfl, ?_⟩⟩
      exact fun _ _ _ => sound.emptied _ _ _ busy
  | unbuiltLast busy =>
      have emptied := sound.emptied _ _ _ busy
      exact .inr ⟨rfl, ⟨_, busy, trivial⟩, rfl, .inr ⟨_, rfl, .inr ⟨⟨_, rfl⟩, emptied⟩⟩⟩
  | spawnedAdding busy | addFailed busy | started busy | registered busy | tooLate busy
  | lost busy | asked busy | withdrawn busy | removed busy | stopped busy | stoppedLast busy
  | cleared busy | clearedLast busy | cancelled busy | left busy =>
      refine .inl (ordinary_turn sound busy id rfl ?_)
      simp [Fate.activity?, Fate.leftover?, Activity.Builds]

theorem turn_known (sound : Sound network) (turn : Turn network call action shared fate) :
    call < shared.nextCall ∧ network.nextCall ≤ shared.nextCall := by
  rcases turn_call turn with ⟨_, _, first, later, _⟩ | ⟨⟨activity, busy⟩, same, _⟩
  · rw [first, later]
    exact ⟨Nat.lt_succ_self _, Nat.le_succ _⟩
  · rw [same]
    exact ⟨sound.known call activity busy, Nat.le_refl _⟩

theorem turn_activity (turn : Turn network call action shared fate) (other : CallId) :
    shared.activity? other = network.activity? other := by
  simp only [activity?, (turn_table turn).1]

theorem turn_outcome (turn : Turn network call action shared fate) (other : CallId) :
    shared.outcome? other = network.outcome? other := by
  simp only [outcome?, (turn_table turn).2]

/-- After a turn, what is in flight is the call itself, what it has left behind, or another call
that the turn did not touch. -/
theorem settle_activity_cases (sound : Sound network)
    (turn : Turn network call action shared fate) {other : CallId} {activity : Activity}
    (busy : (shared.settle call fate).activity? other = some activity) :
    other = call ∧ fate.activity? = some activity ∨
      other = shared.nextCall ∧ fate.leftover? = some activity ∨
      other ≠ call ∧ network.activity? other = some activity := by
  obtain ⟨known, later⟩ := turn_known sound turn
  by_cases own : other = call
  · subst own
    rw [settle_activity_self shared fate known] at busy
    exact .inl ⟨rfl, busy⟩
  · cases leftover : fate.leftover? with
    | none =>
        rw [settle_activity_other shared own (.inl leftover), turn_activity turn] at busy
        exact .inr (.inr ⟨own, busy⟩)
    | some taken =>
        by_cases new : other = shared.nextCall
        · subst new
          rw [settle_activity_new shared call leftover] at busy
          exact .inr (.inl ⟨rfl, busy⟩)
        · rw [settle_activity_other shared own (.inr new), turn_activity turn] at busy
          exact .inr (.inr ⟨own, busy⟩)

theorem settle_activity_kept (sound : Sound network)
    (turn : Turn network call action shared fate) {other : CallId} (different : other ≠ call)
    (begun : other < network.nextCall) :
    (shared.settle call fate).activity? other = network.activity? other := by
  have later := (turn_known sound turn).2
  have old : other ≠ shared.nextCall := Nat.ne_of_lt (Nat.lt_of_lt_of_le begun later)
  rw [settle_activity_other shared different (.inr old), turn_activity turn]

theorem settle_outcome_kept (turn : Turn network call action shared fate) {other : CallId}
    (different : other ≠ call) :
    (shared.settle call fate).outcome? other = network.outcome? other := by
  rw [settle_outcome_other shared fate different, turn_outcome turn]

theorem activity_none_of_outcome (fate : Fate) {outcome : Outcome}
    (ended : fate.outcome? = some outcome) : fate.activity? = none := by
  cases fate with
  | ends | handsOver => rfl
  | goesOn | vanishes => cases ended

theorem turn_closed (sound : Sound network) (turn : Turn network call action shared fate)
    (stopped : shared.registry.stopped = true) :
    shared.registry.nodes = [] ∧ shared.standing = .running := by
  cases turn with
  | refused | spawnedBuilding | spawnedAdding | addFailed | started | asked | unbuilt | withdrawn
  | removed | stopped | stoppedLast | cleared | clearedLast | cancelled | left | tooLate | lost =>
      exact sound.closed stopped
  | answered running opened | reserved running opened | taken running opened =>
      exact absurd (opened.symm.trans stopped) (by simp)
  | drained running | drainedNone running => exact ⟨rfl, running⟩
  | registered busy opened => exact absurd (opened.symm.trans stopped) (by simp)
  | buildFailed busy | buildFailedAlone busy | built busy | builtLast busy | unbuiltLast busy =>
      have running := (sound.closed stopped).2
      have constructing := (sound.builder _ _ busy trivial).2
      exact absurd (running.symm.trans constructing) (by simp)

theorem ordinary_settled (sound : Sound network) (turn : Turn network call action shared fate)
    (ordinary : OrdinaryTurn network shared fate) {other : CallId} {activity : Activity}
    (busy : (shared.settle call fate).activity? other = some activity) : ¬activity.Builds := by
  intro builds
  rcases settle_activity_cases sound turn busy with ⟨_, own⟩ | ⟨_, new⟩ | ⟨_, old⟩
  · exact ordinary.after _ (.inl own) builds
  · exact ordinary.after _ (.inr new) builds
  · have constructing := (sound.builder _ _ old builds).2
    exact absurd (ordinary.running.symm.trans constructing) (by simp)

theorem building_settled (sound : Sound network) (turn : Turn network call action shared fate)
    (building : BuildingTurn network shared call fate) {other : CallId} {activity : Activity}
    (busy : (shared.settle call fate).activity? other = some activity) :
    other = constructionCall ∧ fate = .goesOn activity := by
  obtain ⟨before, was, built⟩ := building.before
  have constructing := (sound.builder _ _ was built).2
  rcases settle_activity_cases sound turn busy with ⟨rfl, own⟩ | ⟨_, new⟩ | ⟨different, old⟩
  · refine ⟨building.first, ?_⟩
    rcases building.after with ⟨_, rfl, _⟩ | ⟨_, rfl, _⟩
    · rw [Option.some.inj own]
    · cases own
  · rcases building.after with ⟨_, rfl, _⟩ | ⟨_, rfl, _⟩ <;> cases new
  · exact absurd ((sound.alone constructing old).trans building.first.symm) different

theorem turn_tally (sound : Sound network) (turn : Turn network call action shared fate)
    (weight : Activity → Nat) :
    (shared.settle call fate).tally weight + (network.activity? call).elim 0 weight =
      network.tally weight + fate.weigh weight := by
  have distinct : DistinctCalls shared := by
    unfold DistinctCalls
    rw [(turn_table turn).1]
    exact sound.distinct
  have known : KnownCalls shared := by
    intro other activity busy
    rw [turn_activity turn] at busy
    exact Nat.lt_of_lt_of_le (sound.known _ _ busy) (turn_known sound turn).2
  have total := tally_settle distinct known weight call fate
  rw [turn_activity turn] at total
  simpa only [tally, (turn_table turn).1] using total

theorem settled_known (sound : Sound network) (turn : Turn network call action shared fate) :
    KnownCalls (shared.settle call fate) := by
  obtain ⟨known, later⟩ := turn_known sound turn
  intro other activity busy
  rw [settle_nextCall]
  rcases settle_activity_cases sound turn busy with ⟨rfl, _⟩ | ⟨rfl, new⟩ | ⟨_, old⟩
  · exact Nat.lt_of_lt_of_le known (Nat.le_add_right _ _)
  · rw [new]
    exact Nat.lt_succ_self _
  · exact Nat.lt_of_lt_of_le (sound.known _ _ old)
      (Nat.le_trans later (Nat.le_add_right _ _))

theorem Sound.not_over (sound : Sound network) (turn : Turn network call action shared fate) :
    network.outcome? call = none := by
  cases ended : network.outcome? call with
  | none => rfl
  | some outcome =>
      obtain ⟨idle, begun⟩ := sound.finished _ _ ended
      rcases turn_call turn with ⟨_, _, first, _⟩ | ⟨⟨activity, busy⟩, _⟩
      · exact absurd (first ▸ begun) (Nat.lt_irrefl _)
      · exact absurd (idle.symm.trans busy) (by simp)

theorem settled_over (sound : Sound network) (turn : Turn network call action shared fate)
    {other : CallId} {outcome : Outcome}
    (finished : (shared.settle call fate).outcome? other = some outcome) :
    (shared.settle call fate).activity? other = none ∧
      other < (shared.settle call fate).nextCall := by
  obtain ⟨known, later⟩ := turn_known sound turn
  have grown : shared.nextCall ≤ (shared.settle call fate).nextCall := by
    rw [settle_nextCall]
    exact Nat.le_add_right _ _
  by_cases own : other = call
  · subst own
    refine ⟨?_, Nat.lt_of_lt_of_le known grown⟩
    rw [settle_activity_self shared fate known]
    cases ended : fate.outcome? with
    | some last => exact activity_none_of_outcome fate ended
    | none =>
        rw [settle_outcome_none shared other other ended, turn_outcome turn,
          sound.not_over turn] at finished
        cases finished
  · rw [settle_outcome_kept turn own] at finished
    obtain ⟨idle, begun⟩ := sound.finished _ _ finished
    rw [settle_activity_kept sound turn own begun]
    exact ⟨idle, Nat.lt_of_lt_of_le begun (Nat.le_trans later grown)⟩

theorem settled_constructing (sound : Sound network)
    (turn : Turn network call action shared fate) (constructing : shared.standing = .constructing) :
    (shared.settle call fate).nextCall = 1 ∧
      ∃ activity, (shared.settle call fate).activity? constructionCall = some activity ∧
        activity.Builds := by
  rcases turn_ordinary_or_building sound turn with ordinary | building
  · exact absurd (ordinary.standing.symm.trans constructing) (by simp)
  · rcases building.after with ⟨activity, rfl, builds, same, _⟩ | ⟨_, _, decided⟩
    · rw [same] at constructing
      refine ⟨?_, activity, ?_, builds⟩
      · rw [settle_nextCall, building.nextCall]
        exact (sound.constructing constructing).1
      · rw [← building.first, settle_activity_self shared _ (turn_known sound turn).1]
        rfl
    · rcases decided with running | ⟨⟨_, refused⟩, _⟩
      · exact absurd (running.symm.trans constructing) (by simp)
      · exact absurd (refused.symm.trans constructing) (by simp)

theorem settled_refused (sound : Sound network) (turn : Turn network call action shared fate)
    {reason : NetworkError} (refused : shared.standing = .refused reason) :
    Quiescent (shared.settle call fate) ∧ shared.registry.nodes = [] := by
  rcases turn_ordinary_or_building sound turn with ordinary | building
  · exact absurd (ordinary.standing.symm.trans refused) (by simp)
  · obtain ⟨before, was, built⟩ := building.before
    have constructing := (sound.builder _ _ was built).2
    rcases building.after with ⟨_, _, _, same, _⟩ | ⟨outcome, ended, running | ⟨_, emptied⟩⟩
    · exact absurd ((same.trans constructing).symm.trans refused) (by simp)
    · exact absurd (running.symm.trans refused) (by simp)
    · refine ⟨quiescent_of_no_activity fun other => ?_, emptied⟩
      cases busy : (shared.settle call fate).activity? other with
      | none => rfl
      | some activity =>
          have goesOn := (building_settled sound turn building busy).2
          cases ended.symm.trans goesOn

theorem turn_unwatched (sound : Sound network) (turn : Turn network call action shared fate)
    (notRunning : shared.standing ≠ .running) : shared.checks = [] := by
  rcases turn_ordinary_or_building sound turn with ordinary | building
  · exact absurd ordinary.standing notRunning
  · obtain ⟨before, was, built⟩ := building.before
    have constructing := (sound.builder _ _ was built).2
    have none := sound.unwatched (by simp [constructing])
    cases turn with
    | answered running => exact absurd (running.symm.trans constructing) (by simp)
    | _ => exact none

/-- Only a request for the health of a network that is not stopped starts a check. -/
theorem turn_checks (turn : Turn network call action shared fate) :
    ∀ id ∈ shared.checks.map Prod.fst, id ∈ network.checks.map Prod.fst ∨
      id = network.nextCall ∧ shared.nextCall = network.nextCall + 1 ∧
        network.registry.stopped = false := by
  intro id known
  cases turn with
  | answered running opened answer watched =>
      exact (watched id known).symm.imp_right fun new => ⟨new, rfl, opened⟩
  | _ => exact .inl known

theorem sound_settle (sound : Sound network) (turn : Turn network call action shared fate) :
    Sound (shared.settle call fate) where
  distinct := by
    have distinct : DistinctCalls shared := by
      unfold DistinctCalls
      rw [(turn_table turn).1]
      exact sound.distinct
    exact settle_distinct distinct call fate
  known := settled_known sound turn
  begun := by
    rw [settle_nextCall]
    exact Nat.lt_of_lt_of_le sound.begun
      (Nat.le_trans (turn_known sound turn).2 (Nat.le_add_right _ _))
  finished := fun _ _ => settled_over sound turn
  sound := by
    intro other activity busy
    rcases settle_activity_cases sound turn busy with ⟨_, own⟩ | ⟨_, new⟩ | ⟨_, old⟩
    · exact turn_activity_sound turn sound.sound (.inl own)
    · exact turn_activity_sound turn sound.sound (.inr new)
    · exact sound.sound _ _ old
  builder := by
    intro other activity busy builds
    rw [settle_standing]
    rcases turn_ordinary_or_building sound turn with ordinary | building
    · exact absurd builds (ordinary_settled sound turn ordinary busy)
    · obtain ⟨first, rfl⟩ := building_settled sound turn building busy
      obtain ⟨before, was, built⟩ := building.before
      refine ⟨first, ?_⟩
      rcases building.after with ⟨_, _, _, same, _⟩ | ⟨_, ended, _⟩
      · exact same.trans (sound.builder _ _ was built).2
      · cases ended
  constructing := by
    rw [settle_standing]
    exact settled_constructing sound turn
  emptied := by
    intro other nodes reason busy
    rw [settle_registry]
    rcases turn_ordinary_or_building sound turn with ordinary | building
    · exact absurd trivial (ordinary_settled sound turn ordinary busy)
    · obtain ⟨_, rfl⟩ := building_settled sound turn building busy
      rcases building.after with ⟨_, goesOn, _, _, emptied⟩ | ⟨_, ended, _⟩
      · cases goesOn
        exact emptied nodes reason rfl
      · cases ended
  refused := by
    rw [settle_standing, settle_registry]
    exact fun _ => settled_refused sound turn
  closed := by
    rw [settle_standing, settle_registry]
    exact turn_closed sound turn
  watched := by
    intro id known
    rw [settle_checks] at known
    rw [settle_nextCall]
    refine Nat.lt_of_lt_of_le ?_ (Nat.le_add_right _ _)
    rcases turn_checks turn id known with old | ⟨rfl, later, _⟩
    · exact Nat.lt_of_lt_of_le (sound.watched id old) (turn_known sound turn).2
    · rw [later]
      exact Nat.lt_succ_self _
  unwatched := by
    rw [settle_standing, settle_checks]
    exact turn_unwatched sound turn

theorem turn_grows (turn : Turn network call action shared fate) :
    network.happenings <:+ shared.happenings := by
  cases turn with
  | buildFailed busy fails | buildFailedAlone busy fails | addFailed busy fails =>
      cases fails <;> exact List.suffix_cons _ _
  | built | builtLast | started => exact ⟨[_, _], rfl⟩
  | spawnedBuilding | spawnedAdding | unbuilt | unbuiltLast | withdrawn | removed | stopped
  | stoppedLast | cleared | clearedLast => exact List.suffix_cons _ _
  | _ => exact List.suffix_refl _

theorem turn_happenings (turn : Turn network call action shared fate) :
    network.happenings ⊆ shared.happenings :=
  (turn_grows turn).subset

theorem turn_stopped (turn : Turn network call action shared fate)
    (stopped : network.registry.stopped = true) : shared.registry.stopped = true := by
  cases turn <;> first | exact stopped | rfl

theorem move_outcome {next : Network} (sound : Sound network) (move : Move network action next)
    {other : CallId} {outcome : Outcome} (ended : network.outcome? other = some outcome) :
    next.outcome? other = some outcome := by
  cases move with
  | @turn call _ shared fate turn =>
      have different : other ≠ call := by
        rintro rfl
        exact absurd ((sound.not_over turn).symm.trans ended) (by simp)
      rw [settle_outcome_kept turn different]
      exact ended
  | aside | shuffled => exact ended

theorem aside_calls_none (aside : action.IsAside) : action.call? ≠ some call := by
  cases action with
  | cancel | check | dropSignal | pass => simp [Action.call?]
  | _ => exact aside.elim

theorem over_calls_none {next : Network} (sound : Sound network) (move : Move network action next)
    {other : CallId} {outcome : Outcome} (ended : network.outcome? other = some outcome) :
    action.call? ≠ some other := by
  intro goesOn
  cases move with
  | turn turn =>
      cases turn_caller turn goesOn
      exact absurd ((sound.not_over turn).symm.trans ended) (by simp)
  | aside aside => exact aside_calls_none aside goesOn
  | shuffled => cases goesOn

theorem move_grows {next : Network} (move : Move network action next) :
    network.happenings <:+ next.happenings := by
  cases move with
  | turn turn =>
      rw [settle_happenings]
      exact turn_grows turn
  | aside => exact List.suffix_append _ _
  | shuffled => exact List.suffix_refl _

theorem move_happenings {next : Network} (move : Move network action next) :
    network.happenings ⊆ next.happenings :=
  (move_grows move).subset

theorem move_stopped {next : Network} (move : Move network action next)
    (stopped : network.registry.stopped = true) : next.registry.stopped = true := by
  cases move with
  | turn turn =>
      rw [settle_registry]
      exact turn_stopped turn stopped
  | aside | shuffled => exact stopped

theorem running_move {next : Network} (sound : Sound network)
    (running : network.standing = .running) (move : Move network action next) :
    next.standing = .running := by
  cases move with
  | turn turn =>
      rw [settle_standing]
      rcases turn_ordinary_or_building sound turn with ordinary | building
      · exact ordinary.standing
      · obtain ⟨before, busy, builds⟩ := building.before
        exact Standing.noConfusion (running.symm.trans (sound.builder _ _ busy builds).2)
  | aside | shuffled => exact running

theorem move_nextCall {next : Network} (sound : Sound network)
    (move : Move network action next) : network.nextCall ≤ next.nextCall := by
  cases move with
  | turn turn =>
      rw [settle_nextCall]
      exact Nat.le_add_right_of_le (turn_known sound turn).2
  | aside | shuffled => exact Nat.le_refl _

theorem move_call {next : Network} (sound : Sound network) (move : Move network action next)
    {other : CallId} (begun : other < network.nextCall) :
    (∃ shared fate, Turn network other action shared fate ∧ next = shared.settle other fate) ∨
      next.activity? other = network.activity? other ∧ action.call? ≠ some other := by
  cases move with
  | @turn call _ shared fate turn =>
      by_cases own : other = call
      · subst own
        exact .inl ⟨shared, fate, turn, rfl⟩
      · exact .inr ⟨settle_activity_kept sound turn own begun,
          fun goesOn => own (turn_caller turn goesOn)⟩
  | aside aside => exact .inr ⟨rfl, aside_calls_none aside⟩
  | shuffled => exact .inr ⟨rfl, by simp [Action.call?]⟩

/-- A call that has begun and is not in flight never comes back. -/
theorem move_gone {next : Network} (sound : Sound network) (move : Move network action next)
    {other : CallId} (begun : other < network.nextCall) (gone : network.activity? other = none) :
    next.activity? other = none ∧ action.call? ≠ some other := by
  rcases move_call sound move begun with ⟨shared, fate, turn, -⟩ | ⟨kept, silent⟩
  · rcases turn_call turn with ⟨_, _, first, _⟩ | ⟨⟨activity, busy⟩, _⟩
    · exact absurd (first ▸ begun) (Nat.lt_irrefl _)
    · cases gone.symm.trans busy
  · exact ⟨kept.trans gone, silent⟩

theorem move_caller {next : Network} (move : Move network action next) {caller : CallId}
    (goesOn : action.call? = some caller) :
    ∃ activity, network.activity? caller = some activity := by
  cases move with
  | turn turn =>
      cases turn_caller turn goesOn
      rcases turn_call turn with ⟨request, rfl, _⟩ | ⟨busy, _⟩
      · cases goesOn
      · exact busy
  | aside aside => exact absurd goesOn (aside_calls_none aside)
  | shuffled => cases goesOn

end Network

end LocalNet
