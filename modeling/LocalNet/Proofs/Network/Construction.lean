import LocalNet.Proofs.Network.Progress
import LocalNet.Proofs.Network.Naming

/-!
# Construction is all or nothing

The nodes of an accepted config are launched one after the other. The first launch that fails decides:
the nodes before it are stopped, once each, and there is no network. If none fails, the network runs
with all of them. What has happened by then is told to the last event by what spawner and processes
answer, up to the order of the stops.
-/

namespace LocalNet

/-- What the spawner and the processes of a construction answer, the nodes counted from zero. -/
structure Answers where
  spawn : Nat → Except ProcessError Unit
  start : Nat → Except ProcessError Unit

def Answers.fault? (answers : Answers) (index : Nat) : Option ProcessError :=
  match answers.spawn index with
  | .error reason => some reason
  | .ok () =>
    match answers.start index with
    | .error reason => some reason
    | .ok () => none

namespace Network

/-- A construction is told in this step what the answers say. -/
def Abides (answers : Answers) : Network × Action → Prop
  | (network, .spawnReturns call answer) =>
    ∀ launch rest, network.activity? call = some (.building launch rest) →
      answer = answers.spawn network.nextInstance
  | (network, .startReturns call answer) =>
    ∀ launch rest instanceId, network.activity? call = some (.building launch rest) →
      launch.spawned = some instanceId → answer = answers.start instanceId
  | _ => True

def startedNodes (health : HealthConfig) (configs : List NodeConfig) : List Node :=
  configs.zipIdx.map fun entry => Node.ofStarted entry.2 entry.1 health.apiRequestTimeoutMs

def launchHappenings (node : Node) : List Happening :=
  [.spawned node.config [], .started node.name node.instanceId,
    .client node.instanceId node.client]

def launches (health : HealthConfig) (configs : List NodeConfig) : List Happening :=
  (startedNodes health configs).flatMap launchHappenings

def failure (answers : Answers) (config : NodeConfig) (index : Nat) : List Happening :=
  match answers.spawn index with
  | .error _ => [.spawned config []]
  | .ok () => [.spawned config [], .startFailed config.name index]

def stopHappening (node : Node) : Happening :=
  .stopped node.name node.instanceId

def entriesOf (nodes : List Node) : List (String × Node) :=
  nodes.map fun node => (node.name, node)

inductive Stage (health : HealthConfig) (answers : Answers) (configs : List NodeConfig)
    (network : Network) : Prop where
  | spawning {done rest : List NodeConfig} {config : NodeConfig}
      (whole : configs = done ++ config :: rest)
      (clean : ∀ index < done.length, answers.fault? index = none)
      (busy : network.activity? constructionCall = some (.building (launchOf config []) rest))
      (count : network.nextInstance = done.length)
      (nodes : network.registry.nodes.Perm (entriesOf (startedNodes health done)))
      (happened : network.happenings.reverse = launches health done)
  | starting {done rest : List NodeConfig} {config : NodeConfig}
      (whole : configs = done ++ config :: rest)
      (clean : ∀ index < done.length, answers.fault? index = none)
      (spawned : answers.spawn done.length = .ok ())
      (busy : network.activity? constructionCall =
        some (.building { launchOf config [] with spawned := some done.length } rest))
      (count : network.nextInstance = done.length + 1)
      (nodes : network.registry.nodes.Perm (entriesOf (startedNodes health done)))
      (happened : network.happenings.reverse = launches health done ++ [.spawned config []])
  | unbuilding {done rest : List NodeConfig} {config : NodeConfig} {fault : ProcessError}
      {stopped left : List Node}
      (whole : configs = done ++ config :: rest)
      (clean : ∀ index < done.length, answers.fault? index = none)
      (fails : answers.fault? done.length = some fault)
      (busy : network.activity? constructionCall =
        some (.unbuilding left (.process config.name fault)))
      (all : (stopped ++ left).Perm (startedNodes health done))
      (happened : network.happenings.reverse =
        launches health done ++ failure answers config done.length ++ stopped.map stopHappening)
  | refused {done rest : List NodeConfig} {config : NodeConfig} {fault : ProcessError}
      {stopped : List Node}
      (whole : configs = done ++ config :: rest)
      (clean : ∀ index < done.length, answers.fault? index = none)
      (fails : answers.fault? done.length = some fault)
      (standing : network.standing = .refused (.process config.name fault))
      (finished : network.outcome? constructionCall = some (.failed (.process config.name fault)))
      (all : stopped.Perm (startedNodes health done))
      (happened : network.happenings.reverse =
        launches health done ++ failure answers config done.length ++ stopped.map stopHappening)
  | running (clean : ∀ index < configs.length, answers.fault? index = none)
      (standing : network.standing = .running) (quiescent : Quiescent network)
      (finished : network.outcome? constructionCall = some .done)
      (opened : network.registry.stopped = false)
      (nodes : network.registry.nodes.Perm (entriesOf (startedNodes health configs)))
      (happened : network.happenings.reverse = launches health configs)

variable {health : HealthConfig} {answers : Answers} {configs : List NodeConfig}
variable {network shared next : Network} {call : CallId} {action : Action} {fate : Fate}

theorem started_nodes_append (health : HealthConfig) (done more : List NodeConfig) :
    startedNodes health (done ++ more) = startedNodes health done ++
      (more.zipIdx done.length).map fun entry =>
        Node.ofStarted entry.2 entry.1 health.apiRequestTimeoutMs := by
  simp [startedNodes, List.zipIdx_append]

theorem started_nodes_snoc (health : HealthConfig) (done : List NodeConfig)
    (config : NodeConfig) :
    startedNodes health (done ++ [config]) =
      startedNodes health done ++ [Node.ofStarted done.length config health.apiRequestTimeoutMs] :=
  started_nodes_append health done [config]

theorem launches_snoc (health : HealthConfig) (done : List NodeConfig) (config : NodeConfig) :
    launches health (done ++ [config]) = launches health done ++
      launchHappenings (Node.ofStarted done.length config health.apiRequestTimeoutMs) := by
  simp [launches, started_nodes_snoc]

theorem entries_of_nodes (nodes : List Node) : (entriesOf nodes).map Prod.snd = nodes := by
  simp [entriesOf, Function.comp_def]

theorem clean_snoc {done : List NodeConfig} (config : NodeConfig)
    (clean : ∀ index < done.length, answers.fault? index = none)
    (last : answers.fault? done.length = none) :
    ∀ index < (done ++ [config]).length, answers.fault? index = none := by
  intro index low
  rw [List.length_append, List.length_singleton] at low
  rcases Nat.lt_or_eq_of_le (Nat.le_of_lt_succ low) with before | rfl
  · exact clean index before
  · exact last

theorem turn_of_construction (sound : Sound network) (notRunning : network.standing ≠ .running)
    (turn : Turn network call action shared fate) :
    BuildingTurn network shared call fate := by
  rcases turn_ordinary_or_building sound turn with ordinary | building
  · exact absurd ordinary.running notRunning
  · exact building

theorem no_polls {polls : List Happening} (sound : Sound network)
    (notRunning : network.standing ≠ .running)
    (onlyPolls : ∀ happening ∈ polls,
      Happening.IsPoll (network.checks.map Prod.fst) happening) : polls = [] := by
  rw [sound.unwatched notRunning] at onlyPolls
  apply List.eq_nil_iff_forall_not_mem.mpr
  intro happening member
  have poll := onlyPolls happening member
  cases happening with
  | polled => exact List.not_mem_nil poll
  | _ => exact poll

theorem quiescent_of_ends (sound : Sound network) (notRunning : network.standing ≠ .running)
    (turn : Turn network call action shared fate) {outcome : Outcome}
    (ends : fate = .ends outcome) : Quiescent (shared.settle call fate) := by
  apply quiescent_of_no_activity
  intro other
  cases busy : (shared.settle call fate).activity? other with
  | none => rfl
  | some activity =>
      have building := turn_of_construction sound notRunning turn
      have goesOn := (building_settled sound turn building busy).2
      cases ends.symm.trans goesOn

/-- What a turn does to a launch of the construction. -/
inductive LaunchTurn (network : Network) (launch : Launch) (rest : List NodeConfig)
    (action : Action) (shared : Network) (fate : Fate) : Prop where
  | spawned (waiting : launch.spawned = none)
      (told : action = .spawnReturns constructionCall (.ok ()))
      (goesOn : fate =
        .goesOn (.building { launch with spawned := some network.nextInstance } rest))
      (count : shared.nextInstance = network.nextInstance + 1)
      (registry : shared.registry = network.registry)
      (happened : shared.happenings =
        .spawned launch.config launch.args :: network.happenings)
  | failed {fault : ProcessError} {nextInstance : Nat}
      (fails : LaunchFails network constructionCall launch action fault nextInstance
        shared.happenings)
      (ends : fate = .goesOn (.unbuilding (network.registry.nodes.map Prod.snd)
          (processFault launch.config.name fault)) ∨
        network.registry.nodes = [] ∧
          fate = .ends (.failed (processFault launch.config.name fault)) ∧
          shared.standing = .refused (processFault launch.config.name fault))
  | started {instanceId : Nat} (spawned : launch.spawned = some instanceId)
      (told : action = .startReturns constructionCall (.ok ()))
      (count : shared.nextInstance = network.nextInstance)
      (registry : shared.registry = network.registry.insert launch.config.name
        (network.nodeOf launch instanceId))
      (happened : shared.happenings = network.startedHappenings launch instanceId)
      (onward : (∃ config more, rest = config :: more ∧
          fate = .goesOn (.building (launchOf config []) more)) ∨
        rest = [] ∧ fate = .ends .done ∧ shared.standing = .running)

theorem turn_of_launch (sound : Sound network) {launch : Launch} {rest : List NodeConfig}
    (busy : network.activity? constructionCall = some (.building launch rest))
    (turn : Turn network constructionCall action shared fate) :
    LaunchTurn network launch rest action shared fate := by
  obtain ⟨begun, only⟩ := turn_goes_on sound busy
  clear busy
  generalize first : constructionCall = call at *
  cases turn with
  | refused | answered | reserved | taken | drained | drainedNone => exact absurd rfl begun
  | spawnedBuilding same waiting =>
      cases only _ same
      exact .spawned waiting rfl rfl rfl rfl rfl
  | buildFailed same fails =>
      cases only _ same
      exact .failed fails (.inl rfl)
  | buildFailedAlone same fails none =>
      cases only _ same
      exact .failed fails (.inr ⟨none, rfl, rfl⟩)
  | built same spawned =>
      cases only _ same
      exact .started spawned rfl rfl rfl rfl (.inl ⟨_, _, rfl, rfl⟩)
  | builtLast same spawned =>
      cases only _ same
      exact .started spawned rfl rfl rfl rfl (.inr ⟨rfl, rfl, rfl⟩)
  | _ =>
      have clash := only _ ‹network.activity? _ = some _›
      cases clash

theorem turn_of_unbuilding (sound : Sound network) {nodes : List Node} {reason : NetworkError}
    (busy : network.activity? constructionCall = some (.unbuilding nodes reason))
    (turn : Turn network constructionCall action shared fate) :
    ∃ node rest, nodes = node :: rest ∧ shared.happenings = network.stoppedHappenings node ∧
      (fate = .goesOn (.unbuilding rest reason) ∨
        rest = [] ∧ fate = .ends (.failed reason) ∧ shared.standing = .refused reason) := by
  obtain ⟨begun, only⟩ := turn_goes_on sound busy
  clear busy
  generalize first : constructionCall = call at *
  cases turn with
  | refused | answered | reserved | taken | drained | drainedNone => exact absurd rfl begun
  | unbuilt same =>
      cases only _ same
      exact ⟨_, _, rfl, rfl, .inl rfl⟩
  | unbuiltLast same =>
      cases only _ same
      exact ⟨_, _, rfl, rfl, .inr ⟨rfl, rfl, rfl⟩⟩
  | _ =>
      have clash := only _ ‹network.activity? _ = some _›
      cases clash

/-- What a launch that fails in accordance with the answers has made happen. -/
theorem launch_failure {done : List NodeConfig} {launch : Launch} {rest : List NodeConfig}
    {reason : ProcessError} {nextInstance : Nat} {happenings : List Happening}
    (abides : Abides answers (network, action))
    (busy : network.activity? constructionCall = some (.building launch rest))
    (waits : launch.spawned = none ∧ launch.args = [] ∧ network.nextInstance = done.length ∧
        network.happenings.reverse = launches health done ∨
      launch.spawned = some done.length ∧ answers.spawn done.length = .ok () ∧
        network.happenings.reverse =
          launches health done ++ [.spawned launch.config []])
    (fails : LaunchFails network constructionCall launch action reason nextInstance happenings) :
    answers.fault? done.length = some reason ∧
      happenings.reverse =
        launches health done ++ failure answers launch.config done.length := by
  cases fails with
  | spawn waiting =>
      have told := abides launch rest busy
      rcases waits with ⟨-, noArgs, count, happened⟩ | ⟨spawned, -⟩
      · rw [count] at told
        simp [Answers.fault?, failure, ← told, noArgs, happened]
      · cases waiting.symm.trans spawned
  | start spawned =>
      rcases waits with ⟨waiting, -⟩ | ⟨same, spawns, happened⟩
      · cases waiting.symm.trans spawned
      · cases spawned.symm.trans same
        have told := abides launch rest _ busy spawned
        simp [Answers.fault?, failure, spawns, ← told, happened]

/-- A failed launch leads to the stop of what has been started, or at once to the refusal. -/
theorem stage_of_failed {done rest : List NodeConfig} {config : NodeConfig}
    {fault : ProcessError} (sound : Sound network)
    (turn : Turn network constructionCall action shared fate)
    (whole : configs = done ++ config :: rest)
    (clean : ∀ index < done.length, answers.fault? index = none)
    (nodes : network.registry.nodes.Perm (entriesOf (startedNodes health done)))
    (fails : answers.fault? done.length = some fault)
    (happened : shared.happenings.reverse =
      launches health done ++ failure answers config done.length)
    (ends : fate = .goesOn (.unbuilding (network.registry.nodes.map Prod.snd)
        (processFault config.name fault)) ∨
      network.registry.nodes = [] ∧ fate = .ends (.failed (processFault config.name fault)) ∧
        shared.standing = .refused (processFault config.name fault)) :
    Stage health answers configs (shared.settle constructionCall fate) := by
  have handedOver : (network.registry.nodes.map Prod.snd).Perm (startedNodes health done) := by
    have moved := nodes.map Prod.snd
    rwa [entries_of_nodes] at moved
  have history : (shared.settle constructionCall fate).happenings.reverse =
      launches health done ++ failure answers config done.length ++
        List.map stopHappening [] := by
    rw [settle_happenings, happened, List.map_nil, List.append_nil]
  rcases ends with rfl | ⟨none, rfl, standing⟩
  · refine .unbuilding whole clean fails ?_ (by simpa using handedOver) history
    rw [settle_activity_self _ _ (turn_known sound turn).1]
    rfl
  · refine .refused whole clean fails ?_ (settle_outcome_self _ _ rfl) ?_ history
    · rw [settle_standing]
      exact standing
    · rw [none] at handedOver
      exact handedOver

theorem stage_of_spawning {done rest : List NodeConfig} {config : NodeConfig}
    (sound : Sound network) (abides : Abides answers (network, action))
    (turn : Turn network constructionCall action shared fate)
    (whole : configs = done ++ config :: rest)
    (clean : ∀ index < done.length, answers.fault? index = none)
    (busy : network.activity? constructionCall = some (.building (launchOf config []) rest))
    (count : network.nextInstance = done.length)
    (nodes : network.registry.nodes.Perm (entriesOf (startedNodes health done)))
    (happened : network.happenings.reverse = launches health done) :
    Stage health answers configs (shared.settle constructionCall fate) := by
  cases turn_of_launch sound busy turn with
  | spawned waiting told goesOn later registry spawning =>
      subst told
      have spawns := abides _ _ busy
      rw [count] at spawns goesOn later
      refine .starting whole clean spawns.symm ?_ ?_ ?_ ?_
      · rw [settle_activity_self _ _ (turn_known sound turn).1, goesOn]
        rfl
      · rw [settle_nextInstance, later]
      · rw [settle_registry, registry]
        exact nodes
      · rw [settle_happenings, spawning, List.reverse_cons, happened]
        rfl
  | failed fails ends =>
      obtain ⟨faulty, told⟩ := launch_failure abides busy
        (.inl ⟨rfl, rfl, count, happened⟩) fails
      exact stage_of_failed sound turn whole clean nodes faulty told ends
  | started spawned => cases spawned

theorem started_launch_happenings {done : List NodeConfig} {config : NodeConfig}
    (sameHealth : network.health = health)
    (happened : network.happenings.reverse = launches health done ++ [.spawned config []]) :
    (network.startedHappenings { launchOf config [] with spawned := some done.length }
      done.length).reverse = launches health (done ++ [config]) := by
  subst sameHealth
  simp [startedHappenings, happened, launches_snoc, launchHappenings, nodeOf, Node.ofStarted,
    launchOf, Node.name]

theorem stage_of_starting {done rest : List NodeConfig} {config : NodeConfig}
    (sound : Sound network) (names : NamesSound network)
    (abides : Abides answers (network, action)) (sameHealth : network.health = health)
    (turn : Turn network constructionCall action shared fate)
    (whole : configs = done ++ config :: rest)
    (clean : ∀ index < done.length, answers.fault? index = none)
    (spawns : answers.spawn done.length = .ok ())
    (busy : network.activity? constructionCall =
      some (.building { launchOf config [] with spawned := some done.length } rest))
    (count : network.nextInstance = done.length + 1)
    (nodes : network.registry.nodes.Perm (entriesOf (startedNodes health done)))
    (happened : network.happenings.reverse = launches health done ++ [.spawned config []]) :
    Stage health answers configs (shared.settle constructionCall fate) := by
  cases turn_of_launch sound busy turn with
  | spawned waiting => cases waiting
  | failed fails ends =>
      obtain ⟨faulty, told⟩ := launch_failure abides busy (.inr ⟨rfl, spawns, happened⟩) fails
      exact stage_of_failed sound turn whole clean nodes faulty told ends
  | started spawned told kept registry starting onward =>
      cases spawned
      subst told
      have starts := abides _ _ _ busy rfl
      have faultless : answers.fault? done.length = none := by
        simp [Answers.fault?, spawns, ← starts]
      have cleaner := clean_snoc config clean faultless
      have wholeNext : configs = (done ++ [config]) ++ rest := by simpa using whole
      have nodesNext : (shared.settle constructionCall fate).registry.nodes.Perm
          (entriesOf (startedNodes health (done ++ [config]))) := by
        rw [settle_registry, registry, Registry.insert_fresh (usable_of_building names busy).free,
          started_nodes_snoc, entriesOf, List.map_append]
        subst sameHealth
        exact nodes.append_right _
      have happenedNext : (shared.settle constructionCall fate).happenings.reverse =
          launches health (done ++ [config]) := by
        rw [settle_happenings, starting]
        exact started_launch_happenings sameHealth happened
      rcases onward with ⟨later, more, rfl, goesOn⟩ | ⟨rfl, ends, standing⟩
      · refine .spawning wholeNext cleaner ?_ ?_ nodesNext happenedNext
        · rw [settle_activity_self _ _ (turn_known sound turn).1, goesOn]
          rfl
        · rw [settle_nextInstance, kept, count]
          simp
      · rw [List.append_nil] at wholeNext
        subst wholeNext
        have constructing := (sound.builder _ _ busy trivial).2
        have notRunning : network.standing ≠ .running := by simp [constructing]
        refine .running cleaner ?_ (quiescent_of_ends sound notRunning turn ends)
          (settle_outcome_self _ _ (by rw [ends]; rfl)) ?_ nodesNext happenedNext
        · rw [settle_standing]
          exact standing
        · rw [settle_registry, registry]
          cases stopped : network.registry.stopped with
          | false => exact stopped
          | true => exact absurd (sound.closed stopped).2 notRunning

theorem stage_of_unbuilding {done rest : List NodeConfig} {config : NodeConfig}
    {fault : ProcessError} {stopped left : List Node} (sound : Sound network)
    (turn : Turn network constructionCall action shared fate)
    (whole : configs = done ++ config :: rest)
    (clean : ∀ index < done.length, answers.fault? index = none)
    (fails : answers.fault? done.length = some fault)
    (busy : network.activity? constructionCall =
      some (.unbuilding left (.process config.name fault)))
    (all : (stopped ++ left).Perm (startedNodes health done))
    (happened : network.happenings.reverse =
      launches health done ++ failure answers config done.length ++ stopped.map stopHappening) :
    Stage health answers configs (shared.settle constructionCall fate) := by
  obtain ⟨node, others, rfl, stops, ends⟩ := turn_of_unbuilding sound busy turn
  have allNext : (stopped ++ [node] ++ others).Perm (startedNodes health done) := by
    simpa using all
  have happenedNext : (shared.settle constructionCall fate).happenings.reverse =
      launches health done ++ failure answers config done.length ++
        (stopped ++ [node]).map stopHappening := by
    rw [settle_happenings, stops, stoppedHappenings, List.reverse_cons, happened]
    simp [stopHappening]
  rcases ends with rfl | ⟨rfl, rfl, standing⟩
  · refine .unbuilding whole clean fails ?_ allNext happenedNext
    rw [settle_activity_self _ _ (turn_known sound turn).1]
    rfl
  · refine .refused whole clean fails ?_ (settle_outcome_self _ _ rfl) ?_ happenedNext
    · rw [settle_standing]
      exact standing
    · simpa using allNext

theorem stage_turn (sound : Sound network) (names : NamesSound network)
    (abides : Abides answers (network, action)) (sameHealth : network.health = health)
    (notRunning : network.standing ≠ .running) (stage : Stage health answers configs network)
    (turn : Turn network call action shared fate) :
    Stage health answers configs (shared.settle call fate) := by
  have building := turn_of_construction sound notRunning turn
  obtain rfl := building.first
  cases stage with
  | spawning whole clean busy count nodes happened =>
      exact stage_of_spawning sound abides turn whole clean busy count nodes happened
  | starting whole clean spawns busy count nodes happened =>
      exact stage_of_starting sound names abides sameHealth turn whole clean spawns busy count
        nodes happened
  | unbuilding whole clean fails busy all happened =>
      exact stage_of_unbuilding sound turn whole clean fails busy all happened
  | refused whole clean fails standing =>
      -- Nothing is in flight any more that could take a turn.
      obtain ⟨before, busy, -⟩ := building.before
      have idle : network.activities = [] := (sound.refused _ standing).1
      simp [activity?, idle] at busy
  | running clean standing => exact absurd standing notRunning

theorem stage_move (sound : Sound network) (names : NamesSound network)
    (abides : Abides answers (network, action)) (sameHealth : network.health = health)
    (notRunning : network.standing ≠ .running) (stage : Stage health answers configs network)
    (move : Move network action next) : Stage health answers configs next := by
  cases move with
  | turn turn => exact stage_turn sound names abides sameHealth notRunning stage turn
  | aside aside watched onlyPolls =>
      obtain rfl := no_polls sound notRunning onlyPolls
      cases stage with
      | spawning whole clean busy count nodes happened =>
          exact .spawning whole clean busy count nodes happened
      | starting whole clean spawns busy count nodes happened =>
          exact .starting whole clean spawns busy count nodes happened
      | unbuilding whole clean fails busy all happened =>
          exact .unbuilding whole clean fails busy all happened
      | refused whole clean fails standing finished all happened =>
          exact .refused whole clean fails standing finished all happened
      | running clean standing => exact absurd standing notRunning
  | shuffled same =>
      cases stage with
      | spawning whole clean busy count nodes happened =>
          exact .spawning whole clean busy count (same.trans nodes) happened
      | starting whole clean spawns busy count nodes happened =>
          exact .starting whole clean spawns busy count (same.trans nodes) happened
      | unbuilding whole clean fails busy all happened =>
          exact .unbuilding whole clean fails busy all happened
      | refused whole clean fails standing finished all happened =>
          exact .refused whole clean fails standing finished all happened
      | running clean standing => exact absurd standing notRunning

end Network

end LocalNet
