import LocalNet.Proofs.Network.Construction

/-!
# How a construction ends

Every construction comes to an end, and the answers alone decide which. Either the config is rejected
and nothing is ever launched, or the first launch that fails leaves no network and no process of it, or
the network runs with one node for each node of its config.
-/

namespace LocalNet

def Answers.answerTo (answers : Answers) (network : Network) :
    Activity → Except ProcessError Unit
  | .building launch _ => launch.spawned.elim (answers.spawn network.nextInstance) answers.start
  | _ => .ok ()

namespace Network

variable {config : NetworkConfig} {health : HealthConfig} {answers : Answers}
variable {configs : List NodeConfig} {history : List (Network × Action)}
variable {network shared next : Network} {call : CallId} {action : Action} {fate : Fate}

theorem move_health (move : Move network action next) : next.health = network.health := by
  cases move with
  | turn turn => cases turn <;> rfl
  | aside | shuffled => rfl

theorem construct_health (config : NetworkConfig) : (construct config).health = config.health := by
  generalize same : construct config = network
  have fresh : Fresh config network := same ▸ fresh_construct config
  cases fresh <;> rfl

theorem reachable_health (reachable : Reachable config network) :
    network.health = config.health :=
  reachable_keeps reachable (fun _ _ _ _ same move => (move_health move).trans same)
    (construct_health config)

theorem stage_construct {accepted : NetworkConfig} {names : NameAllocator}
    (judged : validateNetwork config [] {} = (.ok accepted, names)) (answers : Answers) :
    Stage config.health answers accepted.nodes (construct config) := by
  generalize same : construct config = network
  have fresh : Fresh config network := same ▸ fresh_construct config
  cases fresh with
  | rejected other => cases judged.symm.trans other
  | empty other noNodes =>
      cases judged.symm.trans other
      rw [noNodes]
      exact .running (by simp) rfl rfl rfl rfl (.refl _) rfl
  | begun other nodes =>
      cases judged.symm.trans other
      rw [nodes]
      exact .spawning (List.nil_append _).symm (by simp) rfl rfl (.refl _) rfl

theorem stage_of_trace {accepted : NetworkConfig} {names : NameAllocator}
    (judged : validateNetwork config [] {} = (.ok accepted, names))
    (trace : Trace (construct config) history network)
    (abides : ∀ entry ∈ history, Abides answers entry)
    (early : ∀ entry ∈ history, Sound entry.1 →
      Stage config.health answers accepted.nodes entry.1 → entry.1.standing ≠ .running) :
    Stage config.health answers accepted.nodes network := by
  induction trace with
  | nil => exact stage_construct judged answers
  | @snoc history network next action before step ih =>
      have stage := ih (fun entry member => abides entry (List.mem_append_left _ member))
        (fun entry member => early entry (List.mem_append_left _ member))
      have last : (network, action) ∈ history ++ [(network, action)] :=
        List.mem_append_right _ (List.mem_singleton_self _)
      have reachable := reachable_of_trace before
      have sound := reachable_sound reachable
      exact stage_move sound (reachable_names reachable) (abides _ last)
        (reachable_health reachable) (early _ last sound stage) stage
        (move_of_step sound.one_builder step)

theorem refused_move (sound : Sound network) {reason : NetworkError}
    (refused : network.standing = .refused reason) (move : Move network action next) :
    next.standing = .refused reason ∧ next.happenings = network.happenings := by
  have notRunning : network.standing ≠ .running := by simp [refused]
  cases move with
  | turn turn =>
      obtain ⟨before, busy, -⟩ := (turn_of_construction sound notRunning turn).before
      have idle : network.activities = [] := (sound.refused reason refused).1
      simp [activity?, idle] at busy
  | aside aside watched onlyPolls =>
      obtain rfl := no_polls sound notRunning onlyPolls
      exact ⟨refused, rfl⟩
  | shuffled => exact ⟨refused, rfl⟩

theorem rejected_launches_nothing {reason : ValidationError} {names : NameAllocator}
    (judged : validateNetwork config [] {} = (.error reason, names))
    (reachable : Reachable config network) :
    network.standing = .refused (.validation reason) ∧ network.happenings = [] := by
  refine @reachable_keeps config network
    (fun network => network.standing = .refused (.validation reason) ∧ network.happenings = [])
    reachable ?_ ?_
  · rintro network next action sound ⟨refused, nothing⟩ move
    obtain ⟨stays, same⟩ := refused_move sound refused move
    exact ⟨stays, same.trans nothing⟩
  · generalize same : construct config = network
    have fresh : Fresh config network := same ▸ fresh_construct config
    cases fresh with
    | rejected other =>
        cases judged.symm.trans other
        exact ⟨rfl, rfl⟩
    | empty other | begun other => cases judged.symm.trans other

theorem abides_awaited {activity : Activity}
    (busy : network.activity? call = some activity) (answers : Answers) :
    Abides answers (network, activity.awaited call (answers.answerTo network activity)) := by
  cases activity with
  | building launch rest =>
      cases spawned : launch.spawned with
      | none =>
          have told : (Activity.building launch rest).awaited call
              (answers.answerTo network (.building launch rest)) =
                .spawnReturns call (answers.spawn network.nextInstance) := by
            simp [Activity.awaited, Answers.answerTo, spawned]
          rw [told]
          exact fun _ _ _ => rfl
      | some started =>
          have told : (Activity.building launch rest).awaited call
              (answers.answerTo network (.building launch rest)) =
                .startReturns call (answers.start started) := by
            simp [Activity.awaited, Answers.answerTo, spawned]
          rw [told]
          intro other more instanceId same known
          cases busy.symm.trans same
          cases spawned.symm.trans known
          rfl
  | adding launch =>
      -- It waits for a process of its own, of which the answers say nothing.
      have other : ∀ launch rest, network.activity? call ≠ some (.building launch rest) := by
        simp [busy]
      change Abides answers (network, if launch.spawned.isSome then _ else _)
      split
      · exact fun _ _ _ same => absurd same (other _ _)
      · exact fun _ _ same => absurd same (other _ _)
  | stopping nodes asked cancelled firstError => cases asked <;> cases cancelled <;> trivial
  | committing | withdrawing | removing | unbuilding | clearing => trivial

theorem construction_ends (sound : Sound network) (answers : Answers) :
    ∃ late last, Trace network late last ∧
      (∀ entry ∈ late, Abides answers entry ∧ entry.1.standing = .constructing) ∧
      last.standing ≠ .constructing := by
  induction bound : network.work using Nat.strongRecOn generalizing network with
  | _ bound ih =>
      by_cases constructing : network.standing = .constructing
      · obtain ⟨-, activity, busy, -⟩ := sound.constructing constructing
        obtain ⟨next, step⟩ := awaited_step sound busy (answers.answerTo network activity)
        have less := awaited_work sound step
        have nextSound := sound_move sound (move_of_step sound.one_builder step)
        obtain ⟨late, last, trace, abides, ended⟩ := ih _ (bound ▸ less) nextSound rfl
        refine ⟨_, last, (Trace.nil.snoc step).append trace, ?_, ended⟩
        intro entry member
        rcases List.mem_append.mp member with first | later
        · rw [List.mem_singleton.mp first]
          exact ⟨abides_awaited busy answers, constructing⟩
        · exact abides entry later
      · exact ⟨[], network, .nil, fun _ member => absurd member List.not_mem_nil, constructing⟩

theorem launches_grow (health : HealthConfig) {done all : List NodeConfig}
    (shorter : done <+: all) : launches health done <+: launches health all := by
  obtain ⟨more, rfl⟩ := shorter
  rw [launches, launches, started_nodes_append, List.flatMap_append]
  exact List.prefix_append _ _

theorem launches_within (health : HealthConfig) {configs done rest : List NodeConfig}
    {config : NodeConfig} {index : Nat} (whole : configs = done ++ config :: rest)
    (reached : done.length ≤ index) :
    launches health done <+: launches health (configs.take index) := by
  apply launches_grow
  exact List.prefix_take_iff.mpr ⟨⟨_, whole.symm⟩, reached⟩

theorem spawn_within (health : HealthConfig) {configs done rest : List NodeConfig}
    {config : NodeConfig} {index : Nat} (whole : configs = done ++ config :: rest)
    (before : done.length < index) :
    launches health done ++ [.spawned config []] <+: launches health (configs.take index) := by
  have launched : launches health (done ++ [config]) <+:
      launches health (configs.take index) := by
    apply launches_grow
    refine List.prefix_take_iff.mpr ⟨⟨rest, ?_⟩, ?_⟩
    · rw [whole, List.append_assoc, List.singleton_append]
    · rw [List.length_append, List.length_singleton]
      exact before
  refine List.IsPrefix.trans ?_ launched
  rw [launches_snoc]
  exact (List.prefix_append_right_inj _).mpr ⟨_, rfl⟩

theorem first_fault {done rest : List NodeConfig} {config failing : NodeConfig}
    {fault reason : ProcessError} {index : Nat}
    (clean : ∀ earlier < index, answers.fault? earlier = none)
    (fails : answers.fault? index = some fault)
    (entry : (done ++ config :: rest)[index]? = some failing)
    (cleanHere : ∀ earlier < done.length, answers.fault? earlier = none)
    (failsHere : answers.fault? done.length = some reason) :
    index = done.length ∧ failing = config ∧ fault = reason ∧
      (done ++ config :: rest).take index = done := by
  rcases Nat.lt_trichotomy index done.length with before | rfl | after
  · cases (cleanHere index before).symm.trans fails
  · have same : config = failing := by simpa using entry
    have agree : some fault = some reason := fails.symm.trans failsHere
    refine ⟨rfl, same.symm, Option.some.inj agree, ?_⟩
    simp
  · cases (clean _ after).symm.trans failsHere

structure Undone (health : HealthConfig) (answers : Answers) (configs : List NodeConfig)
    (index : Nat) (config : NodeConfig) (fault : ProcessError) (network : Network) : Prop where
  never : network.standing ≠ .running
  course : ∃ stops, stops.Perm ((startedNodes health (configs.take index)).map stopHappening) ∧
    network.happenings.reverse <+:
      launches health (configs.take index) ++ failure answers config index ++ stops ∧
    (network.standing ≠ .constructing → network.happenings.reverse =
      launches health (configs.take index) ++ failure answers config index ++ stops)
  verdict : network.standing ≠ .constructing →
    network.standing = .refused (.process config.name fault) ∧
    network.outcome? constructionCall = some (.failed (.process config.name fault)) ∧
    network.registry.nodes = []

structure Completed (health : HealthConfig) (configs : List NodeConfig) (network : Network) :
    Prop where
  course : network.happenings.reverse <+: launches health configs
  verdict : network.standing ≠ .constructing →
    network.standing = .running ∧ Quiescent network ∧
    network.outcome? constructionCall = some .done ∧
    network.registry.nodes.Perm (entriesOf (startedNodes health configs)) ∧
    network.happenings.reverse = launches health configs

theorem standing_of_building (sound : Sound network) {launch : Launch} {rest : List NodeConfig}
    (busy : network.activity? constructionCall = some (.building launch rest)) :
    network.standing = .constructing :=
  (sound.builder _ _ busy trivial).2

theorem undone_of_constructing {index : Nat} {config : NodeConfig} {fault : ProcessError}
    (constructing : network.standing = .constructing)
    (course : network.happenings.reverse <+:
      launches health (configs.take index) ++ failure answers config index) :
    Undone health answers configs index config fault network where
  never := by simp [constructing]
  course := ⟨_, .refl _, course.trans (List.prefix_append _ _), absurd constructing⟩
  verdict := absurd constructing

theorem failure_course {index : Nat} {failing : NodeConfig} {fault : ProcessError}
    (sound : Sound network) (stage : Stage health answers configs network)
    (entry : configs[index]? = some failing)
    (clean : ∀ earlier < index, answers.fault? earlier = none)
    (fails : answers.fault? index = some fault) :
    Undone health answers configs index failing fault network := by
  have low : index < configs.length := (List.getElem?_eq_some_iff.mp entry).1
  have reached {done : List NodeConfig}
      (cleanHere : ∀ earlier < done.length, answers.fault? earlier = none) :
      done.length ≤ index := by
    apply Nat.le_of_not_lt
    intro before
    cases (cleanHere index before).symm.trans fails
  cases stage with
  | spawning whole cleanHere busy count nodes happened =>
      apply undone_of_constructing (standing_of_building sound busy)
      rw [happened]
      exact (launches_within health whole (reached cleanHere)).trans (List.prefix_append _ _)
  | @starting done rest config whole cleanHere spawns busy count nodes happened =>
      apply undone_of_constructing (standing_of_building sound busy)
      rw [happened]
      rcases Nat.lt_or_eq_of_le (reached cleanHere) with before | rfl
      · exact (spawn_within health whole before).trans (List.prefix_append _ _)
      · have same : config = failing := by simpa [whole] using entry
        have taken : configs.take done.length = done := by simp [whole]
        rw [taken, same]
        apply (List.prefix_append_right_inj _).mpr
        simp [failure, spawns]
  | @unbuilding done rest config reason stopped left whole cleanHere failsHere busy all happened =>
      subst whole
      obtain ⟨rfl, rfl, rfl, taken⟩ := first_fault clean fails entry cleanHere failsHere
      have constructing := (sound.builder _ _ busy trivial).2
      have begun : network.happenings.reverse <+: launches health done ++
          failure answers failing done.length ++ (stopped ++ left).map stopHappening := by
        rw [happened, List.map_append, ← List.append_assoc]
        exact List.prefix_append _ _
      refine ⟨by simp [constructing], ?_, absurd constructing⟩
      rw [taken]
      exact ⟨_, all.map stopHappening, begun, absurd constructing⟩
  | refused whole cleanHere failsHere standing finished all happened =>
      subst whole
      obtain ⟨rfl, rfl, rfl, taken⟩ := first_fault clean fails entry cleanHere failsHere
      have empty := (sound.refused _ standing).2
      refine ⟨by simp [standing], ?_, fun _ => ⟨standing, finished, empty⟩⟩
      rw [taken]
      exact ⟨_, all.map stopHappening, happened ▸ List.prefix_refl _, fun _ => happened⟩
  | running cleanAll => cases (cleanAll index low).symm.trans fails

theorem success_course (sound : Sound network) (stage : Stage health answers configs network)
    (clean : ∀ index < configs.length, answers.fault? index = none) :
    Completed health configs network := by
  have faultless {done rest : List NodeConfig} {config : NodeConfig} {reason : ProcessError}
      (whole : configs = done ++ config :: rest)
      (fails : answers.fault? done.length = some reason) : False := by
    have low : done.length < configs.length := by simp [whole]
    cases (clean _ low).symm.trans fails
  have all : launches health configs = launches health (configs.take configs.length) := by
    rw [List.take_length]
  cases stage with
  | @spawning done rest config whole cleanHere busy count nodes happened =>
      have low : done.length ≤ configs.length := by simp [whole]
      refine ⟨?_, absurd (standing_of_building sound busy)⟩
      rw [happened, all]
      exact launches_within health whole low
  | @starting done rest config whole cleanHere spawns busy count nodes happened =>
      have low : done.length < configs.length := by simp [whole]
      refine ⟨?_, absurd (standing_of_building sound busy)⟩
      rw [happened, all]
      exact spawn_within health whole low
  | unbuilding whole cleanHere fails => exact (faultless whole fails).elim
  | refused whole cleanHere fails => exact (faultless whole fails).elim
  | running cleanHere standing quiescent finished opened nodes happened =>
      exact ⟨happened ▸ List.prefix_refl _, fun _ => ⟨standing, quiescent, finished, nodes, happened⟩⟩

/-- Construction is all or nothing. A config that is rejected launches nothing. For one that is
accepted, the nodes are launched in its order under names of their own until the first launch fails;
then what was started before is stopped, each node once, and the network is refused with the fault. If
none fails, the network runs with all of its nodes. Either way a construction comes to its end. -/
theorem construction_all_or_nothing (config : NetworkConfig) :
    (∀ reason names, validateNetwork config [] {} = (.error reason, names) →
      ∀ network, Reachable config network →
        network.standing = .refused (.validation reason) ∧ network.happenings = [] ∧
        network.activities = [] ∧ network.registry.nodes = []) ∧
    ∀ accepted names, validateNetwork config [] {} = (.ok accepted, names) →
      List.Forall₂ Resolves config.nodes accepted.nodes ∧
      (accepted.nodes.map NodeConfig.name).Nodup ∧
      ∀ answers history network, Trace (construct config) history network →
        (∀ entry ∈ history, Abides answers entry) →
        (∃ late last, Trace network late last ∧
          (∀ entry ∈ late, Abides answers entry ∧ entry.1.standing = .constructing) ∧
          last.standing ≠ .constructing) ∧
        (∀ index failing fault, accepted.nodes[index]? = some failing →
          (∀ earlier < index, answers.fault? earlier = none) →
          answers.fault? index = some fault →
          Undone config.health answers accepted.nodes index failing fault network) ∧
        ((∀ index < accepted.nodes.length, answers.fault? index = none) →
          (∀ entry ∈ history, entry.1.standing = .constructing) →
          Completed config.health accepted.nodes network) := by
  constructor
  · intro reason names judged network reachable
    obtain ⟨refused, nothing⟩ := rejected_launches_nothing judged reachable
    exact ⟨refused, nothing, (reachable_sound reachable).refused _ refused⟩
  · intro accepted names judged
    obtain ⟨resolves, distinct, -⟩ := validate_batch_ok (validate_network_ok judged).1
    refine ⟨resolves, distinct, ?_⟩
    intro answers history network trace abides
    have sound := reachable_sound (reachable_of_trace trace)
    refine ⟨construction_ends sound answers, ?_, ?_⟩
    · intro index failing fault entry clean fails
      refine failure_course sound ?_ entry clean fails
      apply stage_of_trace judged trace abides
      intro taken _ soundThen stage
      exact (failure_course soundThen stage entry clean fails).never
    · intro clean under
      refine success_course sound ?_ clean
      apply stage_of_trace judged trace abides
      intro taken member _ _
      simp [under taken member]

def pair : NetworkConfig where
  name := "pair"
  nodes := [plainNode "first", plainNode "second"]

def secondFails : Answers where
  spawn _ := .ok ()
  start index := if index = 1 then .error .alreadyStarted else .ok ()

theorem second_fault_stops_first :
    ∃ network, Reachable pair network ∧
      network.standing = .refused (.process "second" .alreadyStarted) ∧
      network.happenings.reverse =
        [.spawned (plainNode "first") [], .started "first" 0,
          .client 0 ⟨localHost, (plainNode "first").httpPort, pair.health.apiRequestTimeoutMs⟩,
          .spawned (plainNode "second") [], .startFailed "second" 1, .stopped "first" 0] := by
  have judged : validateNetwork pair [] {} = (.ok pair, {}) := by rfl
  have accepted := ((construction_all_or_nothing pair).2 pair {} judged).2.2 secondFails
  obtain ⟨⟨late, last, trace, abides, finished⟩, -⟩ :=
    accepted [] _ .nil (fun _ member => absurd member List.not_mem_nil)
  obtain ⟨-, fails, -⟩ := accepted late last trace (fun entry member => (abides entry member).1)
  have undone := fails 1 (plainNode "second") .alreadyStarted rfl (by decide) rfl
  obtain ⟨stops, perm, -, course⟩ := undone.course
  obtain rfl := List.perm_singleton.mp perm
  exact ⟨last, reachable_of_trace trace, (undone.verdict finished).1, course finished⟩

end Network

end LocalNet
