import LocalNet.Proofs.Network.AllOrNothing
import LocalNet.Proofs.Network.LaunchEvents

/-!
# The course of a launch

A launch goes one way: the resolved config and the caller's arguments are spawned, the instance that is
returned is started, its client is made, and then the node is registered. Where it fails it ends. Each
add that is accepted has one such launch, and the construction has them one after the other.
-/

namespace LocalNet.Network

variable {config : NetworkConfig} {network shared next : Network} {call : CallId}
variable {action : Action} {fate : Fate} {history early late : List (Network × Action)}
variable {timeoutMs : Nat} {resolved : NodeConfig} {args : List String} {launch : Launch}
variable {events more : List LaunchEvent}

/-- What may have been done for a launch of a config. -/
inductive LaunchCourse (timeoutMs : Nat) (resolved : NodeConfig) (args : List String) :
    List LaunchEvent → Prop where
  | begun : LaunchCourse timeoutMs resolved args []
  | unspawned (reason : ProcessError) :
    LaunchCourse timeoutMs resolved args [.spawn resolved args (.error reason)]
  | spawned (instanceId : Nat) :
    LaunchCourse timeoutMs resolved args [.spawn resolved args (.ok instanceId)]
  | unstarted (instanceId : Nat) (reason : ProcessError) :
    LaunchCourse timeoutMs resolved args
      [.spawn resolved args (.ok instanceId), .start resolved.name instanceId (.error reason)]
  | started (instanceId : Nat) :
    LaunchCourse timeoutMs resolved args
      [.spawn resolved args (.ok instanceId), .start resolved.name instanceId (.ok ()),
        .client instanceId ⟨"127.0.0.1", resolved.httpPort, timeoutMs⟩]
  | registered (instanceId : Nat) :
    LaunchCourse timeoutMs resolved args
      [.spawn resolved args (.ok instanceId), .start resolved.name instanceId (.ok ()),
        .client instanceId ⟨"127.0.0.1", resolved.httpPort, timeoutMs⟩,
        .register (Node.ofStarted instanceId resolved timeoutMs)]

/-- What was done for the launch of a node that is registered. -/
def completeLaunch (args : List String) (node : Node) : List LaunchEvent :=
  [.spawn node.config args (.ok node.instanceId), .start node.name node.instanceId (.ok ()),
    .client node.instanceId node.client, .register node]

/-- What may have been done for launches that follow one another: each begins when the one before it
is complete. -/
inductive LaunchesInOrder (timeoutMs : Nat) : List NodeConfig → List LaunchEvent → Prop where
  | none {configs : List NodeConfig} : LaunchesInOrder timeoutMs configs []
  | latest {config : NodeConfig} {rest : List NodeConfig} {events : List LaunchEvent}
      (course : LaunchCourse timeoutMs config [] events) :
    LaunchesInOrder timeoutMs (config :: rest) events
  | complete {config : NodeConfig} {rest : List NodeConfig} {events : List LaunchEvent}
      (instanceId : Nat) (later : LaunchesInOrder timeoutMs rest events) :
    LaunchesInOrder timeoutMs (config :: rest)
      (completeLaunch [] (Node.ofStarted instanceId config timeoutMs) ++ events)

/-- A launch that has neither failed nor brought up its process, with what was done for it. -/
inductive Underway (resolved : NodeConfig) (args : List String) :
    Launch → List LaunchEvent → Prop where
  | begun : Underway resolved args (launchOf resolved args) []
  | spawned (instanceId : Nat) :
    Underway resolved args { launchOf resolved args with spawned := some instanceId }
      [.spawn resolved args (.ok instanceId)]

namespace Underway

theorem course (underway : Underway resolved args launch events) :
    LaunchCourse timeoutMs resolved args events := by
  cases underway with
  | begun => exact .begun
  | spawned instanceId => exact .spawned instanceId

theorem spawns (underway : Underway resolved args launch events) {instanceId : Nat}
    (advance : Advance network launch more (.spawned instanceId)) :
    Underway resolved args { launch with spawned := some instanceId } (events ++ more) := by
  cases advance with
  | spawned waiting =>
      cases underway with
      | begun => exact .spawned _
      | spawned => cases waiting

theorem fails (underway : Underway resolved args launch events) {reason : ProcessError}
    (advance : Advance network launch more (.failed reason)) :
    LaunchCourse timeoutMs resolved args (events ++ more) := by
  cases advance with
  | unspawned waiting =>
      cases underway with
      | begun => exact .unspawned reason
      | spawned => cases waiting
  | unstarted spawned =>
      cases underway with
      | begun => cases spawned
      | spawned =>
          cases spawned
          exact .unstarted _ reason

theorem comes_up (underway : Underway resolved args launch events) {node : Node}
    (sameTimeout : network.health.apiRequestTimeoutMs = timeoutMs)
    (advance : Advance network launch more (.up node)) :
    node = Node.ofStarted node.instanceId resolved timeoutMs ∧ launch.config = resolved ∧
      events ++ more = [.spawn resolved args (.ok node.instanceId),
        .start resolved.name node.instanceId (.ok ()), .client node.instanceId node.client] := by
  subst sameTimeout
  cases advance with
  | started spawned =>
      cases underway with
      | begun => cases spawned
      | spawned instanceId =>
          cases spawned
          exact ⟨rfl, rfl, rfl⟩

end Underway

theorem launched_by_turn (own : action.call? = some call) :
    launchedBy call (history ++ [(network, action)]) =
      launchedBy call history ++ launchEvents (network, action) := by
  rw [launched_by_snoc, if_pos own]

theorem launched_by_silent (silent : launchEvents (network, action) = []) :
    launchedBy call (history ++ [(network, action)]) = launchedBy call history := by
  rw [launched_by_snoc, silent, ite_self, List.append_nil]

theorem launched_by_other (other : action.call? ≠ some call) :
    launchedBy call (history ++ [(network, action)]) = launchedBy call history := by
  rw [launched_by_snoc, if_neg other, List.append_nil]

theorem launched_by_unbegun {start : Network} (trace : Trace start history network)
    (sound : Sound start) (unbegun : network.nextCall ≤ call) : launchedBy call history = [] := by
  rw [launchedBy, List.flatMap_eq_nil_iff]
  intro entry member
  apply if_neg
  intro goesOn
  exact Nat.not_le_of_lt (trace_calls_begun trace sound entry member call goesOn) unbegun

theorem settled_idle (sound : Sound network) (turn : Turn network call action shared fate)
    (ended : ∀ activity, fate.activity? = some activity → ¬activity.Launches) :
    ∀ activity, (shared.settle call fate).activity? call = some activity →
      ¬activity.Launches := by
  rw [settle_activity_self shared fate (turn_known sound turn).1]
  exact ended

theorem idle_step (history : List (Network × Action)) (sound : Sound network)
    (begun : call < network.nextCall)
    (idle : ∀ activity, network.activity? call = some activity → ¬activity.Launches)
    (step : network.step? action = some next) :
    (∀ activity, next.activity? call = some activity → ¬activity.Launches) ∧
      launchedBy call (history ++ [(network, action)]) = launchedBy call history := by
  have move := move_of_step sound.one_builder step
  rcases move_call sound move begun with ⟨shared, fate, turn, rfl⟩ | ⟨kept, other⟩
  · refine ⟨settled_idle sound turn ?_, launched_by_silent (no_events_of_turn turn step idle)⟩
    intro activity busy launches
    rcases launching_turn turn busy launches with ⟨_, _, _, _, new, _⟩ | ⟨before, was, launched⟩
    · exact absurd begun (new ▸ Nat.lt_irrefl _)
    · exact idle before was launched
  · rw [kept]
    exact ⟨idle, launched_by_other other⟩

inductive AddLaunch (timeoutMs : Nat) (resolved : NodeConfig) (args : List String)
    (call : CallId) (history : List (Network × Action)) (network : Network) : Prop where
  | launching {launch : Launch} (busy : network.activity? call = some (.adding launch))
      (underway : Underway resolved args launch (launchedBy call history))
  | up {instanceId : Nat}
      (busy : network.activity? call = some
        (.committing resolved.name (.ok (Node.ofStarted instanceId resolved timeoutMs))))
      (done : launchedBy call history =
        [.spawn resolved args (.ok instanceId), .start resolved.name instanceId (.ok ()),
          .client instanceId ⟨"127.0.0.1", resolved.httpPort, timeoutMs⟩])
  | ended (idle : ∀ activity, network.activity? call = some activity → ¬activity.Launches)
      (course : LaunchCourse timeoutMs resolved args (launchedBy call history))

theorem AddLaunch.course (stage : AddLaunch timeoutMs resolved args call history network) :
    LaunchCourse timeoutMs resolved args (launchedBy call history) := by
  cases stage with
  | launching busy underway => exact underway.course
  | up busy done =>
      rw [done]
      exact .started _
  | ended idle course => exact course

theorem add_launch_turn (sound : Sound network)
    (sameTimeout : network.health.apiRequestTimeoutMs = timeoutMs)
    (busy : network.activity? call = some (.adding launch))
    (underway : Underway resolved args launch (launchedBy call history))
    (turn : Turn network call action shared fate)
    (step : network.step? action = some (shared.settle call fate)) :
    AddLaunch timeoutMs resolved args call (history ++ [(network, action)])
      (shared.settle call fate) := by
  have settled := settle_activity_self shared fate (turn_known sound turn).1
  obtain ⟨own, upshot, advance, rfl⟩ := adding_advances sound busy turn step
  have told : launchedBy call (history ++ [(network, action)]) =
      launchedBy call history ++ launchEvents (network, action) := launched_by_turn own
  cases upshot with
  | spawned instanceId =>
      refine .launching settled ?_
      rw [told]
      exact underway.spawns advance
  | failed reason =>
      refine .ended (settled_idle sound turn ?_) ?_
      · simp [Upshot.addFate, Fate.activity?, Activity.Launches]
      · rw [told]
        exact underway.fails advance
  | up node =>
      obtain ⟨made, rfl, done⟩ := underway.comes_up sameTimeout advance
      refine @AddLaunch.up _ _ _ _ _ _ node.instanceId ?_ ?_
      · rw [← made]
        exact settled
      · rw [told, done, made]
        rfl

theorem add_launch_step (sound : Sound network) (begun : call < network.nextCall)
    (sameTimeout : network.health.apiRequestTimeoutMs = timeoutMs)
    (stage : AddLaunch timeoutMs resolved args call history network)
    (step : network.step? action = some next) :
    AddLaunch timeoutMs resolved args call (history ++ [(network, action)]) next := by
  cases stage with
  | ended idle course =>
      obtain ⟨stays, same⟩ := idle_step history sound begun idle step
      refine .ended stays ?_
      rw [same]
      exact course
  | launching busy underway =>
      have move := move_of_step sound.one_builder step
      rcases move_call sound move begun with ⟨shared, fate, turn, rfl⟩ | ⟨kept, other⟩
      · exact add_launch_turn sound sameTimeout busy underway turn step
      · refine .launching (kept.trans busy) ?_
        rw [launched_by_other other]
        exact underway
  | @up instanceId busy done =>
      have move := move_of_step sound.one_builder step
      rcases move_call sound move begun with ⟨shared, fate, turn, rfl⟩ | ⟨kept, other⟩
      · rcases launched_events sound busy turn step with ⟨told, own, rfl⟩ | ⟨silent, rfl⟩
        · refine .ended (settled_idle sound turn (by simp [Fate.activity?])) ?_
          rw [launched_by_turn own, told, done]
          exact .registered instanceId
        · refine .ended (settled_idle sound turn ?_) ?_
          · simp [Fate.activity?, Activity.Launches]
          · rw [launched_by_silent silent, done]
            exact .started instanceId
      · refine .up (kept.trans busy) ?_
        rw [launched_by_other other]
        exact done

theorem reserved_begins {given : NodeConfig}
    (reserved : (network.registry.reserve given).1 = .ok resolved)
    (move : Move network (.begin (.add given args)) next) :
    next.activity? network.nextCall = some (.adding (launchOf resolved args)) := by
  cases move with
  | turn turn =>
      cases turn with
      | refused running refusal =>
          rw [Registry.reserve_of_refusal refusal] at reserved
          cases reserved
      | answered running opened answer => cases answer
      | reserved running opened judged =>
          rw [Registry.reserve_of_judged opened judged] at reserved
          cases reserved
          exact settle_activity_self _ _ (Nat.lt_succ_self _)
      | buildFailed busy fails | buildFailedAlone busy fails | addFailed busy fails =>
          cases fails
  | aside aside => exact aside.elim

theorem add_launch_course {state : Network} {given : NodeConfig}
    (trace : Trace (construct config) history network)
    (begun : (state, .begin (.add given args)) ∈ history)
    (reserved : (state.registry.reserve given).1 = .ok resolved) :
    LaunchCourse config.health.apiRequestTimeoutMs resolved args
      (launchedBy state.nextCall history) := by
  obtain ⟨early, late, rfl⟩ := List.append_of_mem begun
  obtain ⟨before, first, step, rest⟩ := trace.split
  have sound := reachable_sound (reachable_of_trace before)
  have move := move_of_step sound.one_builder step
  have follows := @trace_carries first network late
    (fun later network => state.nextCall < network.nextCall ∧
      AddLaunch config.health.apiRequestTimeoutMs resolved args state.nextCall
        (early ++ (state, .begin (.add given args)) :: later) network)
    rest (sound_move sound move) ?_ ?_
  · exact follows.2.2.course
  · rintro later network next action between sound ⟨known, stage⟩ taken
    have onward := move_nextCall sound (move_of_step sound.one_builder taken)
    have health := reachable_health (reachable_of_trace ((before.snoc step).append between))
    refine ⟨Nat.lt_of_lt_of_le known onward, ?_⟩
    rw [← List.cons_append, ← List.append_assoc]
    exact add_launch_step sound known (congrArg _ health) stage taken
  · have busy := reserved_begins reserved move
    refine ⟨(sound_move sound move).known _ _ busy, .launching busy ?_⟩
    rw [launched_by_other (by simp [Action.call?]),
      launched_by_unbegun before (sound_construct config) (Nat.le_refl _)]
    exact .begun

theorem launches_after {done : List Node} {rest : List NodeConfig}
    (made : ∀ node ∈ done, node = Node.ofStarted node.instanceId node.config timeoutMs)
    (later : LaunchesInOrder timeoutMs rest events) :
    LaunchesInOrder timeoutMs (done.map Node.config ++ rest)
      (done.flatMap (completeLaunch []) ++ events) := by
  induction done with
  | nil => exact later
  | cons node done ih =>
      have following := ih fun other member => made other (List.mem_cons_of_mem _ member)
      rw [List.flatMap_cons, List.append_assoc, made node (List.mem_cons_self ..)]
      exact .complete node.instanceId following

inductive BuildLaunch (timeoutMs : Nat) (configs : List NodeConfig)
    (history : List (Network × Action)) (network : Network) : Prop where
  | launching {done : List Node} {config : NodeConfig} {rest : List NodeConfig} {launch : Launch}
      {latest : List LaunchEvent}
      (whole : configs = done.map Node.config ++ config :: rest)
      (made : ∀ node ∈ done, node = Node.ofStarted node.instanceId node.config timeoutMs)
      (busy : network.activity? constructionCall = some (.building launch rest))
      (told : launchedBy constructionCall history = done.flatMap (completeLaunch []) ++ latest)
      (underway : Underway config [] launch latest)
  | ended
      (idle : ∀ activity, network.activity? constructionCall = some activity →
        ¬activity.Launches)
      (course : LaunchesInOrder timeoutMs configs (launchedBy constructionCall history))

theorem BuildLaunch.course {configs : List NodeConfig}
    (stage : BuildLaunch timeoutMs configs history network) :
    LaunchesInOrder timeoutMs configs (launchedBy constructionCall history) := by
  cases stage with
  | launching whole made busy told underway =>
      rw [whole, told]
      exact launches_after made (.latest underway.course)
  | ended idle course => exact course

/-- A node that comes up in a construction is complete as soon as it is registered. -/
theorem built_complete {configs rest : List NodeConfig} {done : List Node} {first : NodeConfig}
    {latest : List LaunchEvent} {node : Node}
    (sameTimeout : network.health.apiRequestTimeoutMs = timeoutMs)
    (whole : configs = done.map Node.config ++ first :: rest)
    (made : ∀ node ∈ done, node = Node.ofStarted node.instanceId node.config timeoutMs)
    (underway : Underway first [] launch latest)
    (advance : Advance network launch events (.up node)) :
    configs = (done ++ [node]).map Node.config ++ rest ∧
      (∀ built ∈ done ++ [node],
        built = Node.ofStarted built.instanceId built.config timeoutMs) ∧
      done.flatMap (completeLaunch []) ++ ((latest ++ events) ++ [.register node]) =
        (done ++ [node]).flatMap (completeLaunch []) := by
  obtain ⟨built, -, up⟩ := underway.comes_up sameTimeout advance
  have same : node.config = first := by
    rw [built]
    rfl
  refine ⟨?_, ?_, ?_⟩
  · simp [whole, same]
  · intro other member
    rcases List.mem_append.mp member with before | last
    · exact made other before
    · rw [List.mem_singleton.mp last, same]
      exact built
  · rw [up]
    simp [completeLaunch, Node.name, same]

theorem build_launch_turn (sound : Sound network) {configs rest : List NodeConfig}
    {done : List Node} {first : NodeConfig} {latest : List LaunchEvent}
    (sameTimeout : network.health.apiRequestTimeoutMs = timeoutMs)
    (whole : configs = done.map Node.config ++ first :: rest)
    (made : ∀ node ∈ done, node = Node.ofStarted node.instanceId node.config timeoutMs)
    (busy : network.activity? constructionCall = some (.building launch rest))
    (told : launchedBy constructionCall history = done.flatMap (completeLaunch []) ++ latest)
    (underway : Underway first [] launch latest)
    (turn : Turn network constructionCall action shared fate)
    (step : network.step? action = some (shared.settle constructionCall fate)) :
    BuildLaunch timeoutMs configs (history ++ [(network, action)])
      (shared.settle constructionCall fate) := by
  have settled := settle_activity_self shared fate (turn_known sound turn).1
  obtain ⟨own, events, upshot, advance, added, goesOn⟩ := building_advances sound busy turn step
  have grown : launchedBy constructionCall (history ++ [(network, action)]) =
      done.flatMap (completeLaunch []) ++ ((latest ++ events) ++ upshot.registration) := by
    rw [launched_by_turn own, told, added]
    simp only [List.append_assoc]
  cases goesOn with
  | spawned =>
      refine .launching whole made settled grown ?_
      rw [Upshot.registration, List.append_nil]
      exact underway.spawns advance
  | failed ended =>
      refine .ended (settled_idle sound turn ended) ?_
      rw [whole, grown, Upshot.registration, List.append_nil]
      exact launches_after made (.latest (underway.fails advance))
  | following left =>
      obtain ⟨whole, made, complete⟩ := built_complete sameTimeout whole made underway advance
      rw [left] at whole
      refine .launching whole made settled ?_ .begun
      rw [grown, List.append_nil]
      exact complete
  | finished last =>
      obtain ⟨whole, made, complete⟩ := built_complete sameTimeout whole made underway advance
      refine .ended (settled_idle sound turn (by simp [Fate.activity?])) ?_
      have all := launches_after made (@LaunchesInOrder.none timeoutMs rest)
      rw [List.append_nil, ← complete] at all
      rw [whole, grown]
      exact all

theorem build_launch_step (sound : Sound network) {configs : List NodeConfig}
    (sameTimeout : network.health.apiRequestTimeoutMs = timeoutMs)
    (stage : BuildLaunch timeoutMs configs history network)
    (step : network.step? action = some next) :
    BuildLaunch timeoutMs configs (history ++ [(network, action)]) next := by
  have begun : constructionCall < network.nextCall := sound.begun
  cases stage with
  | ended idle course =>
      obtain ⟨stays, same⟩ := idle_step history sound begun idle step
      refine .ended stays ?_
      rw [same]
      exact course
  | launching whole made busy told underway =>
      have move := move_of_step sound.one_builder step
      rcases move_call sound move begun with ⟨shared, fate, turn, rfl⟩ | ⟨kept, other⟩
      · exact build_launch_turn sound sameTimeout whole made busy told underway turn step
      · refine .launching whole made (kept.trans busy) ?_ underway
        rw [launched_by_other other]
        exact told

theorem build_launch_construct {accepted : NetworkConfig} {names : NameAllocator}
    (judged : validateNetwork config [] {} = (.ok accepted, names)) :
    BuildLaunch timeoutMs accepted.nodes [] (construct config) := by
  generalize same : construct config = network
  have fresh : Fresh config network := same ▸ fresh_construct config
  cases fresh with
  | rejected other => cases judged.symm.trans other
  | empty other noNodes => exact .ended (by simp [activity?]) .none
  | begun other nodes =>
      cases judged.symm.trans other
      refine @BuildLaunch.launching _ _ _ _ [] _ _ _ [] nodes (by simp) ?_ rfl .begun
      exact List.lookup_cons_self

theorem build_launch_course {accepted : NetworkConfig} {names : NameAllocator}
    (trace : Trace (construct config) history network)
    (judged : validateNetwork config [] {} = (.ok accepted, names)) :
    LaunchesInOrder config.health.apiRequestTimeoutMs accepted.nodes
      (launchedBy constructionCall history) := by
  have follows := @trace_carries (construct config) network history
    (BuildLaunch config.health.apiRequestTimeoutMs accepted.nodes)
    trace (sound_construct config) ?_ (build_launch_construct judged)
  · exact follows.2.course
  · intro history network next action before sound stage step
    have health := reachable_health (reachable_of_trace before)
    exact build_launch_step sound (congrArg _ health) stage step

end LocalNet.Network
