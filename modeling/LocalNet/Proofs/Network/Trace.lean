import LocalNet.Proofs.Network.Sound

/-!
# Traces

A trace is a run of a network with every state on its way. What every move keeps holds all along a
trace, and every state that a network can come to lies at the end of a trace from its construction.
-/

namespace LocalNet.Network

/-- A network as it is made, before its first step. -/
inductive Fresh (config : NetworkConfig) : Network → Prop where
  | rejected {reason : ValidationError} {names : NameAllocator} {log : List Log.Event}
      (judged : validateNetwork config [] {} = (.error reason, names)) :
    Fresh config
      { name := config.name, health := config.health, standing := .refused (.validation reason),
        registry := { names := names }, nextCall := 1, log := log }
  | empty {accepted : NetworkConfig} {names : NameAllocator} {log : List Log.Event}
      (judged : validateNetwork config [] {} = (.ok accepted, names))
      (noNodes : accepted.nodes = []) :
    Fresh config
      { name := config.name, health := config.health, standing := .running,
        registry := { names := names }, nextCall := 1, log := log,
        outcomes := [(constructionCall, .done)] }
  | begun {accepted : NetworkConfig} {names : NameAllocator} {first : NodeConfig}
      {rest : List NodeConfig} {log : List Log.Event}
      (judged : validateNetwork config [] {} = (.ok accepted, names))
      (nodes : accepted.nodes = first :: rest) :
    Fresh config
      { name := config.name, health := config.health, standing := .constructing,
        registry := { names := names }, nextCall := 1, log := log,
        activities := [(constructionCall, .building (launchOf first []) rest)] }

theorem lookup_single {Value : Type} {key call : CallId} {value found : Value}
    (busy : List.lookup call [(key, value)] = some found) : call = key ∧ value = found := by
  by_cases same : call = key
  · refine ⟨same, ?_⟩
    simpa [same] using busy
  · have skipped : (call == key) = false := by simpa using same
    simp [List.lookup_cons, skipped] at busy

theorem fresh_construct (config : NetworkConfig) : Fresh config (construct config) := by
  unfold construct
  cases judged : validateNetwork config [] {} with
  | mk verdict names =>
      cases verdict with
      | error reason => exact .rejected judged
      | ok accepted =>
          cases nodes : accepted.nodes with
          | nil =>
              simp only [nodes]
              exact .empty judged nodes
          | cons first rest =>
              simp only [nodes]
              exact .begun judged nodes

structure Untouched (network : Network) : Prop where
  happenings : network.happenings = []
  nodes : network.registry.nodes = []
  pending : network.registry.pending = []
  opened : network.registry.stopped = false

theorem untouched_construct (config : NetworkConfig) : Untouched (construct config) := by
  generalize same : construct config = network
  have fresh : Fresh config network := same ▸ fresh_construct config
  cases fresh <;> exact ⟨rfl, rfl, rfl, rfl⟩

theorem sound_of_idle {network : Network} (idle : network.activities = [])
    (bare : network.registry.nodes = []) (opened : network.registry.stopped = false)
    (unwatched : network.checks = []) (begun : 0 < network.nextCall)
    (decided : network.standing ≠ .constructing)
    (told : ∀ call outcome, network.outcome? call = some outcome → call < network.nextCall) :
    Sound network := by
  have quiet (call : CallId) : network.activity? call = none := by
    simp only [activity?, idle, List.lookup_nil]
  exact
    { distinct := by simp [DistinctCalls, idle]
      known := fun call activity busy => by simp [quiet] at busy
      begun := begun
      finished := fun call outcome ended => ⟨quiet call, told call outcome ended⟩
      sound := fun call activity busy => by simp [quiet] at busy
      builder := fun call activity busy => by simp [quiet] at busy
      constructing := fun constructing => absurd constructing decided
      emptied := fun _ _ _ _ => bare
      refused := fun _ _ => ⟨idle, bare⟩
      closed := fun stopped => by simp [opened] at stopped
      watched := by simp [unwatched]
      unwatched := fun _ => unwatched }

theorem sound_construct (config : NetworkConfig) : Sound (construct config) := by
  generalize same : construct config = network
  have fresh : Fresh config network := same ▸ fresh_construct config
  cases fresh with
  | rejected judged =>
      apply sound_of_idle rfl rfl rfl rfl Nat.zero_lt_one Standing.noConfusion
      intro call outcome ended
      cases ended
  | empty judged =>
      apply sound_of_idle rfl rfl rfl rfl Nat.zero_lt_one Standing.noConfusion
      intro call outcome ended
      obtain ⟨rfl, _⟩ := lookup_single ended
      exact Nat.zero_lt_one
  | begun judged =>
      exact
        { distinct := by simp [DistinctCalls]
          known := by
            intro call activity busy
            obtain ⟨rfl, _⟩ := lookup_single busy
            exact Nat.zero_lt_one
          begun := Nat.zero_lt_one
          finished := by simp [outcome?]
          sound := by
            intro call activity busy
            obtain ⟨_, rfl⟩ := lookup_single busy
            rfl
          builder := fun _ _ busy _ => ⟨(lookup_single busy).1, rfl⟩
          constructing := fun _ => ⟨rfl, _, List.lookup_cons_self, trivial⟩
          emptied := fun _ _ _ _ => rfl
          refused := by simp
          closed := by simp
          watched := by simp
          unwatched := fun _ => rfl }

theorem sound_move {network next : Network} {action : Action} (sound : Sound network)
    (move : Move network action next) : Sound next := by
  cases move with
  | turn turn => exact sound_settle sound turn
  | aside aside watched =>
      refine ⟨sound.1, sound.2, sound.3, sound.4, sound.5, sound.6, sound.7, sound.8, sound.9,
        sound.10, fun id known => sound.watched id (watched ▸ known), fun notRunning => ?_⟩
      rw [sound.unwatched notRunning] at watched
      exact List.map_eq_nil_iff.mp watched
  | @shuffled nodes same =>
      have emptied (empty : network.registry.nodes = []) : nodes = [] := by
        rw [empty] at same
        exact same.eq_nil
      exact
        { distinct := sound.distinct
          known := sound.known
          begun := sound.begun
          finished := sound.finished
          sound := sound.sound
          builder := sound.builder
          constructing := sound.constructing
          emptied := fun call nodes reason busy => emptied (sound.emptied call nodes reason busy)
          refused := fun reason refused =>
            ⟨(sound.refused reason refused).1, emptied (sound.refused reason refused).2⟩
          closed := fun stopped =>
            ⟨emptied (sound.closed stopped).1, (sound.closed stopped).2⟩
          watched := sound.watched
          unwatched := sound.unwatched }

/-- A run, with the state in which each of its steps was taken. -/
inductive Trace (start : Network) : List (Network × Action) → Network → Prop where
  | nil : Trace start [] start
  | snoc {history : List (Network × Action)} {network next : Network} {action : Action}
      (before : Trace start history network) (step : network.step? action = some next) :
    Trace start (history ++ [(network, action)]) next

theorem Trace.append {start middle last : Network} {early late : List (Network × Action)}
    (first : Trace start early middle) (second : Trace middle late last) :
    Trace start (early ++ late) last := by
  induction second with
  | nil => simpa using first
  | snoc before step ih =>
      rw [← List.append_assoc]
      exact .snoc ih step

theorem Trace.split {start last : Network} {early late : List (Network × Action)}
    {network : Network} {action : Action}
    (trace : Trace start (early ++ (network, action) :: late) last) :
    Trace start early network ∧
      ∃ next, network.step? action = some next ∧ Trace next late last := by
  generalize whole : early ++ (network, action) :: late = history at trace
  induction trace generalizing late with
  | nil => simp at whole
  | @snoc history state next other before step ih =>
      rcases List.eq_nil_or_concat late with rfl | ⟨front, final, rfl⟩
      · obtain ⟨rfl, same⟩ := List.append_inj' whole rfl
        simp only [List.cons.injEq, Prod.mk.injEq, and_true] at same
        obtain ⟨rfl, rfl⟩ := same
        exact ⟨before, next, step, .nil⟩
      · rw [List.concat_eq_append, ← List.cons_append, ← List.append_assoc] at whole
        obtain ⟨shorter, same⟩ := List.append_inj' whole rfl
        obtain rfl : final = (state, other) := by simpa using same
        obtain ⟨first, middle, taken, rest⟩ := ih shorter
        refine ⟨first, middle, taken, ?_⟩
        rw [List.concat_eq_append]
        exact .snoc rest step

theorem trace_of_reachable {config : NetworkConfig} {network : Network}
    (reachable : Reachable config network) :
    ∃ history, Trace (construct config) history network := by
  induction reachable with
  | constructed => exact ⟨[], .nil⟩
  | step action _ step ih =>
      obtain ⟨history, trace⟩ := ih
      exact ⟨_, .snoc trace step⟩

theorem reachable_of_trace {config : NetworkConfig} {history : List (Network × Action)}
    {network : Network} (trace : Trace (construct config) history network) :
    Reachable config network := by
  induction trace with
  | nil => exact .constructed
  | snoc _ step ih => exact .step _ ih step

theorem reachable_of_mem {config : NetworkConfig} {history : List (Network × Action)}
    {network : Network} {entry : Network × Action}
    (trace : Trace (construct config) history network) (taken : entry ∈ history) :
    Reachable config entry.1 := by
  obtain ⟨early, late, rfl⟩ := List.append_of_mem taken
  exact reachable_of_trace trace.split.1

/-- What every step carries on, together with the history that it adds to, holds all along a trace. -/
theorem trace_carries {start network : Network} {history : List (Network × Action)}
    {Holds : List (Network × Action) → Network → Prop} (trace : Trace start history network)
    (sound : Sound start)
    (carries : ∀ history network next action, Trace start history network → Sound network →
      Holds history network → network.step? action = some next →
      Holds (history ++ [(network, action)]) next)
    (holds : Holds [] start) : Sound network ∧ Holds history network := by
  induction trace with
  | nil => exact ⟨sound, holds⟩
  | @snoc history network next action before step ih =>
      have move := move_of_step ih.1.one_builder step
      exact ⟨sound_move ih.1 move, carries history network next action before ih.1 ih.2 step⟩

theorem trace_follows {start network : Network} {history : List (Network × Action)}
    {Holds : List (Network × Action) → Network → Prop} (trace : Trace start history network)
    (sound : Sound start)
    (follows : ∀ history network next action, Trace start history network → Sound network →
      Holds history network → Move network action next →
      Holds (history ++ [(network, action)]) next)
    (holds : Holds [] start) : Sound network ∧ Holds history network := by
  refine trace_carries trace sound ?_ holds
  intro history network next action before sound holds step
  exact follows history network next action before sound holds
    (move_of_step sound.one_builder step)

theorem trace_keeps {start network : Network} {history : List (Network × Action)}
    {Holds : Network → Prop} (trace : Trace start history network) (sound : Sound start)
    (keeps : ∀ network next action, Sound network → Holds network →
      Move network action next → Holds next)
    (holds : Holds start) : Sound network ∧ Holds network :=
  @trace_follows start network history (fun _ => Holds) trace sound
    (fun _ network next action _ sound holds move => keeps network next action sound holds move)
    holds

theorem trace_sound {start network : Network} {history : List (Network × Action)}
    (trace : Trace start history network) (sound : Sound start) : Sound network :=
  (@trace_keeps start network history (fun _ => True) trace sound (fun _ _ _ _ _ _ => trivial)
    trivial).1

theorem trace_outcome {start network : Network} {history : List (Network × Action)}
    (trace : Trace start history network) (sound : Sound start) {call : CallId} {outcome : Outcome}
    (ended : start.outcome? call = some outcome) : network.outcome? call = some outcome :=
  (trace_keeps trace sound (fun _ _ _ sound ended move => move_outcome sound move ended) ended).2

theorem trace_happenings {start network : Network} {history : List (Network × Action)}
    (trace : Trace start history network) (sound : Sound start) :
    start.happenings ⊆ network.happenings := by
  have kept := @trace_keeps start network history
    (fun network => start.happenings ⊆ network.happenings) trace sound ?_ (List.Subset.refl _)
  · exact kept.2
  · intro network next action _ earlier move
    exact List.Subset.trans earlier (move_happenings move)

theorem trace_calls_begun {start network : Network} {history : List (Network × Action)}
    (trace : Trace start history network) (sound : Sound start) :
    ∀ entry ∈ history, ∀ call, entry.2.call? = some call → call < network.nextCall := by
  have follows := @trace_follows start network history
    (fun history network =>
      ∀ entry ∈ history, ∀ call, entry.2.call? = some call → call < network.nextCall)
    trace sound ?_ (by simp)
  · exact follows.2
  · intro history network next action _ sound begun move entry member call goesOn
    refine Nat.lt_of_lt_of_le ?_ (move_nextCall sound move)
    rcases List.mem_append.mp member with old | new
    · exact begun entry old call goesOn
    · rw [List.mem_singleton.mp new] at goesOn
      obtain ⟨activity, busy⟩ := move_caller move goesOn
      exact sound.known _ _ busy

theorem reachable_keeps {config : NetworkConfig} {network : Network} {Holds : Network → Prop}
    (reachable : Reachable config network)
    (keeps : ∀ network next action, Sound network → Holds network →
      Move network action next → Holds next)
    (holds : Holds (construct config)) : Holds network := by
  obtain ⟨history, trace⟩ := trace_of_reachable reachable
  exact (trace_keeps trace (sound_construct config) keeps holds).2

theorem reachable_sound {config : NetworkConfig} {network : Network}
    (reachable : Reachable config network) : Sound network := by
  obtain ⟨history, trace⟩ := trace_of_reachable reachable
  exact trace_sound trace (sound_construct config)

/-- The network after a list of actions, if each of them is possible in its turn. -/
def run? (network : Network) : List Action → Option Network
  | [] => some network
  | action :: rest => (network.step? action).bind fun next => next.run? rest

/-- The history of such a list of actions, as far as they are possible. -/
def along (network : Network) : List Action → List (Network × Action)
  | [] => []
  | action :: rest =>
    (network, action) :: (network.step? action).elim [] fun next => next.along rest

theorem trace_along {network last : Network} {actions : List Action}
    (ran : network.run? actions = some last) : Trace network (network.along actions) last := by
  induction actions generalizing network with
  | nil =>
      cases ran
      exact .nil
  | cons action rest ih =>
      obtain ⟨next, step, ran⟩ := Option.bind_eq_some_iff.mp ran
      simp only [along, step, Option.elim_some]
      exact (Trace.nil.snoc step).append (ih ran)

theorem along_actions {network last : Network} {actions : List Action}
    (ran : network.run? actions = some last) :
    (network.along actions).map Prod.snd = actions := by
  induction actions generalizing network with
  | nil => rfl
  | cons action rest ih =>
      obtain ⟨next, step, ran⟩ := Option.bind_eq_some_iff.mp ran
      simp only [along, step, Option.elim_some, List.map_cons, ih ran]

theorem trace_of_run {network last : Network} {actions : List Action}
    (ran : network.run? actions = some last) :
    ∃ history, Trace network history last ∧ history.map Prod.snd = actions :=
  ⟨_, trace_along ran, along_actions ran⟩

theorem reachable_of_run {config : NetworkConfig} {last : Network} {actions : List Action}
    (ran : (construct config).run? actions = some last) : Reachable config last := by
  obtain ⟨history, trace, _⟩ := trace_of_run ran
  exact reachable_of_trace trace

/-- A node that can be launched anywhere. -/
def plainNode (name : String) : NodeConfig where
  name := name
  isBeacon := true
  genesisFile := [1]
  configFile := [1]
  implConfig := some (.object [("binary_path", .text "node")])

/-- An add is overtaken by a stop call, which is then cancelled with a stop under way. -/
def overtakenAdd : List Action :=
  [.spawnReturns 0 (.ok ()), .startReturns 0 (.ok ()), .begin (.add (plainNode "late") []),
    .spawnReturns 1 (.ok ()), .begin (.stop false), .askToStop 2, .startReturns 1 (.ok ()),
    .commit 1, .cancel 2, .leaveToBackground 2, .stopReturns 1 (.ok ()), .stopReturns 3 (.ok ())]

end LocalNet.Network
