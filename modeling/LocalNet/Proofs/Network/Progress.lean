import LocalNet.Proofs.Network.Trace

/-!
# Every network comes to rest

If processes answer and nobody makes further calls, what is in flight ends. Each activity has a next
step, and with each turn that is taken there is less work left.
-/

namespace LocalNet

/-- A bound on the turns that an activity still takes, with those of the nodes it brings up. -/
def Activity.work : Activity → Nat
  | .building launch rest => 3 * rest.length + (if launch.spawned.isSome then 2 else 3)
  | .unbuilding nodes _ => nodes.length
  | .adding launch => if launch.spawned.isSome then 4 else 5
  | .committing .. => 3
  | .withdrawing _ => 1
  | .removing .. => 1
  | .stopping nodes asked _ _ => 2 * nodes.length + (if asked then 0 else 1)
  | .clearing nodes => nodes.length

/-- How an activity goes on, given the answer of the process it may wait for. -/
def Activity.awaited (call : CallId) (answer : Except ProcessError Unit) :
    Activity → Network.Action
  | .building launch _ | .adding launch =>
    if launch.spawned.isSome then .startReturns call answer else .spawnReturns call answer
  | .committing .. => .commit call
  | .stopping _ asked cancelled _ =>
    if cancelled then .leaveToBackground call
    else if asked then .stopReturns call answer
    else .askToStop call
  | _ => .stopReturns call answer

def Network.Action.IsBegin : Network.Action → Prop
  | .begin _ => True
  | _ => False

def Network.Action.IsCancel : Network.Action → Prop
  | .cancel _ => True
  | _ => False

namespace Network

def work (network : Network) : Nat :=
  network.registry.nodes.length + network.tally Activity.work

variable {network shared : Network} {call : CallId} {action : Action} {fate : Fate}

theorem insert_length (registry : Registry) (name : String) (node : Node) :
    (registry.insert name node).nodes.length ≤ registry.nodes.length + 1 := by
  have fewer := List.length_filter_le (fun entry => decide (entry.1 ≠ name)) registry.nodes
  simp only [Registry.insert, List.length_append, List.length_singleton]
  omega

theorem turn_work (sound : Sound network) (turn : Turn network call action shared fate)
    (noBegin : ¬action.IsBegin) (noCancel : ¬action.IsCancel) :
    shared.registry.nodes.length + fate.weigh Activity.work <
      network.registry.nodes.length + (network.activity? call).elim 0 Activity.work := by
  cases turn with
  | refused | answered | reserved | taken | drained | drainedNone => exact absurd trivial noBegin
  | cancelled => exact absurd trivial noCancel
  | spawnedBuilding busy waiting | spawnedAdding busy waiting =>
      rw [busy]
      simp [Fate.weigh, Activity.work, waiting]
  | buildFailed busy | buildFailedAlone busy =>
      rw [busy]
      simp only [Fate.weigh, Activity.work, Option.elim_some, List.length_map, List.length_nil]
      split <;> omega
  | addFailed busy =>
      rw [busy]
      simp only [Fate.weigh, Activity.work, Option.elim_some]
      split <;> omega
  | @built launch started _ _ _ busy spawned =>
      have inserted := insert_length network.registry launch.config.name
        (network.nodeOf launch started)
      rw [busy]
      simp only [Fate.weigh, Activity.work, launchOf, spawned, Option.elim_some,
        Option.isSome_some, Option.isSome_none, if_true, if_false, Bool.false_eq_true,
        List.length_cons]
      omega
  | @builtLast launch started _ busy spawned =>
      have inserted := insert_length network.registry launch.config.name
        (network.nodeOf launch started)
      rw [busy]
      simp only [Fate.weigh, Activity.work, spawned, Option.elim_some, Option.isSome_some, if_true,
        List.length_nil]
      omega
  | started busy spawned =>
      rw [busy]
      simp [Fate.weigh, Activity.work, spawned]
  | @registered _ name node _ busy =>
      have inserted := insert_length (network.registry.giveBack name) name node
      have kept : (network.registry.giveBack name).nodes = network.registry.nodes := rfl
      rw [busy]
      simp only [Fate.weigh, Activity.work, Option.elim_some, kept] at inserted ⊢
      omega
  | tooLate busy | lost busy =>
      rw [busy]
      simp [Fate.weigh, Activity.work, Registry.giveBack]
  | left busy =>
      have some := List.length_pos_iff.mpr (sound.sound _ _ busy).1
      rw [busy]
      simp only [Fate.weigh, Activity.work, Option.elim_some]
      omega
  | stopped busy =>
      rw [busy]
      simp only [Fate.weigh, Activity.work, Option.elim_some, List.length_cons, if_true,
        Bool.false_eq_true, if_false]
      omega
  | asked busy | unbuilt busy | unbuiltLast busy | withdrawn busy | removed busy
  | stoppedLast busy | cleared busy | clearedLast busy =>
      rw [busy]
      simp [Fate.weigh, Activity.work]

theorem awaited_step (sound : Sound network) {activity : Activity}
    (busy : network.activity? call = some activity) (answer : Except ProcessError Unit) :
    ∃ next, network.step? (activity.awaited call answer) = some next := by
  have holds := sound.sound _ _ busy
  cases activity with
  | building launch rest =>
      cases spawned : launch.spawned <;> cases answer <;>
        simp [Activity.awaited, step?, spawnReturns, startReturns, busy, spawned]
  | adding launch =>
      cases spawned : launch.spawned <;> cases answer <;>
        simp [Activity.awaited, step?, spawnReturns, startReturns, busy, spawned]
  | committing name launched =>
      cases launched with
      | error reason => simp [Activity.awaited, step?, commit, busy, Registry.commit]
      | ok node =>
          cases stopped : (network.registry.giveBack name).stopped <;>
            simp [Activity.awaited, step?, commit, busy, Registry.commit, stopped]
  | withdrawing node => simp [Activity.awaited, step?, stopReturns, busy]
  | removing name node => cases answer <;> simp [Activity.awaited, step?, stopReturns, busy]
  | unbuilding nodes reason =>
      obtain ⟨node, rest, rfl⟩ := List.exists_cons_of_ne_nil holds
      simp [Activity.awaited, step?, stopReturns, busy]
  | clearing nodes =>
      obtain ⟨node, rest, rfl⟩ := List.exists_cons_of_ne_nil holds
      simp [Activity.awaited, step?, stopReturns, busy]
  | stopping nodes asked cancelled firstError =>
      obtain ⟨node, rest, rfl⟩ := List.exists_cons_of_ne_nil holds.1
      cases cancelled <;> cases asked <;> cases answer <;>
        simp [Activity.awaited, step?, stopReturns, askToStop, leaveToBackground, busy]

theorem awaited_not_begin (activity : Activity) (call : CallId)
    (answer : Except ProcessError Unit) :
    ¬(activity.awaited call answer).IsBegin ∧ ¬(activity.awaited call answer).IsCancel ∧
      ¬(activity.awaited call answer).IsAside ∧
      ∀ nodes, activity.awaited call answer ≠ .shuffle nodes := by
  unfold Activity.awaited
  split <;> (repeat' split) <;>
    exact ⟨id, id, id, by simp⟩

theorem awaited_work (sound : Sound network) {next : Network} {activity : Activity}
    {answer : Except ProcessError Unit}
    (step : network.step? (activity.awaited call answer) = some next) :
    next.work < network.work := by
  obtain ⟨noBegin, noCancel, noAside, noShuffle⟩ := awaited_not_begin activity call answer
  generalize activity.awaited call answer = action at *
  cases move_of_step sound.one_builder step with
  | @turn turned _ shared fate turn =>
      have less := turn_work sound turn noBegin noCancel
      have total := turn_tally sound turn Activity.work
      simp only [work, settle_registry]
      omega
  | aside aside => exact absurd aside noAside
  | shuffled => exact absurd rfl (noShuffle _)

/-- From wherever it has come to, a network comes to rest without further calls. -/
theorem trace_to_quiescent (sound : Sound network) :
    ∃ history last, Trace network history last ∧ Quiescent last ∧
      ∀ entry ∈ history, ¬entry.2.IsBegin := by
  induction bound : network.work using Nat.strongRecOn generalizing network with
  | _ bound ih =>
      cases entries : network.activities with
      | nil => exact ⟨[], network, .nil, entries, by simp⟩
      | cons entry rest =>
          have busy := activity_of_mem sound.distinct (entries ▸ List.mem_cons_self ..)
          obtain ⟨next, step⟩ := awaited_step sound busy (.ok ())
          have less := awaited_work sound step
          have nextSound := sound_move sound (move_of_step sound.one_builder step)
          obtain ⟨history, last, trace, quiescent, noBegin⟩ := ih _ (bound ▸ less) nextSound rfl
          refine ⟨_, last, (Trace.nil.snoc step).append trace, quiescent, ?_⟩
          intro taken member
          rcases List.mem_append.mp member with first | later
          · rw [List.mem_singleton.mp first]
            exact (awaited_not_begin _ _ _).1
          · exact noBegin taken later

end Network

end LocalNet
