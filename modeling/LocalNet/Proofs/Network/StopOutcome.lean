import LocalNet.Proofs.Network.LiveNames
import LocalNet.Proofs.Network.Shutdown

/-!
# The outcome of a stop call

What the phases of a shutdown come to: the outcome that the call returns, who has stopped which node, and
that none is stopped twice or left out.
-/

namespace LocalNet.Network

variable {config : NetworkConfig} {state network next last : Network} {call : CallId}
variable {action : Action} {history early late : List (Network × Action)}
variable {order : List Node} {cancelled : Bool}

theorem ended_happens (sound : Sound network) {node : Node}
    {answer : Except ProcessError Unit}
    (ended : ended? call (network, action) = some (node, answer))
    (step : network.step? action = some next) :
    .stopped node.name node.instanceId ∈ next.happenings := by
  cases move_of_step sound.one_builder step with
  | turn turn =>
      rw [settle_happenings]
      cases turn with
      | unbuilt busy | unbuiltLast busy | withdrawn busy | removed busy | stopped busy
      | stoppedLast busy | cleared busy | clearedLast busy =>
          simp only [ended?] at ended
          split at ended
          · rename_i same
            subst same
            simp only [busy, Option.bind_some, Activity.stopping?, List.head?_cons,
              Option.map_some, Option.some.injEq, Prod.mk.injEq] at ended
            obtain ⟨rfl, -⟩ := ended
            exact List.mem_cons_self ..
          · cases ended
      | buildFailed busy fails | buildFailedAlone busy fails | addFailed busy fails =>
          cases fails <;> cases ended
      | _ => cases ended
  | @aside action _ _ _ _ aside =>
      cases action with
      | cancel | check | dropSignal | pass => cases ended
      | _ => exact aside.elim
  | shuffled => cases ended

theorem ended_once (trace : Trace (construct config) history network)
    {entry : Network × Action} (taken : entry ∈ history) {node : Node}
    {answer : Except ProcessError Unit} (ended : ended? call entry = some (node, answer)) :
    network.stops node.instanceId = 1 := by
  obtain ⟨early, late, rfl⟩ := List.append_of_mem taken
  obtain ⟨state, action⟩ := entry
  obtain ⟨before, following, step, rest⟩ := trace.split
  have sound := reachable_sound (reachable_of_trace before)
  have later := sound_move sound (move_of_step sound.one_builder step)
  have happened := trace_happenings rest later (ended_happens sound ended step)
  have counted : 0 < network.stops node.instanceId :=
    List.countP_pos_iff.mpr ⟨_, happened, by simp [Happening.stops]⟩
  have custody := reachable_custody (reachable_of_trace trace)
  have started := custody.starts_le_one node.instanceId
  have stopped := custody.stops_le_starts node.instanceId
  omega

/-- An empty network at rest has stopped every node that it ever had, once. -/
theorem drained_once
    (trace : Trace (construct config) (early ++ (state, action) :: late) last)
    (quiescent : Quiescent last) (empty : last.registry.nodes = []) :
    ∀ node ∈ state.registry.nodes.map Prod.snd, last.stops node.instanceId = 1 := by
  intro node member
  obtain ⟨entry, registered, rfl⟩ := List.mem_map.mp member
  obtain ⟨before, following, step, rest⟩ := trace.split
  have reachable := reachable_of_trace before
  have custody := reachable_custody (reachable_of_trace trace)
  have started := (reachable_starts_told reachable).registered entry registered
  have happened := trace_happenings ((Trace.nil.snoc step).append rest)
    (reachable_sound reachable) started
  have counted : 0 < last.starts entry.2.instanceId :=
    List.countP_pos_iff.mpr ⟨_, happened, by simp [Happening.starts]⟩
  have unheld : last.holdings = [] := by
    rw [holdings_of_quiescent quiescent, empty]
    rfl
  have once := custody.starts_le_one entry.2.instanceId
  rw [custody.stops_of_unheld unheld]
  omega

namespace Shutdown

theorem prefix_stopped (shutdown : Shutdown order call cancelled history network) :
    stoppedBy call history <+: order := by
  cases shutdown with
  | stopping _ reached | finished _ reached | handedOver _ _ _ _ reached =>
      exact ⟨_, reached.split⟩

theorem outcome_of_interrupted (shutdown : Shutdown order call cancelled history network)
    (sound : Sound network) (interrupted : Interrupted order call cancelled history)
    {outcome : Outcome} (told : network.outcome? call = some outcome) :
    outcome = .failed .cancelled ∧
      ∃ state handed asked, (state, .leaveToBackground call) ∈ history ∧ handed ≠ [] ∧
        StoppedUpTo order call history handed asked ∧
        stoppedBy state.nextCall history <+: handed ∧
        (Quiescent network → stoppedBy state.nextCall history = handed) := by
  cases shutdown with
  | stopping busy =>
      exact absurd ((sound.finished _ _ told).1.symm.trans busy) (by simp)
  | finished calm => exact absurd interrupted calm
  | @handedOver state handed left asked _ same gone nonempty reached begun cleared goesOn =>
      refine ⟨Option.some.inj (told.symm.trans same), state, handed, asked, gone, nonempty, reached,
        ⟨left, cleared⟩, ?_⟩
      intro quiescent
      have idle : network.activities = [] := quiescent
      rcases goesOn with ⟨-, busy⟩ | ⟨rfl, -⟩
      · simp [activity?, idle] at busy
      · rwa [List.append_nil] at cleared

theorem leaves_at_once (shutdown : Shutdown order call cancelled history network)
    (interrupted : Interrupted order call cancelled history)
    (untold : network.outcome? call = none) :
    ∃ next, network.step? (.leaveToBackground call) = some next ∧
      next.outcome? call = some (.failed .cancelled) := by
  cases shutdown with
  | stopping busy reached token =>
      rw [token.mpr interrupted] at busy
      refine ⟨_, by rw [step?, leaveToBackground, busy], ?_⟩
      simp [outcome?, setActivity, finish]
  | finished calm => exact absurd interrupted calm
  | handedOver _ told => cases untold.symm.trans told

theorem outcome_of_calm (shutdown : Shutdown order call cancelled history network)
    (sound : Sound network) (calm : ¬Interrupted order call cancelled history)
    {outcome : Outcome} (told : network.outcome? call = some outcome) :
    stoppedBy call history = order ∧ askedBy call history = order ∧
      outcome = stopOutcome (stopsBy call history) := by
  cases shutdown with
  | stopping busy =>
      exact absurd ((sound.finished _ _ told).1.symm.trans busy) (by simp)
  | finished _ reached same =>
      have all : stoppedBy call history = order := by simpa using reached.split
      refine ⟨all, ?_, Option.some.inj (told.symm.trans same)⟩
      simpa [all] using reached.asks
  | handedOver interrupted => exact absurd interrupted calm

theorem outcome_of_none (shutdown : Shutdown [] call cancelled history network)
    (sound : Sound network) : network.outcome? call = some .done := by
  cases shutdown with
  | stopping busy reached =>
      exact absurd (List.append_eq_nil_iff.mp reached.split).2 (sound.sound _ _ busy).1
  | finished _ reached told =>
      have none : stopsBy call history = [] := by
        simpa [stoppedBy] using reached.split
      rw [told, none]
      rfl
  | handedOver _ _ _ nonempty reached =>
      exact absurd (List.append_eq_nil_iff.mp reached.split).2 nonempty

theorem told_at_rest (shutdown : Shutdown order call cancelled history network)
    (quiescent : Quiescent network) : ∃ outcome, network.outcome? call = some outcome := by
  have idle : network.activities = [] := quiescent
  cases shutdown with
  | stopping busy => simp [activity?, idle] at busy
  | finished _ _ told | handedOver _ told => exact ⟨_, told⟩

end Shutdown

/-- What becomes of the call that stops a running network, for its nodes in the order in which it finds
them. The network is stopped and empty from then on. Without nodes the call succeeds at once, whatever
its token says; at any time those whose stops it has completed are the first ones.

If the token fires before all stops have returned, the call comes to nothing else than being cancelled,
whatever has failed before, and can return without waiting for a process. What it had left, the node
whose stop was under way first, is stopped in the same order by the call that began as it left. Otherwise
it tells each node once to stop, and each stop returns, whatever others have answered; it succeeds if all
have, and else tells the first failure.

A stop that was completed is the only one of its instance. At rest the call has returned and each node
was stopped once; rest can be reached without further calls, and nothing that is in flight is held up by
the answer of a process. -/
theorem stop_call_outcome
    (trace : Trace (construct config) (early ++ (state, .begin (.stop cancelled)) :: late) last)
    (opened : state.registry.stopped = false) (found : state.registry.nodes.map Prod.snd = order) :
    (last.registry.stopped = true ∧ last.registry.nodes = []) ∧
      (order = [] → last.outcome? state.nextCall = some .done) ∧
      stoppedBy state.nextCall late <+: order ∧
      (Interrupted order state.nextCall cancelled late →
        (last.outcome? state.nextCall = none →
          ∃ next, last.step? (.leaveToBackground state.nextCall) = some next ∧
            next.outcome? state.nextCall = some (.failed .cancelled)) ∧
        ∀ outcome, last.outcome? state.nextCall = some outcome →
          outcome = .failed .cancelled ∧
            ∃ leaving handed asked, (leaving, .leaveToBackground state.nextCall) ∈ late ∧
              handed ≠ [] ∧ StoppedUpTo order state.nextCall late handed asked ∧
              stoppedBy leaving.nextCall late <+: handed ∧
              (Quiescent last → stoppedBy leaving.nextCall late = handed)) ∧
      (¬Interrupted order state.nextCall cancelled late →
        ∀ outcome, last.outcome? state.nextCall = some outcome →
          stoppedBy state.nextCall late = order ∧ askedBy state.nextCall late = order ∧
            outcome = stopOutcome (stopsBy state.nextCall late)) ∧
      (∀ entry ∈ late, ∀ call node answer, ended? call entry = some (node, answer) →
        last.stops node.instanceId = 1) ∧
      (Quiescent last → (∃ outcome, last.outcome? state.nextCall = some outcome) ∧
        ∀ node ∈ order, last.stops node.instanceId = 1) ∧
      (∃ more rest, Trace last more rest ∧ Quiescent rest ∧ ∀ entry ∈ more, ¬entry.2.IsBegin) ∧
      ∀ call activity answer, last.activity? call = some activity →
        ∃ next, last.step? (activity.awaited call answer) = some next := by
  subst found
  have sound := reachable_sound (reachable_of_trace trace)
  have shutdown := shutdown_course trace opened
  have closed : last.registry.stopped = true ∧ last.registry.nodes = [] := by
    obtain ⟨before, following, step, rest⟩ := trace.split
    have earlier := reachable_sound (reachable_of_trace before)
    have move := move_of_step earlier.one_builder step
    exact stopped_for_good (sound_move earlier move) (first_stop opened move).1 rest
  refine ⟨closed, ?_, shutdown.prefix_stopped, ?_, ?_, ?_, ?_, trace_to_quiescent sound, ?_⟩
  · intro none
    rw [none] at shutdown
    exact shutdown.outcome_of_none sound
  · intro interrupted
    exact ⟨shutdown.leaves_at_once interrupted,
      fun outcome told => shutdown.outcome_of_interrupted sound interrupted told⟩
  · intro calm outcome told
    exact shutdown.outcome_of_calm sound calm told
  · intro entry member call node answer ended
    exact ended_once trace (List.mem_append_right _ (List.mem_cons_of_mem _ member)) ended
  · intro quiescent
    exact ⟨shutdown.told_at_rest quiescent, drained_once trace quiescent closed.2⟩
  · intro call activity answer busy
    exact awaited_step sound busy answer

def bothUp : List Action :=
  [.spawnReturns 0 (.ok ()), .startReturns 0 (.ok ()), .spawnReturns 0 (.ok ()),
    .startReturns 0 (.ok ())]

/-- Of two stops the first fails, and the second is under way. -/
def halfStopped : List Action :=
  [.begin (.stop false), .askToStop 1, .stopReturns 1 (.error .notStarted), .askToStop 1]

/-- The token fires, and the background meets another failure. -/
def leftBehind : List Action :=
  [.cancel 1, .leaveToBackground 1, .stopReturns 2 (.error .notStarted)]

theorem cancelled_stop_goes_on :
    ∃ early state late last,
      Trace (construct { nodes := [plainNode "first", plainNode "second"] })
        (early ++ (state, .begin (.stop false)) :: late) last ∧
      (state.registry.nodes.map Prod.snd).map Node.name = ["first", "second"] ∧
      Interrupted (state.registry.nodes.map Prod.snd) state.nextCall false late ∧
      last.outcome? state.nextCall = some (.failed .cancelled) ∧
      ∀ node ∈ state.registry.nodes.map Prod.snd, last.stops node.instanceId = 1 := by
  have ran : ((construct { nodes := [plainNode "first", plainNode "second"] }).run? bothUp).bind
      (fun state => (state.run? halfStopped).bind fun fired => (fired.run? leftBehind).map
        fun last => (state.registry.stopped, state.nextCall,
          (state.registry.nodes.map Prod.snd).map Node.name,
          (stoppedBy 1 (state.along halfStopped).tail).map Node.name,
          last.activities.isEmpty)) =
        some (false, 1, ["first", "second"], ["first"], true) := by
    decide +kernel
  obtain ⟨state, up, ran⟩ := Option.bind_eq_some_iff.mp ran
  obtain ⟨fired, half, ran⟩ := Option.bind_eq_some_iff.mp ran
  obtain ⟨last, rest, facts⟩ := Option.map_eq_some_iff.mp ran
  simp only [Prod.mk.injEq, List.isEmpty_iff] at facts
  obtain ⟨opened, own, names, done, quiescent⟩ := facts
  have trace := (trace_along up).append ((trace_along half).append (trace_along rest))
  have interrupted : Interrupted (state.registry.nodes.map Prod.snd) state.nextCall false
      ((state.along halfStopped).tail ++ fired.along leftBehind) := by
    refine .inr ⟨(state.along halfStopped).tail, fired, ?_, ?_⟩
    · rw [own]
      exact ⟨_, List.append_assoc ..⟩
    · rw [own]
      intro same
      rw [same, names] at done
      simp at done
  obtain ⟨-, -, -, verdict, -, -, rested, -⟩ := stop_call_outcome trace opened rfl
  obtain ⟨⟨outcome, told⟩, once⟩ := rested quiescent
  obtain ⟨rfl, -⟩ := (verdict interrupted).2 outcome told
  exact ⟨_, state, _, last, trace, names, interrupted, told, once⟩

end LocalNet.Network
