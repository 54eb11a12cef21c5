import LocalNet.Network.Manager

/-!
What a network is run against: something that answers for the spawner, for the processes and for the
APIs of the nodes. An answer is settled when it is asked for, and arrives some time later.
-/

namespace LocalNet.Rehearsal

structure Pledge (α : Type) where
  answer : α
  /-- The name that has to be released before the delay begins. -/
  gate : Option String := none
  /-- Absent for an answer that never comes. -/
  delayMs : Option Nat := some 0
  deriving Repr

structure Play (σ α : Type) where
  answer : α
  world : σ
  log : List Log.Event := []

/-- The parts of a stage whose world is a `σ`. Processes are told apart by their instances. -/
structure Stage (σ : Type) where
  spawn : σ → NodeConfig → List String → (instanceId : Nat) → Play σ (Except ProcessError Unit)
  start : σ → (instanceId : Nat) → Play σ (Pledge (Except ProcessError Unit))
  stop : σ → (instanceId : Nat) → Play σ (Pledge (Except ProcessError Unit))
  /-- One health query of a node's client. -/
  ask : σ → Node → Play σ (Pledge Reply)

end LocalNet.Rehearsal
