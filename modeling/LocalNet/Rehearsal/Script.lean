import LocalNet.Rehearsal.Stage

/-!
A stage that plays by a script: for each node name, how long its process takes to start and to stop,
which of these fail, and what its API answers one query after the other.
-/

namespace LocalNet.Rehearsal

structure Script where
  spawnError : Option ProcessError := none
  startError : Option ProcessError := none
  stopError : Option ProcessError := none
  startDelayMs : Nat := 0
  stopDelayMs : Nat := 0
  /-- Whether a start waits until its name is released. -/
  blocked : Bool := false
  /-- The last answer repeats; without any, the node is healthy. -/
  health : List (Pledge Reply) := []

namespace Script

def reply (script : Script) (asked : Nat) : Pledge Reply :=
  match script.health[asked]? with
  | some pledge => pledge
  | none => script.health.getLast?.getD { answer := .healthy true }

def outcome (failure : Option ProcessError) : Except ProcessError Unit :=
  match failure with
  | some reason => .error reason
  | none => .ok ()

end Script

/-- A process made from a script, and how often its API was asked. -/
structure Actor where
  instanceId : Nat
  name : String
  asked : Nat := 0

structure Cast where
  scripts : List (String × Script)
  actors : List Actor := []

namespace Cast

def scriptOf (cast : Cast) (name : String) : Script :=
  (cast.scripts.lookup name).getD {}

def actor? (cast : Cast) (instanceId : Nat) : Option Actor :=
  cast.actors.find? (·.instanceId = instanceId)

def scriptOfInstance (cast : Cast) (instanceId : Nat) : Script :=
  (cast.actor? instanceId).elim {} fun actor => cast.scriptOf actor.name

/-- How often the APIs of a name were asked, for each name that was. -/
def asked (cast : Cast) : List (String × Nat) :=
  let heard := cast.actors.filter (0 < ·.asked)
  (heard.map Actor.name).eraseDups.map fun name =>
    (name, ((heard.filter (·.name = name)).map Actor.asked).foldl (· + ·) 0)

def stage : Stage Cast where
  spawn cast config _ instanceId :=
    { answer := Script.outcome (cast.scriptOf config.name).spawnError
      world := { cast with
        actors := { instanceId := instanceId, name := config.name } :: cast.actors } }
  start cast instanceId :=
    let script := cast.scriptOfInstance instanceId
    { answer :=
        { answer := Script.outcome script.startError
          gate := if script.blocked then (cast.actor? instanceId).map Actor.name else none
          delayMs := some script.startDelayMs }
      world := cast }
  stop cast instanceId :=
    let script := cast.scriptOfInstance instanceId
    { answer :=
        { answer := Script.outcome script.stopError
          delayMs := some script.stopDelayMs }
      world := cast }
  ask cast node :=
    let asked := ((cast.actor? node.instanceId).map Actor.asked).getD 0
    { answer := (cast.scriptOf node.name).reply asked
      world := { cast with
        actors := cast.actors.map fun actor =>
          if actor.instanceId = node.instanceId then { actor with asked := asked + 1 }
          else actor } }

end Cast

end LocalNet.Rehearsal
