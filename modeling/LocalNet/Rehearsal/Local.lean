import LocalNet.Api.Query
import LocalNet.Process.Machine
import LocalNet.Rehearsal.Stage

/-!
A stage on which nodes are launched for real: their files are staged on a machine, their binaries
run there, and their APIs are asked over connections, whose other side plays by a list.
-/

namespace LocalNet.Rehearsal

structure Workplace where
  machine : Machine
  owned : OwnedRoot
  processes : List (Nat × Launched) := []
  /-- What answers for the APIs of all nodes. -/
  server : Api.Server

namespace Workplace

def set (workplace : Workplace) (instanceId : Nat) (launched : Launched) : Workplace :=
  { workplace with
    processes := (instanceId, launched) :: workplace.processes.filter (·.1 ≠ instanceId) }

def call (workplace : Workplace) (instanceId : Nat)
    (use : Launched → Machine → Launched.Reply) :
    Play Workplace (Pledge (Except ProcessError Unit)) :=
  match workplace.processes.lookup instanceId with
  | none => { answer := { answer := .error .notStarted }, world := workplace }
  | some launched =>
    let reply := use launched workplace.machine
    { answer := { answer := reply.answer }
      world := { workplace with machine := reply.machine }.set instanceId reply.launched
      log := reply.log }

def replyOf : Except ApiError Bool → Reply
  | .ok healthy => .healthy healthy
  | .error reason => .failed reason

/-- Asks the API of a node. A silent server is given up when the client's time is over. -/
def query (workplace : Workplace) (client : Client) : Play Workplace (Pledge Reply) :=
  let report := Api.query workplace.server client.host client.port
  { answer :=
      { answer := replyOf report.answer
        delayMs := some (if report.journey.silent then client.timeoutMs else 0) }
    world := { workplace with server := report.journey.server }
    log := report.log }

def stage : Stage Workplace where
  spawn workplace config args instanceId :=
    match workplace.owned.launcher.spawn workplace.machine.tree config args with
    | (.error reason, tree) =>
      { answer := .error reason
        world := { workplace with machine := { workplace.machine with tree := tree } } }
    | (.ok plan, tree) =>
      { answer := .ok ()
        world := { workplace with machine := { workplace.machine with tree := tree } }.set
          instanceId (.ofPlan plan)
        log := [plan.preparedEvent] }
  start workplace instanceId := workplace.call instanceId Launched.start
  stop workplace instanceId := workplace.call instanceId Launched.stop
  ask workplace node := workplace.query node.client

/-- What is left and logged when the launcher is gone. -/
def close (workplace : Workplace) : List Log.Event :=
  (workplace.owned.release workplace.machine.tree).2.2

end Workplace

end LocalNet.Rehearsal
