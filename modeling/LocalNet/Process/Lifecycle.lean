import LocalNet.Process.Launcher

/-!
The life of a local process: it is started at most once, and then waited for or stopped as often as
its owner likes. Whether its child still runs is up to the child.
-/

namespace LocalNet

inductive Child where
  | running
  | ended (status : ExitStatus)
  deriving DecidableEq, Repr

structure LocalProcess where
  name : String
  /-- Absent until a start succeeds. -/
  child : Option Child := none
  deriving DecidableEq, Repr

namespace LocalProcess

/-- What a call answers, what becomes of the process, and what is logged. -/
abbrev Called := Except ProcessError Unit × LocalProcess × List Log.Event

def startedEvent (process : LocalProcess) (pid : Nat) : Log.Event :=
  launchNote .info ("Started node " ++ process.name ++ " (pid Some(" ++ toString pid ++ "))")

/-- Starts the process; `launched` is what the operating system makes of it. -/
def start (process : LocalProcess) (launched : Except ProcessError (Nat × Child)) : Called :=
  match process.child with
  | some _ => (.error .alreadyStarted, process, [])
  | none =>
    match launched with
    | .error reason => (.error reason, process, [])
    | .ok (pid, child) =>
      (.ok (), { process with child := some child }, [process.startedEvent pid])

def childEnds (process : LocalProcess) (status : ExitStatus) : LocalProcess :=
  match process.child with
  | some .running => { process with child := some (.ended status) }
  | _ => process

def judged (name : String) (status : ExitStatus) : Except ProcessError Unit × List Log.Event :=
  if status.isSuccess then (.ok (), [launchNote .debug ("Node " ++ name ++ " exited normally")])
  else
    (.error (.exited status),
      [launchNote .warn ("Node " ++ name ++ " exited with " ++ status.text)])

/-- Waits for the end of the child, which ends with `status` if it still runs. -/
def wait (process : LocalProcess) (status : ExitStatus) : Called :=
  match process.child with
  | none => (.error .notStarted, process, [])
  | some .running =>
    let (answer, events) := judged process.name status
    (answer, process.childEnds status, events)
  | some (.ended known) =>
    let (answer, events) := judged process.name known
    (answer, process, events)

/-- Kills the child if it still runs. A child may end by itself before the signal comes. -/
def stop (process : LocalProcess) (own : Option ExitStatus) : Called :=
  match process.child with
  | none => (.error .notStarted, process, [])
  | some (.ended _) =>
    (.ok (), process, [launchNote .debug ("Node " ++ process.name ++ " already exited")])
  | some .running =>
    (.ok (), process.childEnds (own.getD .killed),
      [launchNote .debug ("Killing node process: " ++ process.name),
        launchNote .info ("Stopped node " ++ process.name)])

end LocalProcess

end LocalNet
