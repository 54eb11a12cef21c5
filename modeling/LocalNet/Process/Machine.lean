import LocalNet.Process.Lifecycle
import LocalNet.Process.Native

/-!
A machine on which plans are launched. It opens the output of a child, looks for the program as the
child sees it, and loads the program: one that the machine knows, a script for another program, or
nothing that can be run.
-/

namespace LocalNet

open Files

/-- What a launched child does when it is left alone. -/
inductive Fate where
  | ends (status : ExitStatus)
  | lasts (status : ExitStatus)
  /-- The child ends only when it is killed. -/
  | endless
  deriving DecidableEq, Repr

structure Machine where
  tree : Tree
  /-- The directory in which the launcher itself runs. -/
  base : Place
  /-- Directories in which programs without a slash are looked for. -/
  searchPath : List String := ["/usr/local/bin", "/usr/bin", "/bin"]
  /-- The programs that stand at a place and are no scripts. -/
  natives : List (Place × Native) := []
  nextPid : Nat := 100
  deriving Repr

namespace Machine

/-- Opens the file of a sink, which is made if it is not there. -/
def openSink (machine : Machine) (sink : OutputSink) : Except IoFault (Shell.Channel × Machine) :=
  match sink with
  | .inherit => .ok (.discarded, machine)
  | .null => .ok (.discarded, machine)
  | .file path =>
    match machine.tree.openEnd machine.base path with
    | .error reason => .error reason
    | .ok (place, tree) => .ok (.file place, { machine with tree := tree })

structure Image where
  native : Native
  name : String
  args : List String
  deriving DecidableEq, Repr

def isLineBlank (byte : UInt8) : Bool :=
  byte = 0x20 || byte = 0x09

def endsInterpreterName (byte : UInt8) : Bool :=
  isLineBlank byte || byte = 0x00

def headSize : Nat := 256

/-- The interpreter that the first line of a script names, and what else the line says. A name that
may go on behind the head of the file counts for nothing. -/
def interpreter? (content : Bytes) : Option (Bytes × Option Bytes) :=
  match content.take headSize with
  | 0x23 :: 0x21 :: rest =>
    let line := (rest.takeWhile (· ≠ 0x0A)).dropWhile isLineBlank
    let kept := (line.reverse.dropWhile isLineBlank).reverse
    let name := kept.takeWhile (!endsInterpreterName ·)
    let argument := (kept.drop name.length).dropWhile isLineBlank
    let isCut := headSize ≤ content.length && !rest.contains 0x0A &&
      !line.any endsInterpreterName
    if name.isEmpty || isCut then none
    else some (name, if argument.isEmpty then none else some argument)
  | _ => none

/-- Scripts may be interpreted by scripts, but not by too many. -/
def deepestScript : Nat := 6

def load (machine : Machine) (place : Place) (program : String) (args : List String) :
    (depth : Nat) → Except OsError Image
  | 0 => .error .tooManyLinks
  | depth + 1 =>
    match machine.tree.find place program with
    | .error (.refused reason) => .error reason
    | .error _ => .error .notFound
    | .ok (_, .directory) => .error .permissionDenied
    | .ok (found, .file content access) =>
      if !access.executable then .error .permissionDenied
      else
        match machine.natives.lookup found with
        | some native => .ok ⟨native, program, args⟩
        | none =>
          match interpreter? content with
          | none => .error .notExecutable
          | some (name, argument) =>
            machine.load place (Text.lossy name)
              ((argument.map Text.lossy).toList ++ program :: args) depth

/-- Looks for a program in each directory; one that may not be run is reported if no other is
found. -/
def search (machine : Machine) (place : Place) (program : String) (args : List String) :
    (directories : List String) → (otherwise : OsError) → Except OsError Image
  | [], otherwise => .error otherwise
  | directory :: rest, otherwise =>
    match machine.load place (Path.join directory program) args deepestScript with
    | .ok image => .ok image
    | .error .permissionDenied => machine.search place program args rest .permissionDenied
    | .error .notFound => machine.search place program args rest otherwise
    | .error .notDirectory => machine.search place program args rest otherwise
    | .error reason => .error reason

/-- The program that a child runs which works in the directory `place`. Only a name without a slash
is searched for. -/
def programFor (machine : Machine) (place : Place) (program : String) (args : List String) :
    Except OsError Image :=
  if program.toList.contains '/' then machine.load place program args deepestScript
  else machine.search place program args machine.searchPath .notFound

/-- Programs that replace each other this often go on forever. -/
def patience : Nat := 100

/-- Runs a program to its end; `turns` bounds how often one program is replaced by another. -/
def runImage (machine : Machine) (state : Shell.State) (image : Image) : (turns : Nat) →
    Shell.Outcome
  | 0 => { tree := state.tree, ending := .waits }
  | turns + 1 =>
    match image.native with
    | .shell => Native.runShell state image.name image.args
    | .echo => Native.outcomeOf ((state.print (Bytes.ofText
        (String.intercalate " " image.args ++ "\n"))).returns 0)
    | .constant status => Native.outcomeOf (state.returns status)
    | .utility status => Native.runUtility state image.name status image.args
    | .environment =>
      match Native.environmentCommand? image.args with
      | none => Native.runUtility state image.name 125 image.args
      | some [] => Native.outcomeOf (state.returns 0)
      | some (program :: args) =>
        match machine.programFor state.place program args with
        | .ok next => machine.runImage state next turns
        | .error reason =>
          Native.fails state image.name ("'" ++ program ++ "': " ++ reason.meaning)
            (if reason = .notFound then 127 else 126)

/-- A script that sleeps has not ended yet, but its end is settled. -/
def fateOf (outcome : Shell.Outcome) : Fate :=
  let settled := fun status => if outcome.slept then Fate.lasts status else .ends status
  match outcome.ending with
  | .exits code => settled (.code code)
  | .killed signal => settled (.signal signal)
  | .waits => .endless

def execute (machine : Machine) (plan : LaunchPlan) (output errors : Shell.Channel) :
    Except IoFault (Fate × Machine) :=
  if (plan.program :: plan.args).any (·.toList.contains '\x00') then .error .zeroInArgument
  else
    match machine.tree.find machine.base plan.directory with
    | .error reason => .error reason
    | .ok (_, .file _ _) => .error (.refused .notDirectory)
    | .ok (place, .directory) =>
      match machine.programFor place plan.program plan.args with
      | .error reason => .error (.refused reason)
      | .ok image =>
        let outcome := machine.runImage
          { tree := machine.tree, place := place, script := image.name, args := image.args,
            pid := machine.nextPid, output := output, errors := errors } image patience
        .ok (fateOf outcome,
          { machine with tree := outcome.tree, nextPid := machine.nextPid + 1 })

/-- Launches a plan. Files of sinks are opened first, the one for the standard output before the one
for errors, and they stay when the launch fails. -/
def launch (machine : Machine) (plan : LaunchPlan) :
    Except ProcessError (Nat × Fate) × Machine :=
  match machine.openSink plan.stdout with
  | .error reason => (.error (.io reason), machine)
  | .ok (output, opened) =>
    match opened.openSink plan.stderr with
    | .error reason => (.error (.io reason), opened)
    | .ok (errors, ready) =>
      match ready.execute plan output errors with
      | .error reason => (.error (.spawn reason), ready)
      | .ok (fate, after) => (.ok (ready.nextPid, fate), after)

end Machine

def Fate.child : Fate → Child
  | .ends status => .ended status
  | .lasts _ => .running
  | .endless => .running

/-- How a child ends that is waited for; one that would not end by itself never answers. -/
def Fate.awaited : Fate → Option ExitStatus
  | .ends status => some status
  | .lasts status => some status
  | .endless => none

structure Launched where
  plan : LaunchPlan
  process : LocalProcess
  fate : Option Fate := none
  deriving DecidableEq, Repr

namespace Launched

def ofPlan (plan : LaunchPlan) : Launched where
  plan := plan
  process := { name := plan.name }

structure Reply where
  answer : Except ProcessError Unit
  launched : Launched
  machine : Machine
  log : List Log.Event

def start (launched : Launched) (machine : Machine) : Reply :=
  match launched.process.child with
  | some _ =>
    let (answer, process, log) := launched.process.start (.error .alreadyStarted)
    ⟨answer, { launched with process := process }, machine, log⟩
  | none =>
    let (outcome, after) := machine.launch launched.plan
    let (answer, process, log) := launched.process.start
      (outcome.map fun (pid, fate) => (pid, fate.child))
    ⟨answer, { launched with process := process, fate := (outcome.map Prod.snd).toOption }, after,
      log⟩

def wait (launched : Launched) (machine : Machine) : Reply :=
  let status := (launched.fate.bind Fate.awaited).getD .killed
  let (answer, process, log) := launched.process.wait status
  ⟨answer, { launched with process := process }, machine, log⟩

def stop (launched : Launched) (machine : Machine) : Reply :=
  let (answer, process, log) := launched.process.stop none
  ⟨answer, { launched with process := process }, machine, log⟩

end Launched

end LocalNet
