import LocalNet.Process.Staging

/-!
The local launcher. It stages nodes below one root, each in the directory of its name, and plans how
their binaries are run.
-/

namespace LocalNet

open Files

structure LaunchPlan where
  name : String
  program : String
  args : List String
  stdout : OutputSink
  stderr : OutputSink
  /-- The node's own directory, in which the binary runs. -/
  directory : String
  deriving DecidableEq, Repr

/-- A launcher works on a tree without links. Where something in a node's directory is a symbolic or a
hard link, what it writes goes elsewhere too, and nothing is said of that here. -/
structure Launcher where
  root : String
  /-- The directory that relative paths are seen from. -/
  base : Place
  deriving DecidableEq, Repr

namespace Launcher

def directoryOf (launcher : Launcher) (name : String) : String :=
  Path.join launcher.root name

def settings (config : NodeConfig) : Except ProcessError LaunchConfig :=
  if config.name = "" || !isValidNodeName config.name then
    .error (.invalidConfig ("node name " ++ Text.quoted config.name ++
      " cannot be used as a directory name"))
  else
    match config.implConfig with
    | none => .error (.invalidConfig "missing")
    | some value =>
      match LaunchConfig.ofValue value with
      | .error reason => .error (.invalidConfig reason.message)
      | .ok found => .ok found

def plan (launcher : Launcher) (config : NodeConfig) (found : LaunchConfig)
    (args : List String) : LaunchPlan :=
  let directory := launcher.directoryOf config.name
  { name := config.name
    program := found.binaryPath
    args := Staging.flags config directory ++ found.extraArgs ++ args
    stdout := found.stdout
    stderr := found.stderr
    directory := directory }

/-- Stages a node. Nothing is touched unless the config is usable and the binary is there. -/
def spawn (launcher : Launcher) (tree : Tree) (config : NodeConfig) (args : List String) :
    Except ProcessError LaunchPlan × Tree :=
  match settings config with
  | .error reason => (.error reason, tree)
  | .ok found =>
    if !tree.pathExists launcher.base found.binaryPath then
      (.error (.binaryNotFound found.binaryPath), tree)
    else
      match Staging.perform tree launcher.base
          (Staging.steps config (launcher.directoryOf config.name)) with
      | (.error reason, left) => (.error (.setup reason), left)
      | (.ok (), staged) => (.ok (launcher.plan config found args), staged)

end Launcher

def launchTarget : String := "netrunner::process::local"

def launchNote (level : Log.Level) (message : String) : Log.Event :=
  { level := level, target := launchTarget, message := message }

def LaunchPlan.preparedEvent (plan : LaunchPlan) : Log.Event :=
  launchNote .debug ("Prepared node " ++ plan.name ++ " in " ++ Text.quoted plan.directory ++
    ": " ++ Text.quoted plan.program ++ " " ++ Text.quotedList plan.args)

/-- A root that belongs to the launcher and its copies, and goes when the last of them goes. -/
structure OwnedRoot where
  launcher : Launcher
  handles : Nat := 1
  deriving DecidableEq, Repr

namespace OwnedRoot

def copy (owned : OwnedRoot) : OwnedRoot :=
  { owned with handles := owned.handles + 1 }

/-- Removes the root; a root that is not there is no fault. -/
def removeRoot (owned : OwnedRoot) (tree : Tree) : Tree × List Log.Event :=
  let root := owned.launcher.root
  match tree.removeAll owned.launcher.base root with
  | .ok left => (left, [launchNote .debug ("Removed network root " ++ Text.quoted root)])
  | .error (.refused .notFound) => (tree, [])
  | .error reason =>
    (tree, [launchNote .warn ("Failed to remove network root " ++ Text.quoted root ++ ": " ++
      reason.message)])

def release (owned : OwnedRoot) (tree : Tree) : OwnedRoot × Tree × List Log.Event :=
  let left := { owned with handles := owned.handles - 1 }
  if owned.handles = 1 then (left, owned.removeRoot tree) else (left, tree, [])

end OwnedRoot

end LocalNet
