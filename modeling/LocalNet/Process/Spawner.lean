import LocalNet.Process.Launcher

/-!
A launcher as its users hold it. Copies share one root. A root that a spawner has made for itself goes
with the last of them; one that it was given stays.
-/

namespace LocalNet

open Files

inductive Spawner where
  | given (launcher : Launcher)
  | owning (owned : OwnedRoot)
  deriving DecidableEq, Repr

namespace Spawner

def new (root : String) (base : Place) : Spawner :=
  .given { root := root, base := base }

def tempStem : String := "netrunner-"

/-- Roots itself in the directory for temporary files, under a name that nothing else has. -/
def withTempRoot (temporary unique : String) (base : Place) : Spawner :=
  .owning { launcher := { root := Path.join temporary (tempStem ++ unique), base := base } }

def launcher : Spawner → Launcher
  | .given launcher => launcher
  | .owning owned => owned.launcher

def spawn (spawner : Spawner) (tree : Tree) (config : NodeConfig) (args : List String) :
    Except ProcessError LaunchPlan × Tree :=
  spawner.launcher.spawn tree config args

def copy : Spawner → Spawner
  | .given launcher => .given launcher
  | .owning owned => .owning owned.copy

def release (tree : Tree) : Spawner → Spawner × Tree × List Log.Event
  | .given launcher => (.given launcher, tree, [])
  | .owning owned =>
    let (left, remains) := owned.release tree
    (.owning left, remains)

end Spawner

end LocalNet
