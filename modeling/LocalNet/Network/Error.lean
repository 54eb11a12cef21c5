import LocalNet.Validation
import LocalNet.Process.Error
import LocalNet.Api.Error

/-!
How operations on a network fail.
-/

namespace LocalNet

inductive HealthError where
  | timeout (seconds : Nat)
  | cancelled
  | unhealthy (node : String) (attempts : Nat)
  /-- The node could not be asked on its last attempt. -/
  | client (node : String) (reason : String)
  /-- The check ended without a verdict. -/
  | aborted
  deriving DecidableEq, Repr

def HealthError.message : HealthError → String
  | .timeout seconds => "health check timed out after " ++ toString seconds ++ "s"
  | .cancelled => "health check cancelled"
  | .unhealthy node attempts =>
    "node " ++ node ++ " still unhealthy after " ++ toString attempts ++ " attempts"
  | .client node reason => "node " ++ node ++ " health query failed: " ++ reason
  | .aborted => "health check aborted"

inductive NetworkError where
  | validation (reason : ValidationError)
  | stopped
  | nodeNotFound (name : String)
  | process (node : String) (reason : ProcessError)
  | health (reason : HealthError)
  | cancelled
  deriving DecidableEq, Repr

def NetworkError.message : NetworkError → String
  | .validation reason => "invalid network config: " ++ reason.message
  | .stopped => "network stopped"
  | .nodeNotFound name => "node " ++ Text.quoted name ++ " not found"
  | .process node reason => "node " ++ node ++ ": " ++ reason.message
  | .health reason => "network unhealthy: " ++ reason.message
  | .cancelled => "stop cancelled before all nodes were stopped"

end LocalNet
