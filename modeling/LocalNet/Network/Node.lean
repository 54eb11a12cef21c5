import LocalNet.Network.Error

/-!
A node that was started, and the client its API is asked through.
-/

namespace LocalNet

def localHost : String := "127.0.0.1"

structure Client where
  host : String
  port : Nat
  timeoutMs : Nat
  deriving DecidableEq, Repr

structure Node where
  /-- The process instance of the node; no two nodes ever share one. -/
  instanceId : Nat
  /-- The config the process was made from, with its name resolved. -/
  config : NodeConfig
  nodeId : Option NodeId
  client : Client
  deriving DecidableEq, Repr

namespace Node

def name (node : Node) : String :=
  node.config.name

/-- Staking material was judged before the node was started. -/
def identityOf (config : NodeConfig) : Option NodeId :=
  if config.hasStakingMaterial then
    (StakingMaterial.parse config.stakingCert config.stakingKey).toOption.map
      StakingMaterial.nodeId
  else none

def ofStarted (instanceId : Nat) (config : NodeConfig) (requestTimeoutMs : Nat) : Node where
  instanceId := instanceId
  config := config
  nodeId := identityOf config
  client := ⟨localHost, config.httpPort, requestTimeoutMs⟩

/-- The short form of a node for people who look for faults. -/
def debugText (node : Node) : String :=
  "Node \x7b name: " ++ Text.quoted node.name ++ ", is_beacon: " ++
    toString node.config.isBeacon ++ ", node_id: " ++
    (match node.nodeId with
      | none => "None"
      | some identity =>
        "Some(NodeId([" ++
          String.intercalate ", " (identity.bytes.map fun byte => toString byte.toNat) ++ "]))") ++
    ", .. \x7d"

end Node

end LocalNet
