import LocalNet.Config.Network
import LocalNet.Names
import LocalNet.Process.LaunchConfig
import LocalNet.Staking.Material
import LocalNet.Log.Event

/-!
Judging configurations before anything is started. A batch of nodes is accepted as a whole or not at
all; accepting it fills in the blank names.
-/

namespace LocalNet

inductive NodeConfigError where
  | missingImplConfig
  | invalidImplConfig (reason : Json.Mismatch)
  | missingConfigFile
  | missingGenesisFile
  | stakingKeyWithoutCert
  | stakingCertWithoutKey
  | invalidStaking (reason : Staking.Error)
  | duplicateName (name : String)
  | invalidName (name : String)
  deriving DecidableEq, Repr

def NodeConfigError.message : NodeConfigError → String
  | .missingImplConfig => "implementation-specific config is missing"
  | .invalidImplConfig reason =>
    "implementation-specific config has the wrong shape: " ++ reason.message
  | .missingConfigFile => "config file is missing"
  | .missingGenesisFile => "genesis file is missing"
  | .stakingKeyWithoutCert => "staking key provided without staking cert"
  | .stakingCertWithoutKey => "staking cert provided without staking key"
  | .invalidStaking reason => "invalid staking cert/key: " ++ reason.message
  | .duplicateName name => "node name " ++ Text.quoted name ++ " is already in use"
  | .invalidName name => "node name " ++ Text.quoted name ++ " is not a plain file name"

inductive ValidationError where
  /-- The node at `index` of the batch is at fault. -/
  | node (index : Nat) (reason : NodeConfigError)
  | noBeacon
  | healthConfig (reason : HealthConfig.Error)
  deriving DecidableEq, Repr

def ValidationError.message : ValidationError → String
  | .node index reason => "node config " ++ toString index ++ ": " ++ reason.message
  | .noBeacon => "network has nodes but none is marked as beacon"
  | .healthConfig reason => "invalid health check config: " ++ reason.message

def ValidationError.nodeReason? : ValidationError → Option NodeConfigError
  | .node _ reason => some reason
  | _ => none

/-- Staking material is given whole or not at all. -/
def validateStaking (config : NodeConfig) : Except NodeConfigError Unit :=
  match config.stakingCert.isEmpty, config.stakingKey.isEmpty with
  | true, true => .ok ()
  | true, false => .error .stakingKeyWithoutCert
  | false, true => .error .stakingCertWithoutKey
  | false, false =>
    match StakingMaterial.parse config.stakingCert config.stakingKey with
    | .error reason => .error (.invalidStaking reason)
    | .ok _ => .ok ()

/-- What can be said of a node without its siblings. -/
def validateNode (config : NodeConfig) : Except NodeConfigError Unit :=
  if !isValidNodeName config.name then .error (.invalidName config.name)
  else
    match config.implConfig with
    | none => .error .missingImplConfig
    | some value =>
      match LaunchConfig.ofValue value with
      | .error reason => .error (.invalidImplConfig reason)
      | .ok _ =>
        if config.configFile.isEmpty then .error .missingConfigFile
        else if config.genesisFile.isEmpty then .error .missingGenesisFile
        else validateStaking config

def validateEach : (index : Nat) → List NodeConfig → Except ValidationError Unit
  | _, [] => .ok ()
  | index, config :: rest =>
    match validateNode config with
    | .error reason => .error (.node index reason)
    | .ok () => validateEach (index + 1) rest

/-- Adds the explicit names of a batch to the ones taken already, which none of them may be. -/
def reserveNames : (index : Nat) → List NodeConfig → (taken : List String) →
    Except ValidationError (List String)
  | _, [], taken => .ok taken
  | index, config :: rest, taken =>
    if config.name = "" then reserveNames (index + 1) rest taken
    else if taken.contains config.name then
      .error (.node index (.duplicateName config.name))
    else reserveNames (index + 1) rest (config.name :: taken)

/-- Fills in blank names. Every explicit name is in `taken` before, so that no generated one meets
it. -/
def resolveNames : List NodeConfig → (taken : List String) → NameAllocator →
    List NodeConfig × NameAllocator
  | [], _, names => ([], names)
  | config :: rest, taken, names =>
    if config.name = "" then
      let (name, later) := names.nextName taken
      let (resolved, last) := resolveNames rest (name :: taken) later
      ({ config with name := name } :: resolved, last)
    else
      let (resolved, last) := resolveNames rest taken names
      (config :: resolved, last)

def validateBatch (configs : List NodeConfig) (existing : List String) (names : NameAllocator) :
    Except ValidationError (List NodeConfig × NameAllocator) :=
  match validateEach 0 configs with
  | .error reason => .error reason
  | .ok () =>
    match reserveNames 0 configs existing with
    | .error reason => .error reason
    | .ok taken => .ok (resolveNames configs taken names)

/-- Judges a whole network. The allocator moves on also when only the beacon is missing. -/
def validateNetwork (config : NetworkConfig) (existing : List String) (names : NameAllocator) :
    Except ValidationError NetworkConfig × NameAllocator :=
  match config.health.validate with
  | .error reason => (.error (.healthConfig reason), names)
  | .ok () =>
    match validateBatch config.nodes existing names with
    | .error reason => (.error reason, names)
    | .ok (nodes, later) =>
      if !nodes.isEmpty && !nodes.any NodeConfig.isBeacon then (.error .noBeacon, later)
      else (.ok { config with nodes := nodes }, later)

/-- Judges one node that joins a running network, which needs no beacon. -/
def validateAddedNode (config : NodeConfig) (existing : List String) (names : NameAllocator) :
    Except ValidationError NodeConfig × NameAllocator :=
  match validateBatch [config] existing names with
  | .error reason => (.error reason, names)
  | .ok (nodes, later) => (.ok (nodes.headD config), later)

def validationTarget : String := "netrunner::config::validation"

def validationEvents (config : NetworkConfig) (outcome : Except ValidationError NetworkConfig) :
    List Log.Event :=
  match outcome with
  | .error .noBeacon =>
    [{ level := .warn, target := validationTarget,
       message := "Network config " ++ Text.quoted config.name ++ " has no beacon node" }]
  | .error _ => []
  | .ok accepted =>
    [{ level := .debug, target := validationTarget,
       message := "Network config " ++ Text.quoted config.name ++ " validated with " ++
         toString accepted.nodes.length ++ " nodes" }]

end LocalNet
