import LocalNet.Json.Record

/-!
The declared configuration of one node.
-/

namespace LocalNet

open Json

structure NodeConfig where
  /-- A blank name is filled in when the node is accepted. -/
  name : String := ""
  /-- Whether other nodes enter the network through this one. -/
  isBeacon : Bool := false
  genesisFile : Bytes := []
  configFile : Bytes := []
  cChainConfigFile : Bytes := []
  stakingCert : Bytes := []
  stakingKey : Bytes := []
  /-- Settings of whatever launches the node. -/
  implConfig : Option Value := none
  deriving DecidableEq, Repr

namespace NodeConfig

def hasStakingMaterial (config : NodeConfig) : Bool :=
  !config.stakingCert.isEmpty && !config.stakingKey.isEmpty

def defaultHttpPort : Nat := 9650

/-- The port that a node's own config document names, where it is an unsigned integer of 16
bits. -/
def portOf? (document : Value) : Option Nat :=
  match document.member? "http-port" with
  | some (.number (.integer port)) =>
    if 0 ≤ port && port ≤ 65535 then some port.toNat else none
  | _ => none

def httpPort (config : NodeConfig) : Nat :=
  match Value.parse config.configFile with
  | .ok document => (portOf? document).getD defaultHttpPort
  | .error _ => defaultHttpPort

def record : Record NodeConfig where
  title := "NodeConfig"
  blank := {}
  closed := false
  fields := [
    Record.defaulted "name" (Decoder.text "a string")
      fun value config => { config with name := value },
    Record.defaulted "is_beacon" Decoder.boolean
      fun value config => { config with isBeacon := value },
    Record.defaulted "genesis_file" Decoder.bytes
      fun value config => { config with genesisFile := value },
    Record.defaulted "config_file" Decoder.bytes
      fun value config => { config with configFile := value },
    Record.defaulted "c_chain_config_file" Decoder.bytes
      fun value config => { config with cChainConfigFile := value },
    Record.defaulted "staking_cert" Decoder.bytes
      fun value config => { config with stakingCert := value },
    Record.defaulted "staking_key" Decoder.bytes
      fun value config => { config with stakingKey := value },
    Record.defaulted "impl_specific_config" (Decoder.optional Decoder.kept)
      fun value config => { config with implConfig := value }]

def decoder : Decoder NodeConfig :=
  record.decoder

def encode (config : NodeConfig) : Value :=
  .ofMembers [
    ("name", .text config.name),
    ("is_beacon", .boolean config.isBeacon),
    ("genesis_file", .ofBytes config.genesisFile),
    ("config_file", .ofBytes config.configFile),
    ("c_chain_config_file", .ofBytes config.cChainConfigFile),
    ("staking_cert", .ofBytes config.stakingCert),
    ("staking_key", .ofBytes config.stakingKey),
    ("impl_specific_config", config.implConfig.getD .null)]

end NodeConfig

end LocalNet
