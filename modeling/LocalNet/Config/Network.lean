import LocalNet.Config.Health
import LocalNet.Config.Node

/-!
The declared configuration of a whole network.
-/

namespace LocalNet

open Json

structure NetworkConfig where
  name : String := ""
  logLevel : String := "INFO"
  /-- In the order in which the nodes are started. -/
  nodes : List NodeConfig := []
  health : HealthConfig := {}
  deriving DecidableEq, Repr

namespace NetworkConfig

def asciiUppercase (char : Char) : Char :=
  if 'a' ≤ char && char ≤ 'z' then Char.ofNat (char.toNat - 32) else char

/-- The log directive that a level name stands for, in any case of its letters. Names that are not
known stand for `info`. -/
def directiveOfLevel (level : String) : String :=
  let name := String.ofList (level.toList.map asciiUppercase)
  if name = "OFF" then "off"
  else if name = "FATAL" || name = "ERROR" then "error"
  else if name = "WARN" || name = "WARNING" then "warn"
  else if name = "DEBUG" then "debug"
  else if name = "TRACE" || name = "VERBO" || name = "VERBOSE" then "trace"
  else "info"

def logFilter (config : NetworkConfig) : String :=
  directiveOfLevel config.logLevel

def record : Record NetworkConfig where
  title := "NetworkConfig"
  blank := {}
  closed := false
  fields := [
    Record.defaulted "name" (Decoder.text "a string")
      fun value config => { config with name := value },
    Record.defaulted "log_level" (Decoder.text "a string")
      fun value config => { config with logLevel := value },
    Record.defaulted "node_configs" (Decoder.list NodeConfig.decoder)
      fun value config => { config with nodes := value },
    Record.defaulted "health" HealthConfig.decoder
      fun value config => { config with health := value }]

def decoder : Decoder NetworkConfig :=
  record.decoder

def encode (config : NetworkConfig) : Value :=
  .ofMembers [
    ("name", .text config.name),
    ("log_level", .text config.logLevel),
    ("node_configs", .array (config.nodes.map NodeConfig.encode)),
    ("health", config.health.encode)]

end NetworkConfig

end LocalNet
