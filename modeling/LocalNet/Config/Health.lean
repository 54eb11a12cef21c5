import LocalNet.Json.Record

/-!
How the nodes of a network are polled for their health, and for how long.
-/

namespace LocalNet

open Json

structure HealthConfig where
  /-- Pause between an answer of a node and its next poll. -/
  pollIntervalMillis : UInt64 := 1000
  /-- Bound on a whole check. -/
  timeoutSecs : UInt64 := 120
  apiRequestTimeoutSecs : UInt64 := 10
  /-- Failed polls after which a node counts as unhealthy; zero leaves only the timeout. -/
  maxAttempts : UInt32 := 0
  deriving DecidableEq, Repr

namespace HealthConfig

inductive Error where
  | noPollInterval
  | noTimeout
  deriving DecidableEq, Repr

def Error.message : Error → String
  | .noPollInterval => "poll_interval_millis must be greater than 0"
  | .noTimeout => "timeout_secs must be greater than 0"

def validate (config : HealthConfig) : Except Error Unit :=
  if config.pollIntervalMillis = 0 then .error .noPollInterval
  else if config.timeoutSecs = 0 then .error .noTimeout
  else .ok ()

def pollIntervalMs (config : HealthConfig) : Nat :=
  config.pollIntervalMillis.toNat

def timeoutMs (config : HealthConfig) : Nat :=
  config.timeoutSecs.toNat * 1000

def apiRequestTimeoutMs (config : HealthConfig) : Nat :=
  config.apiRequestTimeoutSecs.toNat * 1000

def record : Record HealthConfig where
  title := "HealthCheckConfig"
  blank := {}
  closed := false
  fields := [
    Record.defaulted "poll_interval_millis" Decoder.word64
      fun value config => { config with pollIntervalMillis := value },
    Record.defaulted "timeout_secs" Decoder.word64
      fun value config => { config with timeoutSecs := value },
    Record.defaulted "api_request_timeout_secs" Decoder.word64
      fun value config => { config with apiRequestTimeoutSecs := value },
    Record.defaulted "max_attempts" Decoder.word32
      fun value config => { config with maxAttempts := value }]

def decoder : Decoder HealthConfig :=
  record.decoder

def encode (config : HealthConfig) : Value :=
  .ofMembers [
    ("poll_interval_millis", .ofNat config.pollIntervalMillis.toNat),
    ("timeout_secs", .ofNat config.timeoutSecs.toNat),
    ("api_request_timeout_secs", .ofNat config.apiRequestTimeoutSecs.toNat),
    ("max_attempts", .ofNat config.maxAttempts.toNat)]

end HealthConfig

end LocalNet
