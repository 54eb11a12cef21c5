import LocalNet.Json.Record

/-!
How much is logged, and in which form.
-/

namespace LocalNet

open Json

structure LoggingConfig where
  filter : Option String := none
  jsonFormat : Bool := false
  deriving DecidableEq, Repr

namespace LoggingConfig

def record : Record LoggingConfig where
  title := "LoggingConfig"
  blank := {}
  closed := false
  fields := [
    Record.defaulted "filter" (Decoder.optional (Decoder.text "a string"))
      fun value config => { config with filter := value },
    Record.defaulted "json_format" Decoder.boolean
      fun value config => { config with jsonFormat := value }]

def decoder : Decoder LoggingConfig :=
  record.decoder

end LoggingConfig

end LocalNet
