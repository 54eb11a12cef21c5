import LocalNet.Json.Record

/-!
What the local launcher needs to know of a node: its binary, where its output goes, and arguments of
its own.
-/

namespace LocalNet

open Json

inductive OutputSink where
  | inherit
  | null
  | file (path : String)
  deriving DecidableEq, Repr

namespace OutputSink

def variants : List String :=
  ["inherit", "null", "file"]

def bare (sink : OutputSink) : Option Value → Except Mismatch OutputSink
  | none => .ok sink
  | some .null => .ok sink
  | some other => .error (.wrongKind other.found "unit")

/-- A sink is named, alone or as the one member of an object. -/
def ofVariant (name : String) (content : Option Value) : Except Mismatch OutputSink :=
  if name = "inherit" then bare .inherit content
  else if name = "null" then bare .null content
  else if name = "file" then
    match content with
    | none => .error (.wrongKind .bareVariant "newtype variant")
    | some value => ((Decoder.text "path string").ofValue value).map .file
  else .error (.unknownVariant name variants)

def ofValue : Value → Except Mismatch OutputSink
  | .text name => ofVariant name none
  | .object [(name, content)] => ofVariant name (some content)
  | .object _ => .error (.wrongValue .object "map with a single key")
  | other => .error (.wrongKind other.found "string or map")

/-- Sinks are only ever decoded from values; a text is read whole first. -/
def decoder : Decoder OutputSink where
  read depth cursor :=
    (readValue depth cursor).andThen fun value place =>
      match ofValue value with
      | .ok sink => .ok (sink, place)
      | .error reason => refuseHere place reason
  ofValue := ofValue

def encode : OutputSink → Value
  | .inherit => .text "inherit"
  | .null => .text "null"
  | .file path => .object [("file", .text path)]

end OutputSink

structure LaunchConfig where
  binaryPath : String := ""
  stdout : OutputSink := .inherit
  stderr : OutputSink := .inherit
  extraArgs : List String := []
  deriving DecidableEq, Repr

namespace LaunchConfig

def record : Record LaunchConfig where
  title := "LocalNodeConfig"
  blank := {}
  closed := true
  fields := [
    Record.required "binary_path" (Decoder.text "path string")
      fun value config => { config with binaryPath := value },
    Record.defaulted "stdout" OutputSink.decoder
      fun value config => { config with stdout := value },
    Record.defaulted "stderr" OutputSink.decoder
      fun value config => { config with stderr := value },
    Record.defaulted "extra_args" (Decoder.list (Decoder.text "a string"))
      fun value config => { config with extraArgs := value }]

def ofValue (value : Value) : Except Mismatch LaunchConfig :=
  match record.ofValue value with
  | .error reason => .error reason
  | .ok config =>
    if config.binaryPath = "" then .error (.refused "binary_path cannot be empty")
    else .ok config

def encode (config : LaunchConfig) : Value :=
  .ofMembers [
    ("binary_path", .text config.binaryPath),
    ("stdout", config.stdout.encode),
    ("stderr", config.stderr.encode),
    ("extra_args", .array (config.extraArgs.map .text))]

end LaunchConfig

end LocalNet
