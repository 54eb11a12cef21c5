/-!
What is logged: messages with a level, the name of the part that speaks, and the spans it speaks in.
-/

namespace LocalNet.Log

inductive Level where
  | error
  | warn
  | info
  | debug
  | trace
  deriving DecidableEq, Repr

namespace Level

def name : Level → String
  | .error => "ERROR"
  | .warn => "WARN"
  | .info => "INFO"
  | .debug => "DEBUG"
  | .trace => "TRACE"

/-- Zero is silence, and each level includes the ones below it. -/
def verbosity : Level → Nat
  | .error => 1
  | .warn => 2
  | .info => 3
  | .debug => 4
  | .trace => 5

end Level

/-- A named stretch of work with one field. It has a level and a target of its own. -/
structure Span where
  level : Level
  target : String
  name : String
  field : String
  value : String
  deriving DecidableEq, Repr

def Span.text (span : Span) : String :=
  span.name ++ "\x7b" ++ span.field ++ "=" ++ span.value ++ "\x7d"

structure Event where
  level : Level
  target : String
  message : String
  /-- Outermost first. -/
  spans : List Span := []
  deriving DecidableEq, Repr

def Event.within (event : Event) (spans : List Span) : Event :=
  { event with spans := spans ++ event.spans }

end LocalNet.Log
