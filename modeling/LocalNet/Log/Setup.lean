import LocalNet.Config.Logging
import LocalNet.Config.Network
import LocalNet.Log.Line

/-!
Setting up what is logged. The first set-up of a process lasts; what the surroundings ask for wins
over what a config asks for.
-/

namespace LocalNet.Log

structure Surroundings where
  filter : Option String := none
  /-- Any value, even an empty one, turns colours off. -/
  noColour : Option String := none
  deriving DecidableEq, Repr

structure Logger where
  filter : Filter
  colour : Bool
  deriving DecidableEq, Repr

namespace Logger

def defaultFilter : String := "info"

def filterText (surroundings : Surroundings) (asked : Option String) : String :=
  surroundings.filter.getD (asked.getD defaultFilter)

def make (surroundings : Surroundings) (asked : Option String) : Logger where
  filter := .ofText (filterText surroundings asked)
  colour := surroundings.noColour.isNone

/-- Sets a logger up unless there is one; tells whether it did. -/
def install (surroundings : Surroundings) (asked : Option String) (installed : Option Logger) :
    Option Logger × Bool :=
  match installed with
  | some logger => (some logger, false)
  | none => (some (make surroundings asked), true)

def line? (logger : Logger) (time : String) (event : Event) : Option String :=
  if logger.filter.enables event then
    some (Line.text logger.colour time
      { event with spans := event.spans.filter logger.filter.enablesSpan })
  else none

end Logger

def askedBy (config : Option LoggingConfig) : Option String :=
  config.bind LoggingConfig.filter

/-- A network config always asks for the level it names. -/
def askedByNetwork (config : NetworkConfig) : Option String :=
  some config.logFilter

end LocalNet.Log
