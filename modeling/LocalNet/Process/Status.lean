/-!
How a child process ended.
-/

namespace LocalNet

inductive ExitStatus where
  | code (value : Nat)
  | signal (number : Nat)
  deriving DecidableEq, Repr

namespace ExitStatus

def isSuccess : ExitStatus → Bool
  | .code 0 => true
  | _ => false

/-- Names of signals, in the order of their numbers from one on. -/
def signalNames : List String :=
  ["HUP", "INT", "QUIT", "ILL", "TRAP", "ABRT", "BUS", "FPE", "KILL", "USR1", "SEGV", "USR2",
    "PIPE", "ALRM", "TERM", "STKFLT", "CHLD", "CONT", "STOP", "TSTP", "TTIN", "TTOU", "URG",
    "XCPU", "XFSZ", "VTALRM", "PROF", "WINCH", "IO", "PWR", "SYS"]

def signalName? (number : Nat) : Option String :=
  if number = 0 then none else signalNames[number - 1]?

def text : ExitStatus → String
  | .code value => "exit status: " ++ toString value
  | .signal number =>
    "signal: " ++ toString number ++
      match signalName? number with
      | some name => " (SIG" ++ name ++ ")"
      | none => ""

def killed : ExitStatus := .signal 9

end ExitStatus

end LocalNet
