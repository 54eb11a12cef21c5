import LocalNet.Files.Tree
import LocalNet.Shell.Command

/-!
The state of a running shell script, and what words stand for in it. A script works on a tree of
files from a directory of its own, writes to two channels and ends with a status, by a signal, or
not until it is told to.
-/

namespace LocalNet.Shell

open Files

inductive Channel where
  | discarded
  | file (place : Place)
  deriving DecidableEq, Repr

inductive Ending where
  | exits (code : Nat)
  | killed (signal : Nat)
  /-- The script goes on until it is killed. -/
  | waits
  deriving DecidableEq, Repr

structure State where
  tree : Tree
  place : Place
  script : String
  args : List String
  pid : Nat
  output : Channel
  errors : Channel
  /-- What can still be read. -/
  input : Bytes := []
  bindings : List (String × String) := []
  status : Nat := 0
  /-- What is done at a signal instead of dying of it. -/
  traps : List (Nat × String) := []
  /-- The action of a signal that has just come. -/
  pending : Option String := none
  /-- Whether the script has slept. -/
  slept : Bool := false
  /-- Whether the script ends at the first command that fails. -/
  endsOnFailure : Bool := false
  /-- Whether the status of the present command decides what is done next. -/
  tested : Bool := false
  ending : Option Ending := none

namespace State

def write (state : State) (channel : Channel) (bytes : Bytes) : State :=
  match channel with
  | .discarded => state
  | .file place => { state with tree := state.tree.appendAt place bytes }

def print (state : State) (bytes : Bytes) : State :=
  state.write state.output bytes

def complain (state : State) (text : String) : State :=
  state.write state.errors (Bytes.ofText (text ++ "\n"))

def finish (state : State) (ending : Ending) : State :=
  { state with ending := some (state.ending.getD ending) }

def returns (state : State) (status : Nat) : State :=
  { state with status := status }

def parameter (state : State) (name : String) : String :=
  if name = "#" then toString state.args.length
  else if name = "?" then toString state.status
  else if name = "$" then toString state.pid
  else if name = "0" then state.script
  else if name = "@" || name = "*" then String.intercalate " " state.args
  else if name = "PWD" then Path.textOfPlace state.place
  else
    match Parser.digits? name with
    | some index => (state.args[index - 1]?).getD ""
    | none => (state.bindings.lookup name).getD ""

/-- Fields made so far, the last of them still open. -/
structure Fields where
  closed : List String := []
  opened : Option String := none

def Fields.add (fields : Fields) (text : String) : Fields :=
  { fields with opened := some (fields.opened.getD "" ++ text) }

def Fields.cut (fields : Fields) : Fields :=
  match fields.opened with
  | none => fields
  | some text => { closed := fields.closed ++ [text] }

def Fields.all (fields : Fields) : List String :=
  fields.cut.closed

def isFieldBreak (char : Char) : Bool :=
  char = ' ' || char = '\t' || char = '\n'

def Fields.addSplit (fields : Fields) (value : String) : Fields :=
  value.toList.foldl
    (fun made char =>
      if isFieldBreak char then made.cut else made.add (String.singleton char)) fields

def Fields.addEach (fields : Fields) : List String → Fields
  | [] => fields
  | [last] => fields.add last
  | first :: rest => Fields.addEach (fields.add first).cut rest

def expandPiece (state : State) (fields : Fields) : Piece → Fields
  | .plain text _ => fields.add text
  | .parameter name true =>
    if name = "@" then fields.addEach state.args else fields.add (state.parameter name)
  | .parameter name false => fields.addSplit (state.parameter name)

def expand (state : State) (word : Word) : List String :=
  (word.foldl state.expandPiece {}).all

/-- The one text that a word stands for where no fields are made. -/
def expandWhole (state : State) (word : Word) : String :=
  String.join (word.map fun piece =>
    match piece with
    | .plain text _ => text
    | .parameter name _ => state.parameter name)

/-- Ends a script that asks for it when a command has failed whose status decides nothing. -/
def judge (state : State) : State :=
  if state.endsOnFailure && !state.tested && state.status ≠ 0 then
    state.finish (.exits state.status)
  else state

def assign (state : State) (name value : String) : State :=
  { state with bindings := (name, value) :: state.bindings.filter (·.1 ≠ name) }

end State

end LocalNet.Shell
