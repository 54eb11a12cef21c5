import LocalNet.Shell.Run

/-!
Programs that a machine knows without a script: its shell, and utilities that a child may be.
-/

namespace LocalNet

open Files

inductive Native where
  | shell
  /-- Runs another program, after what it is asked to change about the surroundings. -/
  | environment
  | echo
  /-- Ends with a status whatever it is asked. -/
  | constant (status : Nat)
  /-- Refuses options that it does not know, and ends with a status then. -/
  | utility (status : Nat)
  deriving DecidableEq, Repr

namespace Native

def shellLetters : List Char :=
  "aCefIimnqsuvVxEbp".toList

def isOption (argument : String) : Bool :=
  argument.toList.head? = some '-' && argument ≠ "-"

def outcomeOf (state : Shell.State) : Shell.Outcome :=
  { tree := state.tree
    ending := state.ending.getD (.exits state.status)
    slept := state.slept }

def fails (state : Shell.State) (name complaint : String) (status : Nat) : Shell.Outcome :=
  outcomeOf ((state.complain (name ++ ": " ++ complaint)).returns status)

def runShell (state : Shell.State) (name : String) : (args : List String) → Shell.Outcome
  | [] => outcomeOf state
  | first :: rest =>
    if isOption first && first ≠ "--" then
      let letters := first.toList.drop 1
      match letters.find? fun letter => !shellLetters.contains letter && letter ≠ 'c' with
      | some letter => fails state name ("0: Illegal option -" ++ String.singleton letter) 2
      | none =>
        let ready :=
          { state with endsOnFailure := state.endsOnFailure || letters.contains 'e' }
        if letters.contains 'c' then
          match rest with
          | [] => fails state name "0: -c requires an argument" 2
          | commands :: others =>
            Shell.run { ready with script := others.headD name, args := others.drop 1 } commands
        else runShell ready name rest
    else
      match (if first = "--" || first = "-" then rest else first :: rest) with
      | [] => outcomeOf state
      | script :: args =>
        match state.tree.read state.place script with
        | .ok content =>
          Shell.run { state with script := script, args := args }
            ((Bytes.toText? content).getD "")
        | .error (.refused reason) =>
          fails state name ("0: cannot open " ++ script ++ ": " ++ reason.meaning) 2
        | .error _ => fails state name ("0: cannot open " ++ script) 2

def splitWords (text : String) : List String :=
  (Shell.State.Fields.addSplit {} text).all

/-- What is left of the arguments behind options and definitions, which are passed over; absent
where an option is not known. -/
def environmentCommand? : (args : List String) → Option (List String)
  | [] => some []
  | first :: rest =>
    if first = "-" || first = "-i" then environmentCommand? rest
    else if first = "--" then some (rest.dropWhile (·.toList.contains '='))
    else if first.toList.take 2 = ['-', 'S'] then
      some ((splitWords (String.ofList (first.toList.drop 2)) ++ rest).dropWhile
        (·.toList.contains '='))
    else if isOption first then none
    else if first.toList.contains '=' then environmentCommand? rest
    else some (first :: rest)

def runUtility (state : Shell.State) (name : String) (status : Nat) (args : List String) :
    Shell.Outcome :=
  match args.find? isOption with
  | none => outcomeOf (state.returns 0)
  | some option =>
    let kind := if option.toList.take 2 = ['-', '-'] then "unrecognized option '" ++ option ++ "'"
      else "invalid option -- '" ++ String.ofList ((option.toList.drop 1).take 1) ++ "'"
    outcomeOf (((state.complain (name ++ ": " ++ kind)).complain
      ("Try '" ++ name ++ " --help' for more information.")).returns status)

end Native

end LocalNet
