import LocalNet.Shell.State
import LocalNet.Text.Lossy

/-!
Commands that a script finds by their names: writing and reading, tests, signals, and work on
files.
-/

namespace LocalNet.Shell

open Files

def octalDigits (chars : List Char) : List Char :=
  (chars.take 3).takeWhile fun char => '0' ≤ char && char ≤ '7'

def octalValue (digits : List Char) : Nat :=
  digits.foldl (fun value digit => value * 8 + (digit.toNat - 48)) 0

/-- Replaces the escapes that `echo` knows; nothing is written after a `\c`. The flag tells whether
the end was reached. -/
def unescape : (fuel : Nat) → List Char → Bytes × Bool
  | 0, _ => ([], true)
  | fuel + 1, chars =>
    let andThen := fun (bytes : Bytes) (rest : List Char) =>
      let (more, whole) := unescape fuel rest
      (bytes ++ more, whole)
    match chars with
    | [] => ([], true)
    | '\\' :: 'c' :: _ => ([], false)
    | '\\' :: 'a' :: rest => andThen [7] rest
    | '\\' :: 'b' :: rest => andThen [8] rest
    | '\\' :: 'f' :: rest => andThen [12] rest
    | '\\' :: 'n' :: rest => andThen [10] rest
    | '\\' :: 'r' :: rest => andThen [13] rest
    | '\\' :: 't' :: rest => andThen [9] rest
    | '\\' :: 'v' :: rest => andThen [11] rest
    | '\\' :: '\\' :: rest => andThen [92] rest
    | '\\' :: '0' :: rest =>
      let digits := octalDigits rest
      andThen [UInt8.ofNat (octalValue digits)] (rest.drop digits.length)
    | '\\' :: rest =>
      let digits := octalDigits rest
      if digits.isEmpty then andThen [92] rest
      else andThen [UInt8.ofNat (octalValue digits)] (rest.drop digits.length)
    | char :: rest => andThen (Bytes.ofText (String.singleton char)) rest

def echoBytes (words : List String) : Bytes :=
  let (newline, shown) := match words with
    | "-n" :: rest => (false, rest)
    | _ => (true, words)
  let text := String.intercalate " " shown
  let (bytes, whole) := unescape (text.length + 1) text.toList
  bytes ++ if newline && whole then [10] else []

/-- The number of a signal given by number or by name. -/
def signalNumber? (text : String) : Option Nat :=
  match Parser.digits? text with
  | some number => some number
  | none =>
    ((ExitStatus.signalNames.zipIdx 1).find? fun (name, _) =>
      text = name || text = "SIG" ++ name).map Prod.snd

/-- Signals that a process passes over unless it asks for them. -/
def passedOver : List Nat :=
  [17, 18, 23, 28]

def halting : List Nat :=
  [19, 20, 21, 22]

/-- Takes a signal. A trapped one leaves its action to be run, and an empty action does nothing. -/
def receive (state : State) (signal : Nat) : State :=
  let action? := if signal = 9 || signal = 19 then none else state.traps.lookup signal
  match action? with
  | some action => { state with pending := some action, status := 0 }
  | none =>
    if signal = 0 || passedOver.contains signal then state.returns 0
    else if halting.contains signal then state.finish .waits
    else state.finish (.killed signal)

def killSelf (state : State) (signal : String) (targets : List String) : State :=
  match signalNumber? signal with
  | none => (state.complain (state.script ++ ": kill: invalid signal")).returns 2
  | some number =>
    if targets.contains (toString state.pid) then receive state number
    else (state.complain (state.script ++ ": kill: No such process")).returns 1

def kill (state : State) : List String → State
  | "-s" :: signal :: targets => killSelf state signal targets
  | first :: targets =>
    match first.toList with
    | '-' :: signal => killSelf state (String.ofList signal) targets
    | _ => killSelf state "TERM" (first :: targets)
  | [] => state.returns 2

def trap (state : State) : List String → State
  | [] => state
  | action :: signals =>
    let numbers := signals.filterMap signalNumber?
    let others := state.traps.filter fun (signal, _) => !numbers.contains signal
    if action = "-" then { state with traps := others, status := 0 }
    else { state with traps := numbers.map (·, action) ++ others, status := 0 }

def catOne (state : State) (file : String) : State :=
  match state.tree.read state.place file with
  | .ok content => state.print content
  | .error (.refused reason) =>
    (state.complain ("cat: " ++ file ++ ": " ++ reason.meaning)).returns 1
  | .error _ => state.returns 1

def cat (state : State) (files : List String) : State :=
  if files.isEmpty then (state.print state.input).returns 0
  else files.foldl catOne (state.returns 0)

/-- Names that begin with a dot are not listed. -/
def listed (names : List String) : List String :=
  (names.filter fun name => name.toList.head? ≠ some '.').mergeSort fun left right =>
    !(right < left)

def lines (texts : List String) : Bytes :=
  texts.flatMap fun text => Bytes.ofText (text ++ "\n")

/-- Lists one file or directory. A directory has its name above what it holds if it is one of
several. -/
def listOne (several : Bool) (state : State) (name : String) : State :=
  match state.tree.find state.place name with
  | .ok (place, .directory) =>
    let heading := if several then [name ++ ":"] else []
    state.print (lines (heading ++ listed (state.tree.namesIn place)))
  | .ok (_, .file _ _) => state.print (lines [name])
  | .error (.refused reason) =>
    (state.complain ("ls: cannot access '" ++ name ++ "': " ++ reason.meaning)).returns 2
  | .error _ => state.returns 2

def list (state : State) (names : List String) : State :=
  match names.filter fun name => name.toList.head? ≠ some '-' with
  | [] => listOne false (state.returns 0) "."
  | shown => shown.foldl (listOne (1 < shown.length)) (state.returns 0)

/-- Reads one line into names, the last of which takes what is left of it. -/
def readLine (state : State) (names : List String) : State :=
  let line := state.input.takeWhile (· ≠ 0x0A)
  let rest := state.input.drop line.length
  let words := (State.Fields.addSplit {} (Text.lossy line)).all
  let assigned := (names.zipIdx 1).foldl
    (fun left (name, index) =>
      left.assign name
        (if index = names.length then String.intercalate " " (words.drop (index - 1))
        else (words[index - 1]?).getD "")) state
  { assigned with input := rest.drop 1, status := if rest.isEmpty then 1 else 0 }

def compares? (operator : String) (left right : Nat) : Option Bool :=
  if operator = "-eq" then some (left = right)
  else if operator = "-ne" then some (left ≠ right)
  else if operator = "-lt" then some (left < right)
  else if operator = "-le" then some (left ≤ right)
  else if operator = "-gt" then some (right < left)
  else if operator = "-ge" then some (right ≤ left)
  else none

def asks? (state : State) (operator text : String) : Option Bool :=
  let found := (state.tree.find state.place text).toOption.map Prod.snd
  let grants := fun (right : Access → Bool) =>
    found.any fun entry =>
      match entry with
      | .directory => true
      | .file _ access => right access
  if operator = "-n" then some (text ≠ "")
  else if operator = "-z" then some (text = "")
  else if operator = "-e" then some found.isSome
  else if operator = "-d" then some (found = some .directory)
  else if operator = "-f" then some (found.any (· ≠ .directory))
  else if operator = "-s" then
    some (found.any fun entry =>
      match entry with
      | .directory => true
      | .file content _ => !content.isEmpty)
  else if operator = "-r" then some (grants Access.readable)
  else if operator = "-w" then some (grants Access.writable)
  else if operator = "-x" then some (grants Access.executable)
  else none

def holds? (state : State) : List String → Option Bool
  | [] => some false
  | [text] => some (text ≠ "")
  | "!" :: rest => (holds? state rest).map (!·)
  | [operator, text] => asks? state operator text
  | [left, operator, right] =>
    if operator = "=" then some (left = right)
    else if operator = "!=" then some (left ≠ right)
    else
      match Parser.digits? left, Parser.digits? right with
      | some left, some right => compares? operator left right
      | _, _ => none
  | _ => none

def test (state : State) (args : List String) : State :=
  match holds? state args with
  | some true => state.returns 0
  | some false => state.returns 1
  | none => state.returns 2

/-- Fills a format in with the first arguments; the others are left. -/
def fillIn : List Char → List String → Bytes × List String
  | '%' :: '%' :: rest, args => (fillIn rest args).map (37 :: ·) id
  | '%' :: 's' :: rest, args =>
    (fillIn rest args.tail).map (Bytes.ofText (args.headD "") ++ ·) id
  | '%' :: 'd' :: rest, args =>
    (fillIn rest args.tail).map (Bytes.ofText (args.headD "0") ++ ·) id
  | '\\' :: 'n' :: rest, args => (fillIn rest args).map (10 :: ·) id
  | '\\' :: 't' :: rest, args => (fillIn rest args).map (9 :: ·) id
  | '\\' :: '\\' :: rest, args => (fillIn rest args).map (92 :: ·) id
  | char :: rest, args => (fillIn rest args).map (Bytes.ofText (String.singleton char) ++ ·) id
  | [], args => ([], args)

/-- A format is used again as long as it takes arguments and some are left. -/
def formatted (format : String) : (rounds : Nat) → (args : List String) → Bytes
  | 0, _ => []
  | rounds + 1, args =>
    let (bytes, left) := fillIn format.toList args
    if left.isEmpty || left.length = args.length then bytes
    else bytes ++ formatted format rounds left

def changePlace (state : State) (path : String) : State :=
  match state.tree.find state.place path with
  | .ok (place, .directory) => { state with place := place, status := 0 }
  | _ => (state.complain (state.script ++ ": cd: can't cd to " ++ path)).returns 2

def exitCode (state : State) : List String → Nat
  | [] => state.status
  | text :: _ => ((Parser.digits? text).getD 2) % 256

def touch (state : State) (files : List String) : State :=
  files.foldl
    (fun left file =>
      match left.tree.openEnd left.place file with
      | .ok (_, tree) => { left with tree := tree }
      | .error _ => left.returns 1)
    (state.returns 0)

def makeDirectories (state : State) (names : List String) : State :=
  names.foldl
    (fun left name =>
      if name = "-p" then left
      else
        match left.tree.makeDirectories left.place name with
        | (.ok (), tree) => { left with tree := tree }
        | (.error _, tree) => { left with tree := tree, status := 1 })
    (state.returns 0)

/-- Sets options, or the arguments of the script behind two hyphens. -/
def setOptions (state : State) : List String → State
  | [] => state.returns 0
  | "--" :: args => { state with args := args, status := 0 }
  | option :: rest =>
    match option.toList with
    | '-' :: letters =>
      setOptions { state with endsOnFailure := state.endsOnFailure || letters.contains 'e' } rest
    | '+' :: letters =>
      setOptions { state with endsOnFailure := state.endsOnFailure && !letters.contains 'e' } rest
    | _ => { state with args := option :: rest, status := 0 }

/-- Gives values to names, which the commands of the script would inherit. -/
def exportNames (state : State) (definitions : List String) : State :=
  definitions.foldl
    (fun left definition =>
      let name := definition.toList.takeWhile (· ≠ '=')
      match definition.toList.drop name.length with
      | [] => left
      | _ :: value => left.assign (String.ofList name) (String.ofList value))
    (state.returns 0)

def perform (state : State) : List String → State
  | [] => state.returns 0
  | name :: args =>
    if name = "echo" then (state.print (echoBytes args)).returns 0
    else if name = "printf" then
      (state.print (formatted (args.headD "") (args.length + 1) args.tail)).returns 0
    else if name = "pwd" then (state.print (lines [Path.textOfPlace state.place])).returns 0
    else if name = "true" || name = ":" || name = "ulimit" then state.returns 0
    else if name = "false" then state.returns 1
    else if name = "test" then test state args
    else if name = "[" && args.getLast? = some "]" then test state args.dropLast
    else if name = "exit" then state.finish (.exits (exitCode state args))
    else if name = "kill" then kill state args
    else if name = "trap" then trap state args
    else if name = "set" then setOptions state args
    else if name = "shift" then { state with args := state.args.drop 1, status := 0 }
    else if name = "export" then exportNames state args
    else if name = "read" then readLine state (args.filter (· ≠ "-r"))
    else if name = "cat" then cat state args
    else if name = "ls" then list state args
    else if name = "touch" then touch state args
    else if name = "mkdir" then makeDirectories state args
    else if name = "cd" then changePlace state (args.headD "")
    else if name = "sleep" then { state with slept := true, status := 0 }
    else (state.complain (state.script ++ ": " ++ name ++ ": not found")).returns 127

end LocalNet.Shell
