import LocalNet.Shell.Builtin

/-!
Running a shell script, command after command, until it ends.
-/

namespace LocalNet.Shell

open Files

def replaceSelf (state : State) (words : List String) : State :=
  let last := perform state words
  last.finish (.exits last.status)

def redirect (state : State) : List Redirect → Option State
  | [] => some state
  | .duplicate descriptor target :: rest =>
    let channel := if target = 1 then state.output else if target = 2 then state.errors
      else .discarded
    redirect (if descriptor = 1 then { state with output := channel }
      else if descriptor = 2 then { state with errors := channel } else state) rest
  | .input path :: rest =>
    match state.tree.read state.place (state.expandWhole path) with
    | .ok content => redirect { state with input := content } rest
    | .error _ =>
      if state.expandWhole path = "/dev/null" then redirect { state with input := [] } rest
      else none
  | .file descriptor path append :: rest =>
    match state.tree.change state.place (state.expandWhole path)
        (fun content => if append then content else []) with
    | .error _ =>
      if state.expandWhole path = "/dev/null" then
        redirect (if descriptor = 1 then { state with output := .discarded }
          else { state with errors := .discarded }) rest
      else none
    | .ok (place, tree) =>
      let opened := { state with tree := tree }
      redirect (if descriptor = 1 then { opened with output := .file place }
        else if descriptor = 2 then { opened with errors := .file place } else opened) rest

def restore (before : State) (redirects : List Redirect) (after : State) : State :=
  { after with
    output := before.output
    errors := before.errors
    input := if redirects.any Redirect.isInput then before.input else after.input }

def cannotOpen (state : State) : State :=
  (state.complain (state.script ++ ": cannot open file")).returns 2

/-- Runs a simple command. Its redirections last only if it is an `exec` of nothing. -/
def runSimple (state : State) (assignments : List (String × Word)) (words : List Word)
    (redirects : List Redirect) : State :=
  let fields := words.flatMap state.expand
  let assigned := assignments.foldl
    (fun left (name, value) => left.assign name (left.expandWhole value)) state
  match redirect assigned redirects with
  | none => cannotOpen state
  | some ready =>
    match fields with
    | ["exec"] => ready.returns 0
    | "exec" :: rest => restore state redirects (replaceSelf ready rest)
    | _ => restore state redirects (perform ready fields)

def takePending (state : State) : List Command × State :=
  (((state.pending.bind Parser.parse).getD []), { state with pending := none })

mutual

def runCommand (fuel : Nat) (state : State) (command : Command) : State :=
  match fuel with
  | 0 => state
  | fuel + 1 =>
    if state.ending.isSome then state
    else
      match command with
      | .simple assignments words redirects =>
        let (actions, left) := takePending (runSimple state assignments words redirects)
        (runList fuel left actions).judge
      | .forEach name words body =>
        runLoop fuel (state.returns 0) name (words.flatMap state.expand) body
      | .redirected inner redirects =>
        match redirect state redirects with
        | none => cannotOpen state
        | some ready => restore state redirects (runCommand fuel ready inner)
      | .both first second =>
        let after := runTested fuel state [first]
        if after.status = 0 then runCommand fuel after second else after
      | .either first second =>
        let after := runTested fuel state [first]
        if after.status = 0 then after else runCommand fuel after second
      | .conditional test yes no =>
        let after := runTested fuel state test
        if after.status = 0 then runList fuel after yes
        else runList fuel (after.returns 0) no
      | .repeated wanted test body => runRepeated fuel state wanted test body

def runTested (fuel : Nat) (state : State) (commands : List Command) : State :=
  match fuel with
  | 0 => state
  | fuel + 1 =>
    { runList fuel { state with tested := true } commands with tested := state.tested }

/-- A loop that does not come to its end goes on until it is killed. -/
def runRepeated (fuel : Nat) (state : State) (wanted : Bool) (test body : List Command) : State :=
  match fuel with
  | 0 => state.finish .waits
  | fuel + 1 =>
    let after := runTested fuel state test
    if after.ending.isSome then after
    else if (after.status = 0) = wanted then
      runRepeated fuel (runList fuel after body) wanted test body
    else after.returns 0

def runLoop (fuel : Nat) (state : State) (name : String) (values : List String)
    (body : List Command) : State :=
  match fuel, values with
  | fuel + 1, value :: rest =>
    runLoop fuel (runList fuel (state.assign name value) body) name rest body
  | _, _ => state

def runList (fuel : Nat) (state : State) (commands : List Command) : State :=
  match fuel, commands with
  | fuel + 1, command :: rest => runList fuel (runCommand fuel state command) rest
  | _, _ => state

end

structure Outcome where
  tree : Tree
  ending : Ending
  slept : Bool := false

/-- Runs a script to its end; one that cannot be read fails at once. -/
def run (state : State) (script : String) : Outcome :=
  match Parser.parse script with
  | none =>
    { tree := (state.complain (state.script ++ ": Syntax error")).tree, ending := .exits 2 }
  | some commands =>
    let fuel := 4 * script.length + 4 * state.args.length + 16
    let last := runList fuel state commands
    { tree := last.tree, ending := last.ending.getD (.exits last.status), slept := last.slept }

end LocalNet.Shell
