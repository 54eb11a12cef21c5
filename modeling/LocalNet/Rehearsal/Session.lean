import LocalNet.Rehearsal.Run

/-!
A session with a running network: one step after the other is performed, and after each step
everything goes on that can without time passing. Operations may be left to the background under an
id of the caller's choice.
-/

namespace LocalNet.Rehearsal

/-- An operation that takes its time. A token fires so many milliseconds after the call. -/
inductive Operation where
  | add (config : NodeConfig) (args : List String)
  | remove (name : String)
  | stop (cancelAfterMs : Option Nat)
  | healthy (cancelAfterMs : Option Nat)

inductive Step where
  | perform (operation : Operation)
  | leave (id : String) (operation : Operation)
  /-- Waits for an operation in the background, for a limited time if one is given. -/
  | wait (id : String) (ms : Option Nat)
  | drop (id : String)
  | cancel (id : String)
  | release (name : String)
  | advance (ms : Nat)
  | get (name : String)
  /-- Asks the API of a node once. -/
  | query (name : String)
  | names
  | name
  | debug (name : String)

inductive Answer where
  | background
  | pending
  | dropped
  | cancelled
  | released
  | advanced
  | unknownTask
  | done
  | node (node : Node)
  | names (names : List String)
  | name (name : String)
  | debug (network : String) (node : String)
  | reply (reply : Except ApiError Bool)
  | failed (reason : NetworkError)

structure Session (σ : Type) where
  run : Run σ
  /-- The operations in the background that were neither waited for nor dropped. -/
  tasks : List (String × CallId) := []
  /-- The latest operation with a token under each id, also when it has ended or was dropped. -/
  tokens : List (String × CallId) := []

namespace Session

variable {σ : Type}

def ofRun (run : Run σ) : Session σ :=
  { run := run }

/-- The result of an operation that has ended. A health request ends with its check's verdict. -/
def result? (network : Network) (call : CallId) : Option Answer :=
  match network.outcomes.lookup call with
  | none => none
  | some (.node node) => some (.node node)
  | some (.names names) => some (.names names)
  | some .done => some .done
  | some (.failed reason) => some (.failed reason)
  | some (.watching check) =>
    match (network.check? check).bind Check.verdict with
    | some .healthy => some .done
    | some (.failed reason) => some (.failed (.health reason))
    | _ => none

def request : Operation → Request
  | .add config args => .add config args
  | .remove name => .remove name
  | .stop cancelAfterMs => .stop (cancelAfterMs = some 0)
  | .healthy cancelAfterMs => .healthy (cancelAfterMs = some 0)

def hasToken : Operation → Bool
  | .stop _ => true
  | .healthy _ => true
  | _ => false

def cancelAfterMs? : Operation → Option Nat
  | .stop ms => ms
  | .healthy ms => ms
  | _ => none

def call (run : Run σ) (operation : Operation) : Run σ × CallId :=
  let id := run.network.nextCall
  let armed := match cancelAfterMs? operation with
    | none => run
    | some 0 => run
    | some ms => run.wakeAt (run.network.now + ms) (.token id)
  match armed.act (.begin (request operation)) with
  | none => (run, id)
  | some begun => ((begun.wake (.call id)).wake (.check id), id)

def ask (run : Run σ) (request : Request) : Run σ × Option Answer :=
  let id := run.network.nextCall
  match run.act (.begin request) with
  | none => (run, none)
  | some asked => (asked, result? asked.network id)

def hasResult (call : CallId) (run : Run σ) : Bool :=
  (result? run.network call).isSome

def dropTask (run : Run σ) (call : CallId) : Run σ :=
  match run.act (.dropSignal call) with
  | some dropped => dropped.wake (.check call)
  | none => run

def query (stage : Stage σ) (run : Run σ) (node : Node) : Run σ × Answer :=
  let play := stage.ask run.world node
  let asked := run.taken [] play
  match play.answer.delayMs with
  | none => (asked.reach stage fun _ => false, .pending)
  | some delay =>
    let later := asked.reachWithin stage (fun _ => false) delay
    match play.answer.answer with
    | .healthy value => (later, .reply (.ok value))
    | .failed reason => (later, .reply (.error reason))
    | .panicked => (later, .failed (.health .aborted))

/-- Takes a step, without what it sets off at the same moment. -/
def take (stage : Stage σ) (session : Session σ) : Step → Session σ × Answer
  | .perform operation =>
    let (begun, id) := call session.run operation
    let later := begun.reach stage (hasResult id)
    ({ session with run := later }, (result? later.network id).getD .pending)
  | .leave name operation =>
    let (begun, id) := call session.run operation
    let run := (session.tasks.lookup name).elim begun (dropTask begun)
    let tokens :=
      if hasToken operation then (name, id) :: session.tokens.filter (·.1 ≠ name)
      else session.tokens
    ({ run := run, tasks := (name, id) :: session.tasks.filter (·.1 ≠ name), tokens := tokens },
      .background)
  | .wait name ms =>
    match session.tasks.lookup name with
    | none => (session, .unknownTask)
    | some id =>
      let later := match ms with
        | none => session.run.reach stage (hasResult id)
        | some ms => session.run.reachWithin stage (hasResult id) ms
      match result? later.network id with
      | none => ({ session with run := later }, .pending)
      | some answer =>
        ({ session with run := later, tasks := session.tasks.filter (·.1 ≠ name) }, answer)
  | .drop name =>
    let run := (session.tasks.lookup name).elim session.run (dropTask session.run)
    ({ session with run := run, tasks := session.tasks.filter (·.1 ≠ name) }, .dropped)
  | .cancel name =>
    let run := (session.tokens.lookup name).elim session.run fun id =>
      session.run.wake (.token id)
    ({ session with run := run }, .cancelled)
  | .release name =>
    let freed := { session.run with released := name :: session.run.released }
    let woken := freed.processes.foldl (fun run entry => run.wake (.call entry.1)) freed
    ({ session with run := woken }, .released)
  | .advance ms =>
    ({ session with run := session.run.reachWithin stage (fun _ => false) ms }, .advanced)
  | .get name =>
    let (run, answer) := ask session.run (.get name)
    ({ session with run := run }, answer.getD .pending)
  | .query name =>
    match ask session.run (.get name) with
    | (run, some (.node node)) =>
      let (later, answer) := query stage run node
      ({ session with run := later }, answer)
    | (run, answer) => ({ session with run := run }, answer.getD .pending)
  | .names =>
    let (run, answer) := ask session.run .names
    ({ session with run := run }, answer.getD .pending)
  | .name => (session, .name session.run.network.name)
  | .debug name =>
    match ask session.run (.get name) with
    | (run, some (.node node)) =>
      ({ session with run := run }, .debug run.network.debugText node.debugText)
    | (run, answer) => ({ session with run := run }, answer.getD .pending)

def step (stage : Stage σ) (session : Session σ) (step : Step) : Session σ × Answer :=
  let (taken, answer) := take stage session step
  ({ taken with run := taken.run.settle stage }, answer)

end Session

end LocalNet.Rehearsal
