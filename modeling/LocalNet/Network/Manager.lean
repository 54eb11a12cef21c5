import LocalNet.Network.Registry
import LocalNet.Network.Check

/-!
The manager of a network as a transition system. Operations overlap freely: each goes on by steps,
and between two steps of one, any steps of others may happen. What spawners and processes answer
comes from outside with the step that takes it. Time passes only when no check has anything due.
-/

namespace LocalNet

abbrev CallId := Nat

abbrev CheckId := Nat

/-- A node on its way up. Its process is spawned first, then started. -/
structure Launch where
  config : NodeConfig
  args : List String
  /-- The instance once it is spawned. -/
  spawned : Option Nat := none
  deriving DecidableEq, Repr

/-- What an operation in flight holds, and what it waits for. The first of several nodes is the one
being stopped. -/
inductive Activity where
  | building (launch : Launch) (rest : List NodeConfig)
  /-- A failed construction stops what it has started. -/
  | unbuilding (nodes : List Node) (reason : NetworkError)
  | adding (launch : Launch)
  /-- An add has its node's outcome and is about to end the reservation. -/
  | committing (name : String) (launched : Except NetworkError Node)
  /-- An add came too late and stops its own node. -/
  | withdrawing (node : Node)
  | removing (name : String) (node : Node)
  /-- A stop call; `asked` tells whether the first node's process was told to stop. -/
  | stopping (nodes : List Node) (asked cancelled : Bool) (firstError : Option NetworkError)
  /-- What a cancelled stop call left behind is stopped in the background. -/
  | clearing (nodes : List Node)
  deriving Repr

namespace Activity

def launch? : Activity → Option Launch
  | .building launch _ => some launch
  | .adding launch => some launch
  | _ => none

def stopping? : Activity → Option Node
  | .unbuilding nodes _ => nodes.head?
  | .withdrawing node => some node
  | .removing _ node => some node
  | .stopping nodes _ _ _ => nodes.head?
  | .clearing nodes => nodes.head?
  | _ => none

end Activity

inductive Outcome where
  | node (node : Node)
  | names (names : List String)
  | done
  | watching (check : CheckId)
  | failed (reason : NetworkError)
  deriving DecidableEq, Repr

inductive Request where
  | add (config : NodeConfig) (args : List String)
  | remove (name : String)
  | get (name : String)
  | names
  | stop (cancelled : Bool)
  | healthy (cancelled : Bool)
  deriving DecidableEq, Repr

inductive Happening where
  | spawned (config : NodeConfig) (args : List String)
  | started (name : String) (instanceId : Nat)
  | startFailed (name : String) (instanceId : Nat)
  | client (instanceId : Nat) (client : Client)
  /-- A process was stopped, or could not be. -/
  | stopped (name : String) (instanceId : Nat)
  | polled (check : CheckId) (name : String) (instanceId : Nat) (time : Nat)
  deriving DecidableEq, Repr

inductive Standing where
  | constructing
  | running
  | refused (reason : NetworkError)
  deriving DecidableEq, Repr

structure Network where
  name : String
  health : HealthConfig
  standing : Standing
  registry : Registry := {}
  activities : List (CallId × Activity) := []
  checks : List (CheckId × Check) := []
  outcomes : List (CallId × Outcome) := []
  nextCall : CallId := 0
  nextInstance : Nat := 0
  /-- Milliseconds since the network was made. -/
  now : Nat := 0
  /-- Latest first. -/
  happenings : List Happening := []
  /-- Latest first. -/
  log : List Log.Event := []
  deriving Repr

namespace Network

def target : String := "netrunner::network"

def note (level : Log.Level) (message : String) : Log.Event :=
  { level := level, target := target, message := message }

def span (network : Network) : Log.Span where
  level := .info
  target := target
  name := "network"
  field := "name"
  value := network.name

def debugText (network : Network) : String :=
  "Network \x7b name: " ++ Text.quoted network.name ++ ", .. \x7d"

def record (network : Network) (events : List Log.Event) : Network :=
  { network with log := events.reverse ++ network.log }

def takeLog (network : Network) : List Log.Event × Network :=
  (network.log.reverse, { network with log := [] })

def recordWithin (network : Network) (events : List Log.Event) : Network :=
  network.record (events.map fun event => event.within [network.span])

def happen (network : Network) (happening : Happening) : Network :=
  { network with happenings := happening :: network.happenings }

def activity? (network : Network) (call : CallId) : Option Activity :=
  network.activities.lookup call

def setActivity (network : Network) (call : CallId) (activity : Activity) : Network :=
  { network with
    activities := (call, activity) :: network.activities.filter (·.1 ≠ call) }

def finish (network : Network) (call : CallId) (outcome : Outcome) : Network :=
  { network with
    activities := network.activities.filter (·.1 ≠ call)
    outcomes := (call, outcome) :: network.outcomes }

def vanish (network : Network) (call : CallId) : Network :=
  { network with activities := network.activities.filter (·.1 ≠ call) }

def spawningNote (config : NodeConfig) : Log.Event :=
  note .debug ("Spawning node " ++ config.name ++ " (beacon: " ++ toString config.isBeacon ++ ")")

/-- The construction of a network is its first call. -/
def constructionCall : CallId := 0

def launchOf (config : NodeConfig) (args : List String) : Launch :=
  { config := config, args := args }

def buildNext (network : Network) : List NodeConfig → Network
  | [] =>
    { (network.recordWithin [note .info "Network started"]).finish constructionCall .done with
      standing := .running }
  | config :: rest =>
    (network.recordWithin [spawningNote config]).setActivity constructionCall
      (.building (launchOf config []) rest)

/-- Judges a config and, if it is accepted, begins to launch its nodes. -/
def construct (config : NetworkConfig) : Network :=
  let (judged, names) := validateNetwork config [] {}
  let blank : Network :=
    { name := config.name, health := config.health, standing := .constructing,
      registry := { names := names }, nextCall := 1,
      log := (validationEvents config judged).reverse }
  match judged with
  | .error reason => { blank with standing := .refused (.validation reason) }
  | .ok accepted =>
    (blank.recordWithin
      [note .info ("Starting network with " ++ toString accepted.nodes.length ++ " nodes")]
      ).buildNext accepted.nodes

def refuse (network : Network) (reason : NetworkError) : Network :=
  { network.finish constructionCall (.failed reason) with standing := .refused reason }

/-- A construction that fails stops the nodes it has started. -/
def failBuilding (network : Network) (reason : NetworkError) : Network :=
  let logged := network.recordWithin
    [note .error ("Network construction failed: " ++ reason.message)]
  let nodes := logged.registry.nodes.map Prod.snd
  let drained := { logged with registry := { logged.registry with nodes := [] } }
  if nodes.isEmpty then drained.refuse reason
  else drained.setActivity constructionCall (.unbuilding nodes reason)

def teardownNote (node : Node) (reason : ProcessError) : Log.Event :=
  note .warn ("Error stopping node " ++ node.name ++ " during teardown: " ++ reason.message)

def teardownEvents (node : Node) : Except ProcessError Unit → List Log.Event
  | .ok () => []
  | .error reason => [teardownNote node reason]

def finishStop (network : Network) (call : CallId) (firstError : Option NetworkError) : Network :=
  (network.record [note .info ("Network " ++ network.name ++ " stopped")]).finish call
    (firstError.elim .done .failed)

/-- The first locked section of an operation, and whatever it does before it waits. -/
def begin (network : Network) (request : Request) : Network :=
  let call := network.nextCall
  let network := { network with nextCall := call + 1 }
  match request with
  | .add config args =>
    match network.registry.reserve config with
    | (.error reason, registry) =>
      { network with registry := registry }.finish call (.failed reason)
    | (.ok resolved, registry) =>
      ({ network with registry := registry }.record [spawningNote resolved]).setActivity call
        (.adding (launchOf resolved args))
  | .remove name =>
    match network.registry.take name with
    | (.error reason, registry) =>
      { network with registry := registry }.finish call (.failed reason)
    | (.ok node, registry) =>
      { network with registry := registry }.setActivity call (.removing name node)
  | .get name =>
    match network.registry.get name with
    | .error reason => network.finish call (.failed reason)
    | .ok node => network.finish call (.node node)
  | .names =>
    match network.registry.nodeNames with
    | .error reason => network.finish call (.failed reason)
    | .ok names => network.finish call (.names names)
  | .stop cancelled =>
    match network.registry.drain with
    | (.error reason, registry) =>
      { network with registry := registry }.finish call (.failed reason)
    | (.ok nodes, registry) =>
      let logged := { network with registry := registry }.record
        [note .info ("Stopping network " ++ network.name ++ " (" ++ toString nodes.length ++
          " nodes)")]
      if nodes.isEmpty then logged.finishStop call none
      else logged.setActivity call (.stopping nodes false cancelled none)
  | .healthy cancelled =>
    match network.registry.snapshot with
    | .error reason => network.finish call (.failed reason)
    | .ok nodes =>
      { network with
        checks := (call, Check.ofSnapshot network.health nodes cancelled) :: network.checks
        }.finish call (.watching call)

def nodeOf (network : Network) (launch : Launch) (instanceId : Nat) : Node :=
  Node.ofStarted instanceId launch.config network.health.apiRequestTimeoutMs

def processFault (name : String) (reason : ProcessError) : NetworkError :=
  .process name reason

def spawnReturns (network : Network) (call : CallId) (answer : Except ProcessError Unit) :
    Option Network :=
  let spawn := fun (launch : Launch) =>
    { network with nextInstance := network.nextInstance + 1 }.happen
      (.spawned launch.config launch.args)
  match network.activity? call with
  | some (.building launch rest) =>
    if launch.spawned.isSome then none
    else match answer with
      | .error reason =>
        some ((spawn launch).failBuilding (processFault launch.config.name reason))
      | .ok () =>
        some ((spawn launch).setActivity call
          (.building { launch with spawned := some network.nextInstance } rest))
  | some (.adding launch) =>
    if launch.spawned.isSome then none
    else match answer with
      | .error reason =>
        let name := launch.config.name
        some ((spawn launch).setActivity call
          (.committing name (.error (processFault name reason))))
      | .ok () =>
        some ((spawn launch).setActivity call
          (.adding { launch with spawned := some network.nextInstance }))
  | _ => none

def startReturns (network : Network) (call : CallId) (answer : Except ProcessError Unit) :
    Option Network :=
  let up := fun (launch : Launch) (instanceId : Nat) =>
    let node := network.nodeOf launch instanceId
    (node, (network.happen (.started node.name instanceId)).happen
      (.client instanceId node.client))
  match network.activity? call with
  | some (.building launch rest) =>
    match launch.spawned with
    | none => none
    | some instanceId =>
      match answer with
      | .error reason =>
        some ((network.happen (.startFailed launch.config.name instanceId)).failBuilding
          (processFault launch.config.name reason))
      | .ok () =>
        let (node, started) := up launch instanceId
        some ({ started with registry := started.registry.insert node.name node }.buildNext rest)
  | some (.adding launch) =>
    match launch.spawned with
    | none => none
    | some instanceId =>
      let name := launch.config.name
      match answer with
      | .error reason =>
        some ((network.happen (.startFailed name instanceId)).setActivity call
          (.committing name (.error (processFault name reason))))
      | .ok () =>
        let (node, started) := up launch instanceId
        some (started.setActivity call (.committing name (.ok node)))
  | _ => none

def commit (network : Network) (call : CallId) : Option Network :=
  match network.activity? call with
  | some (.committing name launched) =>
    match network.registry.commit name launched, launched with
    | (.registered, registry), .ok node =>
      some (({ network with registry := registry }.record
        [note .info ("Network " ++ network.name ++ ": added node " ++ node.name)]).finish call
          (.node node))
    | (.tooLate, registry), .ok node =>
      some (({ network with registry := registry }.record
        [note .warn ("Network " ++ network.name ++ " stopped while node " ++ name ++
          " was starting")]).setActivity call (.withdrawing node))
    | (.failed reason, registry), _ =>
      some ({ network with registry := registry }.finish call (.failed reason))
    | (_, registry), .error reason =>
      some ({ network with registry := registry }.finish call (.failed reason))
  | _ => none

/-- A stop call turns to its first node, unless its token has fired. -/
def askToStop (network : Network) (call : CallId) : Option Network :=
  match network.activity? call with
  | some (.stopping nodes false false firstError) =>
    some (network.setActivity call (.stopping nodes true false firstError))
  | _ => none

def stopReturns (network : Network) (call : CallId) (answer : Except ProcessError Unit) :
    Option Network :=
  let ended := fun (node : Node) => network.happen (.stopped node.name node.instanceId)
  match network.activity? call with
  | some (.unbuilding (node :: rest) reason) =>
    let next := (ended node).recordWithin (teardownEvents node answer)
    some (if rest.isEmpty then next.refuse reason
      else next.setActivity call (.unbuilding rest reason))
  | some (.withdrawing node) =>
    some (((ended node).record (teardownEvents node answer)).finish call (.failed .stopped))
  | some (.removing name node) =>
    match answer with
    | .error reason => some ((ended node).finish call (.failed (processFault name reason)))
    | .ok () =>
      some (((ended node).record
        [note .info ("Network " ++ network.name ++ ": removed node " ++ name)]).finish call .done)
  | some (.stopping (node :: rest) true false firstError) =>
    let (next, kept) := match answer with
      | .ok () => (ended node, firstError)
      | .error reason =>
        ((ended node).record
          [note .error ("Failed to stop node " ++ node.name ++ ": " ++ reason.message)],
          firstError <|> some (processFault node.name reason))
    some (if rest.isEmpty then next.finishStop call kept
      else next.setActivity call (.stopping rest false false kept))
  | some (.clearing (node :: rest)) =>
    let next := (ended node).recordWithin (teardownEvents node answer)
    some (if rest.isEmpty then next.vanish call else next.setActivity call (.clearing rest))
  | _ => none

/-- The token of a stop call or of a health check fires. -/
def cancel (network : Network) (call : CallId) : Network :=
  match network.activity? call with
  | some (.stopping nodes asked _ firstError) =>
    network.setActivity call (.stopping nodes asked true firstError)
  | _ =>
    { network with
      checks := network.checks.map fun entry =>
        if entry.1 = call then (entry.1, { entry.2 with cancelled := true }) else entry }

/-- A stop call notices its token: a task of its own takes over the nodes that are left, beginning
again with the one whose stop was under way. -/
def leaveToBackground (network : Network) (call : CallId) : Option Network :=
  match network.activity? call with
  | some (.stopping nodes _ true _) =>
    let background := network.nextCall
    let logged := { network with nextCall := background + 1 }.record
      [note .warn ("Network " ++ network.name ++ " stop cancelled, stopping " ++
        toString nodes.length ++ " nodes in the background")]
    some ((logged.finish call (.failed .cancelled)).setActivity background (.clearing nodes))
  | _ => none

def check? (network : Network) (check : CheckId) : Option Check :=
  network.checks.lookup check

def setCheck (network : Network) (id : CheckId) (check : Check) : Network :=
  { network with
    checks := network.checks.map fun entry => if entry.1 = id then (id, check) else entry }

def notePoll (network : Network) (id : CheckId) (check : Check) : Check.Step → Network
  | .ask index =>
    match check.members[index]? with
    | some member =>
      network.happen (.polled id member.node.name member.node.instanceId network.now)
    | none => network
  | _ => network

def stepCheck (network : Network) (id : CheckId) (step : Check.Step) : Option Network :=
  match network.check? id with
  | none => none
  | some check =>
    match check.step? network.now step with
    | none => none
    | some (next, events) =>
      some (((network.setCheck id next).notePoll id check step).recordWithin events)

def dropSignal (network : Network) (id : CheckId) : Network :=
  match network.check? id with
  | some check => network.setCheck id { check with dropped := true }
  | none => network

/-- Time may pass up to the next moment at which a check has something to do. -/
def mayPass (network : Network) (later : Nat) : Bool :=
  network.now ≤ later &&
    network.checks.all fun entry =>
      !entry.2.isUrgent network.now && entry.2.dueTimes.all (later ≤ ·)

inductive Action where
  | begin (request : Request)
  | spawnReturns (call : CallId) (answer : Except ProcessError Unit)
  | startReturns (call : CallId) (answer : Except ProcessError Unit)
  | commit (call : CallId)
  | askToStop (call : CallId)
  | stopReturns (call : CallId) (answer : Except ProcessError Unit)
  | cancel (call : CallId)
  | leaveToBackground (call : CallId)
  | check (id : CheckId) (step : Check.Step)
  | dropSignal (id : CheckId)
  | shuffle (nodes : List (String × Node))
  | pass (later : Nat)
  deriving Repr

/-- The network after an action; absent where the action is not possible. Calls are made only on a
network whose construction has succeeded. -/
def step? (network : Network) : Action → Option Network
  | .begin request =>
    match network.standing with
    | .running => some (network.begin request)
    | _ => none
  | .spawnReturns call answer => network.spawnReturns call answer
  | .startReturns call answer => network.startReturns call answer
  | .commit call => network.commit call
  | .askToStop call => network.askToStop call
  | .stopReturns call answer => network.stopReturns call answer
  | .cancel call => some (network.cancel call)
  | .leaveToBackground call => network.leaveToBackground call
  | .check id step => network.stepCheck id step
  | .dropSignal id => some (network.dropSignal id)
  | .shuffle nodes =>
    (network.registry.shuffle? nodes).map fun registry => { network with registry := registry }
  | .pass later => if network.mayPass later then some { network with now := later } else none

/-- Every state that a network of this config can come to. -/
inductive Reachable (config : NetworkConfig) : Network → Prop where
  | constructed : Reachable config (construct config)
  | step {network next : Network} (action : Action) :
      Reachable config network → network.step? action = some next → Reachable config next

end Network

end LocalNet
