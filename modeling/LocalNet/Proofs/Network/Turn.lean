import LocalNet.Proofs.Network.Registry

/-!
# What a step of a network can do

Every step that concerns a call is a turn of that call: it reads what the call was doing, changes what
all calls share, and leaves the call to its fate. All other steps leave calls and registry alone.
Invariants of networks are proved from this account and do not open the steps again.
-/

namespace LocalNet.Network

/-- What becomes of a call with a turn of it. -/
inductive Fate where
  | goesOn (activity : Activity)
  | ends (outcome : Outcome)
  /-- Nobody waits for the call. -/
  | vanishes
  /-- The call ends, and a new one takes over what it has left. -/
  | handsOver (outcome : Outcome) (activity : Activity)

def settle (network : Network) (call : CallId) : Fate → Network
  | .goesOn activity => network.setActivity call activity
  | .ends outcome => network.finish call outcome
  | .vanishes => network.vanish call
  | .handsOver outcome activity =>
    ({ network with nextCall := network.nextCall + 1 }.finish call outcome).setActivity
      network.nextCall activity

def removalOutcome (name : String) : Except ProcessError Unit → Outcome
  | .ok () => .done
  | .error reason => .failed (processFault name reason)

def keptError (node : Node) (firstError : Option NetworkError) :
    Except ProcessError Unit → Option NetworkError
  | .ok () => firstError
  | .error reason => firstError <|> some (processFault node.name reason)

/-- How a launch fails: with the action that tells, the instances there are then, and what has
happened. -/
inductive LaunchFails (network : Network) (call : CallId) (launch : Launch) :
    Action → ProcessError → Nat → List Happening → Prop where
  | spawn {reason : ProcessError} (waiting : launch.spawned = none) :
    LaunchFails network call launch (.spawnReturns call (.error reason)) reason
      (network.nextInstance + 1)
      (.spawned launch.config launch.args :: network.happenings)
  | start {reason : ProcessError} {instanceId : Nat} (spawned : launch.spawned = some instanceId) :
    LaunchFails network call launch (.startReturns call (.error reason)) reason
      network.nextInstance
      (.startFailed launch.config.name instanceId :: network.happenings)

/-- What has happened once the process of a launch has started. -/
def startedHappenings (network : Network) (launch : Launch) (instanceId : Nat) : List Happening :=
  .client instanceId (network.nodeOf launch instanceId).client ::
    .started launch.config.name instanceId :: network.happenings

def stoppedHappenings (network : Network) (node : Node) : List Happening :=
  .stopped node.name node.instanceId :: network.happenings

/-- A turn of a call: the action that is taken, the network with everything changed that calls
share, and the fate of the call. -/
inductive Turn (network : Network) : CallId → Action → Network → Fate → Prop where
  | refused {request : Request} {reason : NetworkError} {log : List Log.Event}
      (running : network.standing = .running)
      (refusal : network.registry.refusal? request = some reason) :
    Turn network network.nextCall (.begin request)
      { network with nextCall := network.nextCall + 1, log := log }
      (.ends (.failed reason))
  | answered {request : Request} {outcome : Outcome} {checks : List (CheckId × Check)}
      {log : List Log.Event}
      (running : network.standing = .running)
      (opened : network.registry.stopped = false)
      (answer : network.registry.answer? network.nextCall request = some outcome)
      (watched : ∀ id ∈ checks.map Prod.fst,
        id = network.nextCall ∨ id ∈ network.checks.map Prod.fst) :
    Turn network network.nextCall (.begin request)
      { network with nextCall := network.nextCall + 1, checks := checks, log := log }
      (.ends outcome)
  | reserved {config resolved : NodeConfig} {args : List String} {names : NameAllocator}
      {log : List Log.Event}
      (running : network.standing = .running)
      (opened : network.registry.stopped = false)
      (judged : validateAddedNode config network.registry.taken network.registry.names =
        (.ok resolved, names)) :
    Turn network network.nextCall (.begin (.add config args))
      { network with
        nextCall := network.nextCall + 1, log := log,
        registry := { network.registry with
          names := names, pending := resolved.name :: network.registry.pending } }
      (.goesOn (.adding (launchOf resolved args)))
  | taken {name : String} {node : Node} {log : List Log.Event}
      (running : network.standing = .running)
      (opened : network.registry.stopped = false)
      (found : network.registry.find? name = some node) :
    Turn network network.nextCall (.begin (.remove name))
      { network with
        nextCall := network.nextCall + 1, log := log,
        registry := { network.registry with
          nodes := network.registry.nodes.filter (·.1 ≠ name) } }
      (.goesOn (.removing name node))
  | drained {cancelled : Bool} {log : List Log.Event}
      (running : network.standing = .running)
      (opened : network.registry.stopped = false)
      (some : network.registry.nodes ≠ []) :
    Turn network network.nextCall (.begin (.stop cancelled))
      { network with
        nextCall := network.nextCall + 1, log := log,
        registry := { network.registry with nodes := [], stopped := true } }
      (.goesOn (.stopping (network.registry.nodes.map Prod.snd) false cancelled none))
  | drainedNone {cancelled : Bool} {log : List Log.Event}
      (running : network.standing = .running)
      (opened : network.registry.stopped = false)
      (none : network.registry.nodes = []) :
    Turn network network.nextCall (.begin (.stop cancelled))
      { network with
        nextCall := network.nextCall + 1, log := log,
        registry := { network.registry with nodes := [], stopped := true } }
      (.ends .done)
  | spawnedBuilding {launch : Launch} {rest : List NodeConfig}
      (busy : network.activity? constructionCall = some (.building launch rest))
      (waiting : launch.spawned = none) :
    Turn network constructionCall (.spawnReturns constructionCall (.ok ()))
      { network with
        nextInstance := network.nextInstance + 1,
        happenings := .spawned launch.config launch.args :: network.happenings }
      (.goesOn (.building { launch with spawned := some network.nextInstance } rest))
  | spawnedAdding {call : CallId} {launch : Launch}
      (busy : network.activity? call = some (.adding launch))
      (waiting : launch.spawned = none) :
    Turn network call (.spawnReturns call (.ok ()))
      { network with
        nextInstance := network.nextInstance + 1,
        happenings := .spawned launch.config launch.args :: network.happenings }
      (.goesOn (.adding { launch with spawned := some network.nextInstance }))
  | buildFailed {launch : Launch} {rest : List NodeConfig} {action : Action}
      {reason : ProcessError} {nextInstance : Nat} {happenings : List Happening}
      {log : List Log.Event}
      (busy : network.activity? constructionCall = some (.building launch rest))
      (fails : LaunchFails network constructionCall launch action reason nextInstance happenings)
      (some : network.registry.nodes ≠ []) :
    Turn network constructionCall action
      { network with
        nextInstance := nextInstance, happenings := happenings, log := log,
        registry := { network.registry with nodes := [] } }
      (.goesOn (.unbuilding (network.registry.nodes.map Prod.snd)
        (processFault launch.config.name reason)))
  | buildFailedAlone {launch : Launch} {rest : List NodeConfig} {action : Action}
      {reason : ProcessError} {nextInstance : Nat} {happenings : List Happening}
      {log : List Log.Event}
      (busy : network.activity? constructionCall = some (.building launch rest))
      (fails : LaunchFails network constructionCall launch action reason nextInstance happenings)
      (none : network.registry.nodes = []) :
    Turn network constructionCall action
      { network with
        nextInstance := nextInstance, happenings := happenings, log := log,
        registry := { network.registry with nodes := [] },
        standing := .refused (processFault launch.config.name reason) }
      (.ends (.failed (processFault launch.config.name reason)))
  | addFailed {call : CallId} {launch : Launch} {action : Action} {reason : ProcessError}
      {nextInstance : Nat} {happenings : List Happening}
      (busy : network.activity? call = some (.adding launch))
      (fails : LaunchFails network call launch action reason nextInstance happenings) :
    Turn network call action
      { network with nextInstance := nextInstance, happenings := happenings }
      (.goesOn (.committing launch.config.name
        (.error (processFault launch.config.name reason))))
  | built {launch : Launch} {instanceId : Nat} {next : NodeConfig} {rest : List NodeConfig}
      {log : List Log.Event}
      (busy : network.activity? constructionCall = some (.building launch (next :: rest)))
      (spawned : launch.spawned = some instanceId) :
    Turn network constructionCall (.startReturns constructionCall (.ok ()))
      { network with
        happenings := network.startedHappenings launch instanceId, log := log,
        registry := network.registry.insert launch.config.name
          (network.nodeOf launch instanceId) }
      (.goesOn (.building (launchOf next []) rest))
  | builtLast {launch : Launch} {instanceId : Nat} {log : List Log.Event}
      (busy : network.activity? constructionCall = some (.building launch []))
      (spawned : launch.spawned = some instanceId) :
    Turn network constructionCall (.startReturns constructionCall (.ok ()))
      { network with
        happenings := network.startedHappenings launch instanceId, log := log,
        registry := network.registry.insert launch.config.name
          (network.nodeOf launch instanceId),
        standing := .running }
      (.ends .done)
  | started {call : CallId} {launch : Launch} {instanceId : Nat}
      (busy : network.activity? call = some (.adding launch))
      (spawned : launch.spawned = some instanceId) :
    Turn network call (.startReturns call (.ok ()))
      { network with happenings := network.startedHappenings launch instanceId }
      (.goesOn (.committing launch.config.name (.ok (network.nodeOf launch instanceId))))
  | registered {call : CallId} {name : String} {node : Node} {log : List Log.Event}
      (busy : network.activity? call = some (.committing name (.ok node)))
      (opened : network.registry.stopped = false) :
    Turn network call (.commit call)
      { network with registry := (network.registry.giveBack name).insert name node, log := log }
      (.ends (.node node))
  | tooLate {call : CallId} {name : String} {node : Node} {log : List Log.Event}
      (busy : network.activity? call = some (.committing name (.ok node)))
      (stopped : network.registry.stopped = true) :
    Turn network call (.commit call)
      { network with registry := network.registry.giveBack name, log := log }
      (.goesOn (.withdrawing node))
  | lost {call : CallId} {name : String} {reason : NetworkError}
      (busy : network.activity? call = some (.committing name (.error reason))) :
    Turn network call (.commit call)
      { network with registry := network.registry.giveBack name }
      (.ends (.failed reason))
  | asked {call : CallId} {nodes : List Node} {firstError : Option NetworkError}
      (busy : network.activity? call = some (.stopping nodes false false firstError)) :
    Turn network call (.askToStop call) network
      (.goesOn (.stopping nodes true false firstError))
  | unbuilt {node next : Node} {rest : List Node} {reason : NetworkError}
      {answer : Except ProcessError Unit} {log : List Log.Event}
      (busy : network.activity? constructionCall =
        some (.unbuilding (node :: next :: rest) reason)) :
    Turn network constructionCall (.stopReturns constructionCall answer)
      { network with happenings := network.stoppedHappenings node, log := log }
      (.goesOn (.unbuilding (next :: rest) reason))
  | unbuiltLast {node : Node} {reason : NetworkError} {answer : Except ProcessError Unit}
      {log : List Log.Event}
      (busy : network.activity? constructionCall = some (.unbuilding [node] reason)) :
    Turn network constructionCall (.stopReturns constructionCall answer)
      { network with
        happenings := network.stoppedHappenings node, log := log, standing := .refused reason }
      (.ends (.failed reason))
  | withdrawn {call : CallId} {node : Node} {answer : Except ProcessError Unit}
      {log : List Log.Event}
      (busy : network.activity? call = some (.withdrawing node)) :
    Turn network call (.stopReturns call answer)
      { network with happenings := network.stoppedHappenings node, log := log }
      (.ends (.failed .stopped))
  | removed {call : CallId} {name : String} {node : Node} {answer : Except ProcessError Unit}
      {log : List Log.Event}
      (busy : network.activity? call = some (.removing name node)) :
    Turn network call (.stopReturns call answer)
      { network with happenings := network.stoppedHappenings node, log := log }
      (.ends (removalOutcome name answer))
  | stopped {call : CallId} {node next : Node} {rest : List Node}
      {firstError : Option NetworkError} {answer : Except ProcessError Unit}
      {log : List Log.Event}
      (busy : network.activity? call =
        some (.stopping (node :: next :: rest) true false firstError)) :
    Turn network call (.stopReturns call answer)
      { network with happenings := network.stoppedHappenings node, log := log }
      (.goesOn (.stopping (next :: rest) false false (keptError node firstError answer)))
  | stoppedLast {call : CallId} {node : Node} {firstError : Option NetworkError}
      {answer : Except ProcessError Unit} {log : List Log.Event}
      (busy : network.activity? call = some (.stopping [node] true false firstError)) :
    Turn network call (.stopReturns call answer)
      { network with happenings := network.stoppedHappenings node, log := log }
      (.ends ((keptError node firstError answer).elim .done .failed))
  | cleared {call : CallId} {node next : Node} {rest : List Node}
      {answer : Except ProcessError Unit} {log : List Log.Event}
      (busy : network.activity? call = some (.clearing (node :: next :: rest))) :
    Turn network call (.stopReturns call answer)
      { network with happenings := network.stoppedHappenings node, log := log }
      (.goesOn (.clearing (next :: rest)))
  | clearedLast {call : CallId} {node : Node} {answer : Except ProcessError Unit}
      {log : List Log.Event}
      (busy : network.activity? call = some (.clearing [node])) :
    Turn network call (.stopReturns call answer)
      { network with happenings := network.stoppedHappenings node, log := log }
      .vanishes
  | cancelled {call : CallId} {nodes : List Node} {asked known : Bool}
      {firstError : Option NetworkError}
      (busy : network.activity? call = some (.stopping nodes asked known firstError)) :
    Turn network call (.cancel call) network
      (.goesOn (.stopping nodes asked true firstError))
  | left {call : CallId} {nodes : List Node} {asked : Bool} {firstError : Option NetworkError}
      {log : List Log.Event}
      (busy : network.activity? call = some (.stopping nodes asked true firstError)) :
    Turn network call (.leaveToBackground call) { network with log := log }
      (.handsOver (.failed .cancelled) (.clearing nodes))

/-- A poll that one of these checks has begun; nothing else happens without a call. -/
def Happening.IsPoll (checks : List CheckId) : Happening → Prop
  | .polled check .. => check ∈ checks
  | _ => False

def Action.call? : Action → Option CallId
  | .spawnReturns call _ => some call
  | .startReturns call _ => some call
  | .commit call => some call
  | .askToStop call => some call
  | .stopReturns call _ => some call
  | .leaveToBackground call => some call
  | _ => none

def Action.IsAside : Action → Prop
  | .cancel _ => True
  | .check .. => True
  | .dropSignal _ => True
  | .pass _ => True
  | _ => False

/-- Every step of a network. -/
inductive Move (network : Network) : Action → Network → Prop where
  | turn {call : CallId} {action : Action} {shared : Network} {fate : Fate}
      (turn : Turn network call action shared fate) :
    Move network action (shared.settle call fate)
  /-- Checks go on, and time passes. -/
  | aside {action : Action} {polls : List Happening} {checks : List (CheckId × Check)} {now : Nat}
      {log : List Log.Event} (aside : action.IsAside)
      (watched : checks.map Prod.fst = network.checks.map Prod.fst)
      (onlyPolls : ∀ happening ∈ polls,
        Happening.IsPoll (network.checks.map Prod.fst) happening) :
    Move network action
      { network with
        checks := checks, now := now, log := log, happenings := polls ++ network.happenings }
  | shuffled {nodes : List (String × Node)} (same : nodes.Perm network.registry.nodes) :
    Move network (.shuffle nodes)
      { network with registry := { network.registry with nodes := nodes } }

end LocalNet.Network
