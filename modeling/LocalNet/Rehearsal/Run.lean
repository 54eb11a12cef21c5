import LocalNet.Rehearsal.Stage

/-!
A run of a network on a stage. Operations and checks take turns in the order in which they became
ready, and go on until they wait; when all of them wait, the clock jumps to the next moment at which
something is due. What happens to the network happens by its own steps.
-/

namespace LocalNet.Rehearsal

inductive Task where
  | call (id : CallId)
  | check (id : CheckId)
  /-- Fires the token of an operation or of a check. -/
  | token (id : CallId)
  /-- Wakes nobody; the clock does not jump past it. -/
  | alarm
  deriving DecidableEq, Repr

/-- What a task that has asked for something waits for. -/
inductive Waiting where
  | gated (name : String) (delayMs : Option Nat)
  | until (due : Nat)
  | forever
  deriving DecidableEq, Repr

structure Awaited (α : Type) where
  waiting : Waiting
  answer : α
  deriving Repr

/-- A task to be woken, in the order in which wakings were asked for. -/
structure Timer where
  due : Nat
  task : Task
  deriving DecidableEq, Repr

structure Run (σ : Type) where
  network : Network
  world : σ
  ready : List Task := []
  timers : List Timer := []
  /-- Operations that wait for a process. -/
  processes : List (CallId × Awaited (Except ProcessError Unit)) := []
  /-- Members of checks that wait for a reply. -/
  polls : List ((CheckId × Nat) × Awaited Reply) := []
  /-- Released names that no start has used yet. -/
  released : List String := []
  /-- What the network and the stage have logged, latest first. -/
  log : List Log.Event := []

namespace Run

variable {σ : Type}

def record (run : Run σ) (events : List Log.Event) : Run σ :=
  { run with log := events.reverse ++ run.log }

def events (run : Run σ) : List Log.Event :=
  run.log.reverse

/-- Puts a network in the place of the one before, and takes its log over. -/
def adopt (run : Run σ) (network : Network) : Run σ :=
  let (events, rest) := network.takeLog
  { run with network := rest }.record events

def act (run : Run σ) (action : Network.Action) : Option (Run σ) :=
  (run.network.step? action).map run.adopt

def wake (run : Run σ) (task : Task) : Run σ :=
  if run.ready.contains task then run else { run with ready := run.ready ++ [task] }

def wakeAt (run : Run σ) (due : Nat) (task : Task) : Run σ :=
  { run with timers := run.timers ++ [⟨due, task⟩] }

def arrival (now : Nat) : Option Nat → Waiting
  | none => .forever
  | some delay => .until (now + delay)

def await {α : Type} (run : Run σ) (pledge : Pledge α) : Awaited α :=
  match pledge.gate with
  | some name => ⟨.gated name pledge.delayMs, pledge.answer⟩
  | none => ⟨arrival run.network.now pledge.delayMs, pledge.answer⟩

def wakeFor (run : Run σ) (waiting : Waiting) (task : Task) : Run σ :=
  match waiting with
  | .until due => if run.network.now < due then run.wakeAt due task else run
  | _ => run

def arrived (run : Run σ) : Waiting → Bool
  | .until due => due ≤ run.network.now
  | _ => false

def setProcess (run : Run σ) (call : CallId) (awaited : Awaited (Except ProcessError Unit)) :
    Run σ :=
  { run with processes := (call, awaited) :: run.processes.filter (·.1 ≠ call) }

def dropProcess (run : Run σ) (call : CallId) : Run σ :=
  { run with processes := run.processes.filter (·.1 ≠ call) }

/-- The network's own events are logged within its span where they are made; a stage that is asked
by the network speaks there too. -/
def spansOf (run : Run σ) (call : CallId) : List Log.Span :=
  match run.network.activity? call with
  | some (.building ..) => [run.network.span]
  | some (.unbuilding ..) => [run.network.span]
  | some (.clearing ..) => [run.network.span]
  | _ => []

def taken {α : Type} (run : Run σ) (spans : List Log.Span) (play : Play σ α) : Run σ :=
  { run with world := play.world }.record
    (play.log.map fun (event : Log.Event) => event.within spans)

def awaitProcess (run : Run σ) (call : CallId)
    (ask : σ → Play σ (Pledge (Except ProcessError Unit)))
    (returns : Except ProcessError Unit → Network.Action) : Option (Run σ) :=
  match run.processes.lookup call with
  | none =>
    let play := ask run.world
    let asked := run.taken (run.spansOf call) play
    let awaited := asked.await play.answer
    some ((asked.setProcess call awaited).wakeFor awaited.waiting (.call call))
  | some ⟨.gated name delay, answer⟩ =>
    if run.released.contains name then
      let waiting := arrival run.network.now delay
      let opened := { run with released := run.released.erase name }
      some ((opened.setProcess call ⟨waiting, answer⟩).wakeFor waiting (.call call))
    else none
  | some ⟨waiting, answer⟩ =>
    if run.arrived waiting then (run.dropProcess call).act (returns answer) else none

def goOnCall (stage : Stage σ) (run : Run σ) (call : CallId) : Option (Run σ) :=
  match run.network.activity? call with
  | none => none
  | some activity =>
    match activity.launch? with
    | some launch =>
      match launch.spawned with
      | none =>
        let play := stage.spawn run.world launch.config launch.args run.network.nextInstance
        (run.taken (run.spansOf call) play).act (.spawnReturns call play.answer)
      | some instanceId =>
        run.awaitProcess call (fun world => stage.start world instanceId) (.startReturns call)
    | none =>
      let stopNode := fun (_ : Unit) =>
        activity.stopping?.bind fun node =>
          run.awaitProcess call (fun world => stage.stop world node.instanceId) (.stopReturns call)
      match activity with
      | .committing .. => run.act (.commit call)
      | .stopping _ _ true _ =>
        ((run.dropProcess call).act (.leaveToBackground call)).map fun left =>
          left.wake (.call run.network.nextCall)
      | .stopping _ false false _ => run.act (.askToStop call)
      | _ => stopNode ()

/-- The first member of a check that can be asked or answered. -/
def memberStep? (run : Run σ) (id : CheckId) (check : Check) : Option (Nat × Option Reply) :=
  (check.members.zipIdx.findSome? fun (member, index) =>
    if Check.isDue run.network.now member then some (index, none)
    else
      match run.polls.lookup (id, index) with
      | some ⟨waiting, reply⟩ => if run.arrived waiting then some (index, some reply) else none
      | none => none)

def wakeMember (run : Run σ) (id : CheckId) (index : Nat) : Run σ :=
  match (run.network.check? id).bind (·.members[index]?) with
  | some { phase := .resting due, .. } => run.wakeAt due (.check id)
  | _ => run

def goOnMember (stage : Stage σ) (run : Run σ) (id : CheckId) (check : Check) :
    Option (Run σ) :=
  match run.memberStep? id check with
  | none => none
  | some (index, none) =>
    match check.members[index]? with
    | none => none
    | some member =>
      (run.act (.check id (.ask index))).map fun begun =>
        let play := stage.ask begun.world member.node
        let asked := begun.taken [begun.network.span] play
        let awaited := asked.await play.answer
        { asked with polls := ((id, index), awaited) :: asked.polls }.wakeFor awaited.waiting
          (.check id)
  | some (index, some reply) =>
    ({ run with polls := run.polls.filter (·.1 ≠ (id, index)) }.act
      (.check id (.answer index reply))).map fun (answered : Run σ) => answered.wakeMember id index

/-- The clock of a machine that had been up for a second when the run was set up. -/
def clock (run : Run σ) : ClockReading where
  seconds := 1 + run.network.now / 1000
  ticks := run.network.now

/-- One step of a check. The token comes first, then what the polls have come to, then the polls,
and the timeout last. -/
def goOnCheck (stage : Stage σ) (run : Run σ) (id : CheckId) : Option (Run σ) :=
  match run.network.check? id with
  | none => none
  | some check =>
    if check.verdict.isSome then none
    else if check.begun.isNone then
      (run.act (.check id (.begin run.clock))).map fun begun =>
        match (begun.network.check? id).bind Check.deadline? with
        | some due => begun.wakeAt due (.check id)
        | none => begun
    else
      run.act (.check id .giveUp) <|> run.act (.check id .dismiss) <|>
        run.act (.check id .conclude) <|> run.goOnMember stage id check <|>
        run.act (.check id .expire)

def goOn (stage : Stage σ) (run : Run σ) : Task → Option (Run σ)
  | .call id => run.goOnCall stage id
  | .check id => run.goOnCheck stage id
  | .token _ => none
  | .alarm => none

/-- The task at the head of the queue takes a step, or leaves the queue. -/
def turn (stage : Stage σ) (run : Run σ) : Option (Run σ) :=
  match run.ready with
  | [] => none
  | .token id :: rest =>
    ({ run with ready := rest }.act (.cancel id)).map fun (fired : Run σ) =>
      (fired.wake (.call id)).wake (.check id)
  | task :: rest => some ((run.goOn stage task).getD { run with ready := rest })

def nextDue? (run : Run σ) : Option Nat :=
  (run.timers.map Timer.due).min?

/-- The clock jumps to a moment, and everything that is due then is woken. -/
def passTo (run : Run σ) (later : Nat) : Option (Run σ) :=
  (run.act (.pass later)).map fun passed =>
    let due := passed.timers.filter (·.due ≤ later)
    due.foldl (fun woken timer => woken.wake timer.task)
      { passed with timers := passed.timers.filter (later < ·.due) }

/-- Goes on until the run is as wanted, or the clock would pass `limit`. The clock moves only when
every task waits. -/
def goUntil (stage : Stage σ) (run : Run σ) (wanted : Run σ → Bool) (limit : Nat) :
    (fuel : Nat) → Run σ
  | 0 => run
  | fuel + 1 =>
    if wanted run then run
    else
      match run.turn stage with
      | some next => goUntil stage next wanted limit fuel
      | none =>
        match run.nextDue? with
        | none => run
        | some due =>
          if limit < due then run
          else
            match run.passTo due with
            | some next => goUntil stage next wanted limit fuel
            | none => run

/-- More steps than any sensible run takes before it waits for good. -/
def patience : Nat := 100000000

/-- What takes a year longer counts as never ending. -/
def yearMs : Nat := 365 * 86400 * 1000

/-- Goes on until the run is as wanted, or a year has passed. -/
def reach (stage : Stage σ) (wanted : Run σ → Bool) (run : Run σ) : Run σ :=
  run.goUntil stage wanted (run.network.now + yearMs) patience

def settle (stage : Stage σ) (run : Run σ) : Run σ :=
  run.goUntil stage (fun _ => false) run.network.now patience

def reachWithin (stage : Stage σ) (wanted : Run σ → Bool) (ms : Nat) (run : Run σ) : Run σ :=
  let due := run.network.now + ms
  (run.wakeAt due .alarm).goUntil stage (fun later => wanted later || due ≤ later.network.now) due
    patience

def construct (stage : Stage σ) (world : σ) (config : NetworkConfig) : Run σ :=
  let network := Network.construct config
  let run : Run σ := { network := network, world := world }
  (((run.adopt network).wake (.call Network.constructionCall)).reach stage
    fun later => later.network.standing ≠ .constructing).settle stage

end Run

end LocalNet.Rehearsal
