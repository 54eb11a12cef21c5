import LocalNet.Network.Node

/-!
One health check. Every node of a snapshot is asked again and again until it answers that it is
healthy; the first node that uses up its attempts, the timeout and the caller's token end the check
early. The clock is counted in milliseconds and belongs to whoever runs the check.
-/

namespace LocalNet

inductive Reply where
  | healthy (value : Bool)
  | failed (reason : ApiError)
  /-- The poll breaks down, and the check with it. -/
  | panicked
  deriving DecidableEq, Repr

inductive PollPhase where
  | fresh
  | asking
  | resting (wake : Nat)
  | healthy
  | failed (reason : HealthError)
  deriving DecidableEq, Repr

/-- A node and the polls it has had. With a limit on them their count stays below 2^32; without one
it goes on where a counter of 32 bits would break down. -/
structure Member where
  node : Node
  attempts : Nat := 0
  phase : PollPhase := .fresh
  deriving DecidableEq, Repr

inductive Verdict where
  | healthy
  | failed (reason : HealthError)
  /-- Nobody waits for a verdict any more. -/
  | dismissed
  deriving DecidableEq, Repr

/-- What the machine's clock shows: the seconds since its own zero, and the milliseconds since the
timers were set up. -/
structure ClockReading where
  seconds : Nat
  ticks : Nat
  deriving DecidableEq, Repr

namespace ClockReading

/-- Far more than any run lasts; a duration is cut down to it that would end when the clock can no
longer show the seconds. -/
def farFutureMs : Nat := 86400 * 365 * 30 * 1000

/-- No timer runs past this tick, and so no check does; a pause between two polls that would is not
cut down here, as it outlasts the check. -/
def lastTick : Nat := Nat.pow 2 64 - 3

/-- How long a timer runs that is set to so many seconds. One that ends within the last millisecond
the clock can show is left out: the clock breaks down over it. -/
def timerMs (reading : ClockReading) (seconds : Nat) : Nat :=
  min (if reading.seconds + seconds < Nat.pow 2 63 then seconds * 1000 else farFutureMs)
    (lastTick - reading.ticks)

def deadlineAfter (reading : ClockReading) (now seconds : Nat) : Nat :=
  now + reading.timerMs seconds

end ClockReading

structure Beginning where
  time : Nat
  reading : ClockReading
  deriving DecidableEq, Repr

structure Check where
  config : HealthConfig
  members : List Member
  begun : Option Beginning := none
  cancelled : Bool := false
  dropped : Bool := false
  verdict : Option Verdict := none
  deriving DecidableEq, Repr

namespace Check

/-- So many polls are joined one by one; more of them are joined in the order of the snapshot, so
that an answer waits for every earlier one. -/
def eagerLimit : Nat := 30

def ofSnapshot (config : HealthConfig) (nodes : List Node) (cancelled : Bool) : Check where
  config := config
  members := nodes.map fun node => { node := node }
  cancelled := cancelled

def firstFailure? : List Member → Option HealthError
  | [] => none
  | member :: rest =>
    match member.phase with
    | .failed reason => some reason
    | _ => firstFailure? rest

/-- The outcome of the members in their order, which is open as long as one before it is. -/
def orderedOutcome? : List Member → Option (Except HealthError Unit)
  | [] => some (.ok ())
  | member :: rest =>
    match member.phase with
    | .failed reason => some (.error reason)
    | .healthy => orderedOutcome? rest
    | _ => none

def outcome? (check : Check) : Option (Except HealthError Unit) :=
  if check.members.length ≤ eagerLimit then
    match firstFailure? check.members with
    | some reason => some (.error reason)
    | none => if check.members.all (·.phase = .healthy) then some (.ok ()) else none
  else orderedOutcome? check.members

def isDue (now : Nat) (member : Member) : Bool :=
  match member.phase with
  | .fresh => true
  | .resting wake => wake ≤ now
  | _ => false

def deadline? (check : Check) : Option Nat :=
  check.begun.map fun beginning =>
    beginning.reading.deadlineAfter beginning.time check.config.timeoutSecs.toNat

/-- A check polls from its beginning until its outcome, its verdict or its cancellation. -/
def isPolling (check : Check) : Bool :=
  check.begun.isSome && check.verdict.isNone && !check.cancelled && check.outcome?.isNone

inductive Step where
  | begin (reading : ClockReading)
  | ask (index : Nat)
  | answer (index : Nat) (reply : Reply)
  | conclude
  | expire
  | giveUp
  | dismiss
  deriving DecidableEq, Repr

def target : String := "netrunner::network::health"

def note (level : Log.Level) (message : String) : Log.Event :=
  { level := level, target := target, message := message }

def Member.judged (config : HealthConfig) (now : Nat) (member : Member)
    (answer : Except ApiError Bool) : Member :=
  match answer with
  | .ok true => { member with phase := .healthy }
  | other =>
    if config.maxAttempts ≠ 0 && config.maxAttempts.toNat ≤ member.attempts then
      let reason := match other with
        | .error failure => HealthError.client member.node.name failure.message
        | .ok _ => HealthError.unhealthy member.node.name member.attempts
      { member with phase := .failed reason }
    else { member with phase := .resting (now + config.pollIntervalMs) }

def answerEvent (member : Member) (answer : Except ApiError Bool) : Log.Event :=
  let name := member.node.name
  match answer with
  | .ok true =>
    note .debug ("Node " ++ name ++ " healthy after " ++ toString member.attempts ++ " attempts")
  | .ok false => note .debug ("Node " ++ name ++ " not healthy yet")
  | .error reason => note .debug ("Node " ++ name ++ " health query failed: " ++ reason.message)

def setMember (check : Check) (index : Nat) (member : Member) : Check :=
  { check with members := check.members.set index member }

def receive (now : Nat) (check : Check) (index : Nat) (member : Member) (reply : Reply) :
    Check × List Log.Event :=
  let take := fun (answer : Except ApiError Bool) =>
    (check.setMember index (Member.judged check.config now member answer),
      [answerEvent member answer])
  match reply with
  | .healthy value => take (.ok value)
  | .failed reason => take (.error reason)
  | .panicked => ({ check with verdict := some (.failed .aborted) }, [])

/-- The check after a step, with what it logs; absent where the step is not possible. A poll that
is due comes before the timeout, and the token before both. -/
def step? (now : Nat) (check : Check) : Step → Option (Check × List Log.Event)
  | .begin reading =>
    if check.begun.isNone && check.verdict.isNone then
      some ({ check with begun := some { time := now, reading := reading } },
        [note .info ("Waiting for " ++ toString check.members.length ++
          " nodes to report healthy")])
    else none
  | .ask index =>
    match check.members[index]? with
    | some member =>
      if check.isPolling && isDue now member then
        some (check.setMember index
          { member with attempts := member.attempts + 1, phase := .asking }, [])
      else none
    | none => none
  | .answer index reply =>
    match check.members[index]? with
    | some member =>
      if check.isPolling && member.phase = .asking then
        some (check.receive now index member reply)
      else none
    | none => none
  | .conclude =>
    if check.begun.isSome && check.verdict.isNone && !check.cancelled then
      match check.outcome? with
      | some (.ok ()) =>
        some ({ check with verdict := some .healthy }, [note .info "All nodes healthy"])
      | some (.error reason) =>
        some ({ check with verdict := some (.failed reason) },
          [note .warn ("Health check failed: " ++ reason.message)])
      | none => none
    else none
  | .expire =>
    if check.isPolling && check.deadline?.any (· ≤ now) && !check.members.any (isDue now) then
      let seconds := check.config.timeoutSecs.toNat
      some ({ check with verdict := some (.failed (.timeout seconds)) },
        [note .warn ("Health check timed out after " ++ toString seconds ++ "s")])
    else none
  | .giveUp =>
    if check.begun.isSome && check.verdict.isNone && check.cancelled then
      some ({ check with verdict := some (.failed .cancelled) },
        [note .warn "Health check cancelled"])
    else none
  | .dismiss =>
    if check.verdict.isNone && check.dropped then
      some ({ check with verdict := some .dismissed },
        [{ level := .debug, target := "netrunner::network",
           message := "Health signal dropped, stopping polls" }])
    else none

def isUrgent (now : Nat) (check : Check) : Bool :=
  check.verdict.isNone &&
    (check.begun.isNone || check.cancelled || check.dropped || check.outcome?.isSome ||
      check.members.any (isDue now) || check.deadline?.any (· ≤ now))

def dueTimes (check : Check) : List Nat :=
  if check.verdict.isSome then []
  else
    check.deadline?.toList ++ check.members.filterMap fun member =>
      match member.phase with
      | .resting wake => some wake
      | _ => none

end Check

end LocalNet
