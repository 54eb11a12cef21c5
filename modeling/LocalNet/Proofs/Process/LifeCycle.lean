import Mathlib.Data.List.Induction
import LocalNet.Proofs.Process.Execution

/-!
# The life of a local process

A process has not been started, or its child runs, or the child has ended. Calls come in any order and any
number, and the child may end at any time; but the process only ever goes forward through its three states.
What each call answers follows from the state that it finds, and the state from whether a start has
succeeded.
-/

namespace LocalNet

open Files

namespace Machine

variable {machine after : Machine} {plan : LaunchPlan}

theorem open_sink_pid {sink : OutputSink} {output : Shell.Channel} {opened : Machine}
    (done : machine.openSink sink = .ok (output, opened)) : opened.nextPid = machine.nextPid := by
  unfold openSink at done
  split at done
  · cases done
    rfl
  · cases done
    rfl
  · split at done
    · cases done
    · cases done
      rfl

theorem launch_takes_pid {pid : Nat} {fate : Fate}
    (launched : machine.launch plan = (.ok (pid, fate), after)) :
    after.nextPid = machine.nextPid + 1 := by
  unfold launch at launched
  split at launched
  · cases launched
  · rename_i output opened first
    split at launched
    · cases launched
    · rename_i errors ready second
      split at launched
      · cases launched
      · rename_i executed
        cases launched
        have kept : ready.nextPid = machine.nextPid :=
          (open_sink_pid second).trans (open_sink_pid first)
        unfold execute at executed
        split at executed
        · cases executed
        · split at executed
          · cases executed
          · cases executed
          · split at executed
            · cases executed
            · cases executed
              exact congrArg (· + 1) kept

/-- A launch fails while a sink is opened or while the child is made, and takes no number then. -/
theorem launch_refused {reason : ProcessError}
    (refused : machine.launch plan = (.error reason, after)) :
    after.nextPid = machine.nextPid ∧
      ((∃ fault, reason = .spawn fault) ∨ ∃ fault, reason = .io fault) := by
  unfold launch at refused
  split at refused
  · rename_i fault _
    cases refused
    exact ⟨rfl, .inr ⟨fault, rfl⟩⟩
  · rename_i output opened first
    split at refused
    · rename_i fault _
      cases refused
      exact ⟨open_sink_pid first, .inr ⟨fault, rfl⟩⟩
    · rename_i errors ready second
      split at refused
      · rename_i fault _
        cases refused
        exact ⟨(open_sink_pid second).trans (open_sink_pid first), .inl ⟨fault, rfl⟩⟩
      · cases refused

end Machine

def ExitStatus.verdict (status : ExitStatus) : Except ProcessError Unit :=
  if status = .code 0 then .ok () else .error (.exited status)

theorem judged_verdict (name : String) (status : ExitStatus) :
    (LocalProcess.judged name status).1 = status.verdict := by
  unfold LocalProcess.judged ExitStatus.verdict
  by_cases success : status = .code 0
  · simp [success, ExitStatus.isSuccess]
  · have failed : status.isSuccess = false := by
      unfold ExitStatus.isSuccess
      split
      · exact absurd rfl success
      · rfl
    simp [success, failed]

namespace Launched

/-- What may happen to a process: a call, with what the surroundings make of it, or the end of its
child. -/
inductive Happening where
  /-- A start on the machine as it stands then. -/
  | start (machine : Machine)
  /-- A wait that returns. A child that still runs ends meanwhile, with this status. -/
  | wait (status : ExitStatus)
  /-- A stop. A child that still runs is killed, or it ends by itself before the signal comes. -/
  | stop (own : Option ExitStatus)
  | childEnds (status : ExitStatus)

def next (launched : Launched) : Happening → Launched
  | .start machine => (launched.start machine).launched
  | .wait status => { launched with process := (launched.process.wait status).2.1 }
  | .stop own => { launched with process := (launched.process.stop own).2.1 }
  | .childEnds status => { launched with process := launched.process.childEnds status }

def after (launched : Launched) (happenings : List Happening) : Launched :=
  happenings.foldl next launched

/-- How many children are launched when something happens, by the numbers that they take. -/
def launchesBy (launched : Launched) : Happening → Nat
  | .start machine => (launched.start machine).machine.nextPid - machine.nextPid
  | _ => 0

def launches : Launched → List Happening → Nat
  | _, [] => 0
  | launched, happening :: later =>
    launched.launchesBy happening + (launched.next happening).launches later

def Starts (launched : Launched) (happening : Happening) : Prop :=
  ∃ machine, happening = .start machine ∧ (launched.start machine).answer = .ok ()

def Started (launched : Launched) (happenings : List Happening) : Prop :=
  ∃ before happening later, happenings = before ++ happening :: later ∧
    (launched.after before).Starts happening

/-- From now on the child is no longer running, and every wait tells how it ended. -/
def OverWith (launched : Launched) (status : ExitStatus) : Prop :=
  ∀ later, (launched.after later).process.child = some (.ended status) ∧
    ∀ any, ((launched.after later).process.wait any).1 = status.verdict

variable {launched : Launched} {machine : Machine} {status : ExitStatus} {happening : Happening}

/-! ## One thing that happens -/

inductive StartCourse (launched : Launched) (machine : Machine) : Reply → Prop where
  | again {child : Child} {log : List Log.Event} (held : launched.process.child = some child) :
    StartCourse launched machine ⟨.error .alreadyStarted, launched, machine, log⟩
  | succeeds {pid : Nat} {fate : Fate} {after : Machine} {log : List Log.Event}
      (idle : launched.process.child = none)
      (made : machine.launch launched.plan = (.ok (pid, fate), after)) :
    StartCourse launched machine
      ⟨.ok (), { launched with
        process := { launched.process with child := some fate.child }, fate := some fate }, after, log⟩
  | fails {reason : ProcessError} {after : Machine} {log : List Log.Event}
      (idle : launched.process.child = none)
      (refused : machine.launch launched.plan = (.error reason, after)) :
    StartCourse launched machine ⟨.error reason, { launched with fate := none }, after, log⟩

theorem start_course (launched : Launched) (machine : Machine) :
    StartCourse launched machine (launched.start machine) := by
  unfold start
  split
  · rename_i child held
    simp only [LocalProcess.start, held]
    exact .again held
  · rename_i idle
    rcases made : machine.launch launched.plan with ⟨reason | ⟨pid, fate⟩, after⟩
    · simp only [LocalProcess.start, idle, Except.map, Except.toOption]
      exact .fails idle made
    · simp only [LocalProcess.start, idle, Except.map, Except.toOption]
      exact .succeeds idle made

theorem stop_course (launched : Launched) (own : Option ExitStatus) :
    (launched.process.child = none ∧ (launched.process.stop own).1 = .error .notStarted ∧
        launched.next (.stop own) = launched) ∨
      ∃ status, (launched.process.stop own).1 = .ok () ∧
        (launched.next (.stop own)).process.child = some (.ended status) ∧
        (launched.process.child = some .running ∧ status = own.getD .killed ∨
          launched.process.child = some (.ended status)) := by
  unfold next LocalProcess.stop
  cases state : launched.process.child with
  | none => exact .inl ⟨rfl, rfl, rfl⟩
  | some child =>
      cases child with
      | running => exact .inr ⟨_, rfl, by simp [LocalProcess.childEnds, state], .inl ⟨rfl, rfl⟩⟩
      | ended status => exact .inr ⟨status, rfl, state, .inr rfl⟩

theorem wait_course (launched : Launched) (meanwhile : ExitStatus) :
    (launched.process.child = none ∧ (launched.process.wait meanwhile).1 = .error .notStarted ∧
        launched.next (.wait meanwhile) = launched) ∨
      ∃ status, (launched.process.wait meanwhile).1 = status.verdict ∧
        (launched.next (.wait meanwhile)).process.child = some (.ended status) ∧
        (launched.process.child = some .running ∧ status = meanwhile ∨
          launched.process.child = some (.ended status)) := by
  unfold next LocalProcess.wait
  cases state : launched.process.child with
  | none => exact .inl ⟨rfl, rfl, rfl⟩
  | some child =>
      cases child with
      | running =>
          exact .inr ⟨meanwhile, judged_verdict _ _, by simp [LocalProcess.childEnds, state],
            .inl ⟨rfl, rfl⟩⟩
      | ended status => exact .inr ⟨status, judged_verdict _ _, state, .inr rfl⟩

theorem child_there {child : Option Child} {known : Prop}
    (state : child = some .running ∧ known ∨ child = some (.ended status)) : child ≠ none := by
  rcases state with ⟨rfl, -⟩ | rfl <;> simp

/-- Only a start that succeeds launches a child, and it does so where there was none. -/
theorem next_starts (launched : Launched) (happening : Happening) :
    launched.Starts happening ∧ launched.process.child = none ∧
        (launched.next happening).process.child ≠ none ∧ launched.launchesBy happening = 1 ∨
      ¬launched.Starts happening ∧ launched.launchesBy happening = 0 ∧
        ((launched.next happening).process.child = none ↔ launched.process.child = none) := by
  have other (calm : ∀ machine, happening ≠ .start machine) : ¬launched.Starts happening := by
    rintro ⟨machine, rfl, -⟩
    exact calm machine rfl
  cases happening with
  | start machine =>
      have course := start_course launched machine
      simp only [Starts, Happening.start.injEq, exists_eq_left', next, launchesBy]
      generalize launched.start machine = reply at course
      cases course with
      | again held => exact .inr ⟨by simp, Nat.sub_self _, Iff.rfl⟩
      | succeeds idle made =>
          have taken := Machine.launch_takes_pid made
          exact .inl ⟨rfl, idle, by simp, by simp [taken]⟩
      | fails idle refused =>
          have kept := (Machine.launch_refused refused).1
          exact .inr ⟨by simp, by simp [kept], Iff.rfl⟩
  | wait status =>
      refine .inr ⟨other (by simp), rfl, ?_⟩
      rcases wait_course launched status with ⟨-, -, same⟩ | ⟨status, -, ended, state⟩
      · rw [same]
      · simp [ended, child_there state]
  | stop own =>
      refine .inr ⟨other (by simp), rfl, ?_⟩
      rcases stop_course launched own with ⟨-, -, same⟩ | ⟨status, -, ended, state⟩
      · rw [same]
      · simp [ended, child_there state]
  | childEnds status =>
      refine .inr ⟨other (by simp), rfl, ?_⟩
      rw [next]
      unfold LocalProcess.childEnds
      split
      · rename_i running
        simp [running]
      · exact Iff.rfl

theorem next_ended (ended : launched.process.child = some (.ended status))
    (happening : Happening) :
    (launched.next happening).process.child = some (.ended status) := by
  cases happening with
  | start machine =>
      have course := start_course launched machine
      rw [next]
      generalize launched.start machine = reply at course
      cases course with
      | again held => exact ended
      | succeeds idle made => simp [ended] at idle
      | fails idle refused => simp [ended] at idle
  | wait status => simp [next, LocalProcess.wait, ended]
  | stop own => simp [next, LocalProcess.stop, ended]
  | childEnds status => simp [next, LocalProcess.childEnds, ended]

/-! ## All that happens -/

theorem after_ended (ended : launched.process.child = some (.ended status))
    (later : List Happening) : (launched.after later).process.child = some (.ended status) := by
  induction later generalizing launched with
  | nil => exact ended
  | cons happening later induction => exact induction (next_ended ended happening)

theorem over_of_ended (ended : launched.process.child = some (.ended status)) :
    launched.OverWith status := by
  intro later
  have stays := after_ended ended later
  refine ⟨stays, fun any => ?_⟩
  simp only [LocalProcess.wait, stays]
  exact judged_verdict _ status

theorem after_snoc (launched : Launched) (before : List Happening) (happening : Happening) :
    launched.after (before ++ [happening]) = (launched.after before).next happening := by
  simp [after]

theorem launches_snoc (launched : Launched) (before : List Happening) (happening : Happening) :
    launched.launches (before ++ [happening]) =
      launched.launches before + (launched.after before).launchesBy happening := by
  induction before generalizing launched with
  | nil => simp [launches, after]
  | cons first before induction =>
      rw [List.cons_append, launches, launches, induction, Nat.add_assoc]
      rfl

theorem started_snoc (launched : Launched) (before : List Happening) (happening : Happening) :
    launched.Started (before ++ [happening]) ↔
      launched.Started before ∨ (launched.after before).Starts happening := by
  constructor
  · rintro ⟨earlier, found, later, whole, starts⟩
    rcases List.eq_nil_or_concat later with rfl | ⟨rest, last, rfl⟩
    · obtain ⟨rfl, same⟩ := List.append_inj' whole rfl
      cases same
      exact .inr starts
    · rw [List.concat_eq_append, ← List.cons_append, ← List.append_assoc] at whole
      obtain ⟨rfl, -⟩ := List.append_inj' whole rfl
      exact .inl ⟨earlier, found, rest, rfl, starts⟩
  · rintro (⟨earlier, found, later, rfl, starts⟩ | starts)
    · exact ⟨earlier, found, later ++ [happening], by simp, starts⟩
    · exact ⟨before, happening, [], rfl, starts⟩

/-- A process has a child exactly if a start has succeeded, and then just one was launched. -/
theorem started_run (plan : LaunchPlan) (happenings : List Happening) :
    ((ofPlan plan).Started happenings ↔ ((ofPlan plan).after happenings).process.child ≠ none) ∧
      (ofPlan plan).launches happenings =
        if ((ofPlan plan).after happenings).process.child = none then 0 else 1 := by
  induction happenings using List.reverseRecOn with
  | nil => exact ⟨⟨by simp [Started], fun held => absurd rfl held⟩, rfl⟩
  | append_singleton before happening induction =>
      obtain ⟨started, counted⟩ := induction
      rw [started_snoc, launches_snoc, after_snoc, started, counted]
      rcases next_starts ((ofPlan plan).after before) happening with
        ⟨starts, idle, held, one⟩ | ⟨starts, zero, same⟩
      · simp [starts, idle, held, one]
      · simp [starts, zero, same]

theorem next_plan (launched : Launched) (happening : Happening) :
    (launched.next happening).plan = launched.plan := by
  cases happening with
  | start machine =>
      have course := start_course launched machine
      rw [next]
      generalize launched.start machine = reply at course
      cases course <;> rfl
  | wait status => rfl
  | stop own => rfl
  | childEnds status => rfl

theorem after_plan (launched : Launched) (happenings : List Happening) :
    (launched.after happenings).plan = launched.plan := by
  induction happenings generalizing launched with
  | nil => rfl
  | cons happening later induction => exact (induction _).trans (next_plan launched happening)

theorem start_idle (idle : launched.process.child = none) (machine : Machine) :
    (launched.start machine).answer = (machine.launch launched.plan).1.map fun _ => () := by
  have course := start_course launched machine
  generalize launched.start machine = reply at course
  cases course with
  | again held => simp [idle] at held
  | succeeds _ made => rw [made]; rfl
  | fails _ refused => rw [refused]; rfl

theorem start_again_iff (launched : Launched) (machine : Machine) :
    (launched.start machine).answer = .error .alreadyStarted ↔ launched.process.child ≠ none := by
  have course := start_course launched machine
  generalize launched.start machine = reply at course
  cases course with
  | again held => simp [held]
  | succeeds idle made => simp [idle]
  | fails idle refused =>
      rcases (Machine.launch_refused refused).2 with ⟨fault, rfl⟩ | ⟨fault, rfl⟩ <;> simp [idle]

theorem start_failed {reason : ProcessError} (failed : (launched.start machine).answer = .error reason)
    (fresh : reason ≠ .alreadyStarted) :
    ((∃ fault, reason = .spawn fault) ∨ ∃ fault, reason = .io fault) ∧
      ∀ again : Machine, ((launched.start machine).launched.start again).answer =
        (again.launch launched.plan).1.map fun _ => () := by
  have course := start_course launched machine
  generalize launched.start machine = reply at course failed
  cases course with
  | again held =>
      cases failed
      exact absurd rfl fresh
  | succeeds idle made => cases failed
  | fails idle refused =>
      cases failed
      exact ⟨(Machine.launch_refused refused).2,
        fun again => @start_idle { launched with fate := none } idle again⟩

/-- Whatever happened to a process, in whatever order: at most one child was launched. A start comes too
late exactly if an earlier one succeeded, otherwise it comes to what its launch comes to, and if that
fails the next one may still succeed. A wait and a stop ask for a start that succeeded, and for nothing
else. A stop that succeeds and a wait that returns find the child ended or see its end, and every wait
from then on tells that end: the child's own, or the signal of the stop. -/
theorem local_process_life_cycle (plan : LaunchPlan) (happenings : List Happening) :
    let fresh := ofPlan plan
    let reached := fresh.after happenings
    let started := fresh.Started happenings
    (fresh.launches happenings ≤ 1 ∧ (fresh.launches happenings = 1 ↔ started)) ∧
      (∀ machine : Machine,
        ((reached.start machine).answer = .error .alreadyStarted ↔ started) ∧
        (¬started → (reached.start machine).answer = (machine.launch plan).1.map fun _ => ()) ∧
        ∀ reason, (reached.start machine).answer = .error reason → reason ≠ .alreadyStarted →
          ((∃ fault, reason = .spawn fault) ∨ ∃ fault, reason = .io fault) ∧
          ∀ again : Machine, ((reached.start machine).launched.start again).answer =
            (again.launch plan).1.map fun _ => ()) ∧
      (∀ own, ((reached.process.stop own).1 = .error .notStarted ↔ ¬started) ∧
        (started → (reached.process.stop own).1 = .ok ()) ∧
        ((reached.process.stop own).1 = .ok () → ∃ status,
          (reached.next (.stop own)).OverWith status ∧
          (reached.process.child = some .running ∧ status = own.getD (.signal 9) ∨
            reached.process.child = some (.ended status)))) ∧
      ∀ meanwhile, ((reached.process.wait meanwhile).1 = .error .notStarted ↔ ¬started) ∧
        (reached.next (.wait meanwhile)).process.child ≠ some .running ∧
        (started → ∃ status, (reached.process.wait meanwhile).1 = status.verdict ∧
          (reached.next (.wait meanwhile)).OverWith status ∧
          (reached.process.child = some .running ∧ status = meanwhile ∨
            reached.process.child = some (.ended status))) := by
  intro fresh reached started
  obtain ⟨held, counted⟩ := started_run plan happenings
  have planned : reached.plan = plan := after_plan _ _
  change started ↔ reached.process.child ≠ none at held
  change fresh.launches happenings = if reached.process.child = none then 0 else 1 at counted
  refine ⟨?_, fun machine => ⟨?_, ?_, ?_⟩, fun own => ?_, fun meanwhile => ?_⟩
  · rw [held, counted]
    split <;> simp_all
  · rw [held, start_again_iff]
  · rw [held, not_not]
    intro idle
    rw [start_idle idle, planned]
  · intro reason failed late
    rw [← planned]
    exact start_failed failed late
  · rcases stop_course reached own with ⟨idle, answer, -⟩ | ⟨status, answer, ended, state⟩
    · simp [held, idle, answer]
    · have there := child_there state
      simp only [held, answer, there, ne_eq, not_false_eq_true, not_true, reduceCtorEq, true_and,
        forall_const]
      exact ⟨status, over_of_ended ended, state⟩
  · rcases wait_course reached meanwhile with ⟨idle, answer, same⟩ | ⟨status, answer, ended, state⟩
    · simp [held, idle, answer, same]
    · have there := child_there state
      refine ⟨?_, by simp [ended], fun _ => ⟨status, answer, over_of_ended ended, state⟩⟩
      rw [held, answer]
      unfold ExitStatus.verdict
      split <;> simp [there]

def sleeper : LaunchPlan where
  name := "n1"
  program := "/bin/sh"
  args := ["-c", "sleep 9"]
  stdout := .null
  stderr := .null
  directory := "/net"

def withShell : Machine where
  tree := { entries := [(["net"], .directory), (["bin"], .directory),
    (["bin", "sh"], .file [] { executable := true })] }
  base := []
  natives := [(["bin", "sh"], .shell)]

/-- The machine has lost its files when the first start is tried. -/
example :
    let killed := (ofPlan sleeper).after
      [.stop none, .start { withShell with tree := {} }, .start withShell, .stop none]
    ((ofPlan sleeper).launches
      [.stop none, .start { withShell with tree := {} }, .start withShell, .stop none]) = 1 ∧
    (killed.start withShell).answer = .error .alreadyStarted ∧
      (killed.process.wait (.code 0)).1 = .error (.exited (.signal 9)) := by
  decide +kernel

end Launched

end LocalNet
