import TieredMemory.Duration
import TieredMemory.Keyed
import TieredMemory.Notice
import TieredMemory.Order

/-!
# The scheduler

A table of jobs that run once or again and again. A *pass* calls every job that is due when the pass
begins, the most urgent ones first, one after another. A call that is awaited lets other things go on
meanwhile, and if it takes longer than its job allows, it is given up; one that is not awaited holds
everything up until it ends. A started scheduler makes a pass at once and one a tick after the end of
each.

A job is told from later jobs of the same name in the table by its serial number, so that the end of
a call is entered for the job that was called, if that is still in the table.
-/

namespace TieredMemory

/-- How urgent a job is. -/
inductive Priority where
  | low
  | normal
  | high
  deriving Repr, DecidableEq

/-- The greater, the more urgent. -/
def Priority.rank : Priority → Nat
  | low => 1
  | normal => 2
  | high => 3

/-- The written name of a priority. -/
def Priority.name : Priority → String
  | low => "LOW"
  | normal => "NORMAL"
  | high => "HIGH"

/-- The priority of a written name. -/
def Priority.ofName? : String → Option Priority
  | "LOW" => some low
  | "NORMAL" => some normal
  | "HIGH" => some high
  | _ => none

/-- How a call ends. -/
inductive Ending where
  | done
  | failed (why : Fault)
  /-- It ran out of time. -/
  | timedOut
  deriving Repr, DecidableEq

/-- What is asked for when a job is added. -/
structure JobSpec (κ : Type) where
  id : String
  name : String
  /-- What is called. -/
  call : κ
  /-- The time from the end of a call to the next; none for a job that runs once. -/
  interval : Option Duration := none
  priority : Priority := .normal
  /-- The time until the first call. -/
  delay : Duration := 0
  /-- Seconds that a call may take. -/
  timeout : Option Decimal.Amount := none

/-- What a call does to the table. -/
inductive TableChange (κ : Type) where
  | add (spec : JobSpec κ)
  | remove (id : String)

/-- How long a call takes. -/
inductive Pace where
  /-- It is not awaited: nothing else happens until it ends, and it cannot run out of time. -/
  | blocking (d : Duration)
  /-- It is awaited while other things go on. -/
  | awaited (d : Duration)
  deriving Repr, DecidableEq

/-- The call is awaited. -/
def Pace.isAwaited : Pace → Bool
  | .blocking _ => false
  | .awaited _ => true

/-- The course that a call takes. -/
structure Course (κ : Type) where
  /-- What it does to the table when it begins. -/
  changes : List (TableChange κ) := []
  pace : Pace := .blocking 0
  ending : Ending := .done

/-- Something that can be called. -/
class Callable (κ : Type) where
  course : κ → Course κ

/-- A job in the table. -/
structure Job (κ : Type) where
  serial : Nat
  id : String
  name : String
  call : κ
  interval : Option Duration
  priority : Priority
  timeout : Option Decimal.Amount
  nextRun : Time
  lastRun : Option Time := none
  runs : Nat := 0
  failures : Nat := 0
  isRunning : Bool := false

/-- A call that is going on. -/
structure Execution (κ : Type) where
  job : Job κ
  endsAt : Time
  ending : Ending

/-- How far a call has come that has begun. -/
inductive Begun (κ : Type) where
  /-- It ended at the time. -/
  | over (time : Time)
  /-- It goes on. -/
  | underway (e : Execution κ)

/-- What the loop of the scheduler is doing. -/
inductive Loop (κ : Type) where
  | stopped
  /-- Started, but without a pass so far. -/
  | starting
  /-- Between two passes. -/
  | sleeping (wakeAt : Time)
  /-- In a pass, with the jobs still to be called. -/
  | calling (current : Execution κ) (waiting : List (Job κ))

/-- A table of jobs and the loop that calls them. -/
structure Scheduler (κ : Type) where
  tick : Duration := second
  jobs : List (Job κ) := []
  /-- How many jobs have been added. -/
  serials : Nat := 0
  loop : Loop κ := .stopped

/-- What can be seen of a scheduler at work. -/
inductive Happening (κ : Type) where
  | called (call : κ) (time : Time)
  | finished (call : κ) (time : Time)
  | reported (notice : Notice)

namespace Job

/-- The job is due. -/
def isDue {κ : Type} (now : Time) (j : Job κ) : Bool := !j.isRunning && j.nextRun ≤ now

/-- The job after a call. -/
def afterCall {κ : Type} (now : Time) (ending : Ending) (j : Job κ) : Job κ :=
  { j with
    isRunning := false
    runs := j.runs + 1
    lastRun := some now
    failures := if ending = .done then j.failures else j.failures + 1
    nextRun := (j.interval.map fun i => now + i).getD j.nextRun }

/-- The notice of a call that did not end well. -/
def notice? {κ : Type} (j : Job κ) : Ending → Option Notice
  | .done => none
  | .failed why => some (.jobFailed j.name why)
  | .timedOut => some (.jobTimedOut j.name j.timeout)

/-- When an awaited call ends that takes some time, and how: it is given up when its time runs out,
which it does before the call can end at the same moment. -/
def outcome {κ : Type} (j : Job κ) (now : Time) (takes : Duration) (ending : Ending) :
    Time × Ending :=
  match j.timeout.bind Decimal.Amount.timer? with
  | some limit =>
    if limit ≤ takes then (now + max limit 0, .timedOut) else (now + max takes 0, ending)
  | none => (now + max takes 0, ending)

end Job

namespace Scheduler

variable {κ : Type}

/-- Add a job, in the place of the one with its identifier. -/
def add (now : Time) (spec : JobSpec κ) (s : Scheduler κ) : Scheduler κ :=
  { s with
    jobs := Keyed.put Job.id {
      serial := s.serials, id := spec.id, name := spec.name, call := spec.call
      interval := spec.interval, priority := spec.priority, timeout := spec.timeout
      nextRun := now + spec.delay } s.jobs
    serials := s.serials + 1 }

/-- The job with the identifier. -/
def get? (id : String) (s : Scheduler κ) : Option (Job κ) := Keyed.find? Job.id id s.jobs

/-- Remove the job with the identifier, and say whether there was one. -/
def remove (id : String) (s : Scheduler κ) : Bool × Scheduler κ :=
  ((s.get? id).isSome, { s with jobs := Keyed.remove Job.id id s.jobs })

/-- The jobs in the order of their next calls. -/
def upcoming (s : Scheduler κ) : List (Job κ) := ascending (fun a b => a.nextRun < b.nextRun) s.jobs

/-- The jobs that are due, the most urgent ones first. -/
def due (now : Time) (s : Scheduler κ) : List (Job κ) :=
  descending (fun a b => a.priority.rank < b.priority.rank) (s.jobs.filter (Job.isDue now))

/-- The scheduler has been started and not been stopped. -/
def isRunning (s : Scheduler κ) : Bool :=
  match s.loop with
  | .stopped => false
  | _ => true

/-- Change a job that is still in the table. -/
def enter (serial : Nat) (f : Job κ → Job κ) (s : Scheduler κ) : Scheduler κ :=
  { s with jobs := Keyed.update Job.serial serial f s.jobs }

/-- Make the changes of a call to the table. -/
def apply (now : Time) (s : Scheduler κ) : TableChange κ → Scheduler κ
  | .add spec => s.add now spec
  | .remove id => (s.remove id).2

/-- Enter the end of a call. A job that runs once gives up its place in the table. -/
def finish (now : Time) (j : Job κ) (ending : Ending) (s : Scheduler κ) : Scheduler κ :=
  let s := s.enter j.serial (Job.afterCall now ending)
  match j.interval with
  | some _ => s
  | none => (s.remove j.id).2

/-- What the end of a call shows. A call that is not awaited shows no end. -/
def endHappenings (now : Time) (j : Job κ) (isAwaited : Bool) (ending : Ending) :
    List (Happening κ) :=
  (if isAwaited ∧ ending = .done then [.finished j.call now] else [])
    ++ ((j.notice? ending).map Happening.reported).toList

/-- Begin the call of a job. It is over when it gives control back, or an execution is going on. -/
def call [Callable κ] (now : Time) (j : Job κ) (s : Scheduler κ) :
    Begun κ × List (Happening κ) × Scheduler κ :=
  let course := Callable.course j.call
  let s := course.changes.foldl (apply now) (s.enter j.serial fun j => { j with isRunning := true })
  match course.pace with
  | .blocking d =>
    let now' := now + max d 0
    (.over now', .called j.call now :: endHappenings now' j false course.ending,
      s.finish now' j course.ending)
  | .awaited d =>
    let (endsAt, ending) := j.outcome now d course.ending
    (.underway ⟨j, endsAt, ending⟩, [.called j.call now], s)

/-- Enter the end of an execution. -/
def complete (now : Time) (e : Execution κ) (s : Scheduler κ) : List (Happening κ) × Scheduler κ :=
  (endHappenings now e.job true e.ending, s.finish now e.job e.ending)

/-! ### The loop -/

/-- Call jobs one after another until one goes on; after the last the loop sleeps for a tick. The time
at which it leaves off comes with what happened. -/
def callAll [Callable κ] (now : Time) :
    List (Job κ) → Scheduler κ → Time × List (Happening κ) × Scheduler κ
  | [], s => (now, [], { s with loop := .sleeping (now + max s.tick 1000) })
  | j :: r, s =>
    match s.call now j with
    | (.over later, shown, s) =>
      let (now, more, s) := callAll later r s
      (now, shown ++ more, s)
    | (.underway e, shown, s) =>
      if e.endsAt ≤ now then
        let (ended, s) := s.complete now e
        let (now, more, s) := callAll now r s
        (now, shown ++ ended ++ more, s)
      else (now, shown, { s with loop := .calling e r })

/-- When the loop has something to do next. -/
def wakeTime? (now : Time) (s : Scheduler κ) : Option Time :=
  match s.loop with
  | .stopped => none
  | .starting => some now
  | .sleeping t => some t
  | .calling e _ => some e.endsAt

/-- Let the loop do what is due. The time at which it leaves off comes with what happened. -/
def wake [Callable κ] (now : Time) (s : Scheduler κ) : Time × List (Happening κ) × Scheduler κ :=
  match s.loop with
  | .stopped => (now, [], s)
  | .starting => s.callAll now (s.due now)
  | .sleeping t => if t ≤ now then s.callAll now (s.due now) else (now, [], s)
  | .calling e waiting =>
    if e.endsAt ≤ now then
      let (ended, s) := s.complete now e
      let (now, more, s) := s.callAll now waiting
      (now, ended ++ more, s)
    else (now, [], s)

/-- Start the loop. -/
def start (s : Scheduler κ) : Scheduler κ := if s.isRunning then s else { s with loop := .starting }

/-- Stop the loop. A call that is going on is given up. -/
def stop (now : Time) (s : Scheduler κ) : Scheduler κ :=
  match s.loop with
  | .calling e _ =>
    { s.enter e.job.serial fun j =>
        { j with isRunning := false, runs := j.runs + 1, lastRun := some now } with
      loop := .stopped }
  | _ => { s with loop := .stopped }

/-- The steps that the loop may need to get from one time to another: it wakes at most once in a
millisecond. -/
def stepsBetween (now limit : Time) : Nat := ((limit - now) / 1000).toNat + 1

/-- Let the loop do what it has to do before a time, in at most so many steps. -/
def runSteps [Callable κ] (limit : Time) :
    Nat → Time → Scheduler κ → Time × List (Happening κ) × Scheduler κ
  | 0, now, s => (now, [], s)
  | n + 1, now, s =>
    match s.wakeTime? now with
    | none => (now, [], s)
    | some t =>
      if t < limit then
        let (now, shown, s) := s.wake (max now t)
        let (now, more, s) := runSteps limit n now s
        (now, shown ++ more, s)
      else (now, [], s)

/-- Let the loop do what is due, and then what it has to do before a time. It leaves off at that time
or, if a call has held it up, later. -/
def runThrough [Callable κ] (now limit : Time) (s : Scheduler κ) :
    Time × List (Happening κ) × Scheduler κ :=
  let (reached, shown, s) := s.wake now
  let (reached, more, s) := runSteps limit (stepsBetween now limit) reached s
  (max reached limit, shown ++ more, s)

/-- Let the loop do what is due, and then what it has to do before a time. -/
def runUntil [Callable κ] (now limit : Time) (s : Scheduler κ) : List (Happening κ) × Scheduler κ :=
  (s.runThrough now limit).2

/-! ### A pass on request -/

/-- Call jobs one after another and wait for each, while the loop goes on. The time of the end comes
with what happened. -/
def callInTurn [Callable κ] (now : Time) :
    List (Job κ) → Scheduler κ → Time × List (Happening κ) × Scheduler κ
  | [], s => (now, [], s)
  | j :: r, s =>
    match s.call now j with
    | (.over later, shown, s) =>
      let (now, more, s) := callInTurn later r s
      (now, shown ++ more, s)
    | (.underway e, shown, s) =>
      let (later, meanwhile, s) := s.runThrough now (max now e.endsAt)
      let (ended, s) := s.complete later e
      let (now, more, s) := callInTurn later r s
      (now, shown ++ meanwhile ++ ended ++ more, s)

/-- Call every job that is due, and count them. -/
def runPending [Callable κ] (now : Time) (s : Scheduler κ) :
    Nat × Time × List (Happening κ) × Scheduler κ :=
  let jobs := s.due now
  let (now, shown, s) := s.callInTurn now jobs
  (jobs.length, now, shown, s)

end Scheduler

end TieredMemory
