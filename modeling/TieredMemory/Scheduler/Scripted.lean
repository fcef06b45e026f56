import TieredMemory.Scheduler

/-!
# Scripted calls

Calls whose course is fixed beforehand: calls that end well, fail or run out of time by themselves,
calls that change the table, and calls that take time. Each is marked with a text.
-/

namespace TieredMemory

/-- What a scripted call does. -/
inductive Behaviour where
  | succeed
  | fail
  /-- It says itself that it ran out of time. -/
  | timeOut
  /-- It adds a job of its own mark that succeeds every minute. -/
  | addAgain
  /-- It removes the job with the identifier. -/
  | remove (id : String)
  /-- It is awaited for some time. -/
  | take (d : Duration)
  /-- It is awaited for some time and fails. -/
  | takeAndFail (d : Duration)
  deriving Repr, DecidableEq

/-- A call with its mark. -/
structure ScriptedCall where
  mark : String
  behaviour : Behaviour
  deriving Repr, DecidableEq

/-- The course of a scripted call. -/
def ScriptedCall.course (c : ScriptedCall) : Course ScriptedCall :=
  match c.behaviour with
  | .succeed => {}
  | .fail => { ending := .failed (.broken "boom") }
  | .timeOut => { ending := .timedOut }
  | .addAgain =>
    { changes := [.add {
        id := c.mark, name := "again", call := ⟨c.mark, .succeed⟩,
        interval := some (60 * second) }] }
  | .remove id => { changes := [.remove id] }
  | .take d => { pace := .awaited d }
  | .takeAndFail d => { pace := .awaited d, ending := .failed (.broken "async boom") }

instance : Callable ScriptedCall := ⟨ScriptedCall.course⟩

end TieredMemory
