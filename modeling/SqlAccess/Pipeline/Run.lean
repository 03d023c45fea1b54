/-
**Runs.**

Whatever happens in the course of a call leaves a trace: log entries, statements given to the
executor, waiting, work.  A run is a computation that adds to such a trace and then succeeds or
fails.  Since nothing in a run depends on the clock, its trace can be computed first and played back
in time later.

Main definitions:

* `SqlAccess.Method`, `SqlAccess.Statement` — what an executor is given;
* `SqlAccess.Action` — what a trace is made of;
* `SqlAccess.Run` — computations that leave a trace;
* `SqlAccess.Run.emit`, `SqlAccess.Run.attempt`, `SqlAccess.Run.measured` — one more action, a run
  whose failure is caught, and a run with the work it took.
-/

import SqlAccess.Error
import SqlAccess.Log
import SqlAccess.Page

set_option autoImplicit false

namespace SqlAccess

/-! ### Actions -/

/-- What an executor is asked to do with a statement. -/
inductive Method where
  | execute
  | query
  deriving DecidableEq, Repr, Inhabited

/-- What an executor is given: a statement, and what to do with it. -/
structure Statement where
  method : Method
  sql : String
  args : List Value
  deriving Inhabited

/-- What happens in the course of a call. -/
inductive Action where
  /-- An event is logged. -/
  | log (event : LogEvent)
  /-- A line is noted as it is. -/
  | note (line : String)
  /-- The executor receives a statement. -/
  | statement (s : Statement)
  /-- The call waits; other calls may go on meanwhile. -/
  | sleep (d : Duration)
  /-- The call works; nothing else goes on meanwhile. -/
  | work (d : Duration)
  /-- The totals of the call's page become known. -/
  | totals (t : PageTotals)
  deriving Inhabited

namespace Action

/-- The statement that the executor receives, if it is such an action. -/
def statement? : Action → Option Statement
  | statement s => some s
  | _ => none

/-- The time spent working. -/
def workNanos : Action → Nat
  | work d => d.nanos
  | _ => 0

/-- The totals that become known, if it is such an action. -/
def totals? : Action → Option PageTotals
  | totals t => some t
  | _ => none

end Action

/-! ### Runs -/

/-- A computation that leaves a trace, and succeeds or fails. -/
abbrev Run (α : Type) := ExceptT Error (StateM (List Action)) α

namespace Run

/-- One more action. -/
def emit (a : Action) : Run Unit := modify (· ++ [a])

/-- A failure. -/
def fail {α : Type} (e : Error) : Run α := throw e

/-- An outcome that is already known. -/
def ofOutcome {α : Type} : Outcome α → Run α
  | .ok x => pure x
  | .error e => throw e

/-- The trace so far. -/
def trace : Run (List Action) := get

/-- The outcome of a run, be it a failure. -/
def attempt {α : Type} (r : Run α) : Run (Outcome α) :=
  ExceptT.mk (do return .ok (← r.run))

/-- The totals of the call's page as known so far. -/
def totals : Run PageTotals := do
  return ((← trace).reverse.findSome? Action.totals?).getD .none

/-- The least time that a measurement can show: no run takes no time at all. -/
def grain : Nat := 1

/-- A run and how long it has worked. -/
def measured {α : Type} (r : Run α) : Run (α × Duration) := do
  let before ← trace
  let x ← r
  let after ← trace
  return (x, ⟨grain + ((after.drop before.length).map Action.workNanos).foldr (· + ·) 0⟩)

/-- The outcome of a run and the trace it leaves. -/
def play {α : Type} (r : Run α) : Outcome α × List Action := r.run.run []

end Run

end SqlAccess
