/-
**Runs from a trace on.**

A run is determined by what it makes of every trace that there may be before it: how it ends, and
what the trace is then.  The lemmas here say so for the runs that all others are put together from.

Main definitions:

* `SqlAccess.Run.playFrom` — how a run ends that goes on from a trace, and the trace then;
* `SqlAccess.Run.logged` — a run before which events are logged.

Main results:

* `SqlAccess.Run.playFrom_bind` — a run that goes on with another;
* `SqlAccess.SqlLog.interceptor_eq` — the log of statements logs, and goes on;
* `SqlAccess.Executor.playFrom_perform` — **a statement leaves itself, a pause and work** in the
  trace, and its answer depends on the statements before it only.
-/

import SqlAccess.Pipeline.SqlLog

set_option autoImplicit false

namespace SqlAccess

namespace Run

variable {α β : Type}

/-! ### Parts of runs -/

/-- How a run ends that goes on from a trace, and the trace then. -/
def playFrom (r : Run α) (t : List Action) : Outcome α × List Action := r.run.run t

theorem eq_of_playFrom {r r' : Run α} (h : ∀ t, r.playFrom t = r'.playFrom t) : r = r' := funext h

@[simp] theorem playFrom_pure (a : α) (t : List Action) :
    (pure a : Run α).playFrom t = (.ok a, t) := rfl

@[simp] theorem playFrom_ofOutcome (o : Outcome α) (t : List Action) :
    (ofOutcome o).playFrom t = (o, t) := by
  cases o <;> rfl

@[simp] theorem playFrom_emit (a : Action) (t : List Action) :
    (emit a).playFrom t = (.ok (), t ++ [a]) := rfl

@[simp] theorem playFrom_trace (t : List Action) : trace.playFrom t = (.ok t, t) := rfl

@[simp] theorem playFrom_attempt (r : Run α) (t : List Action) :
    r.attempt.playFrom t = (.ok (r.playFrom t).1, (r.playFrom t).2) := rfl

/-- A run goes on with another if it succeeds, and ends if it fails. -/
theorem playFrom_bind (r : Run α) (f : α → Run β) (t : List Action) :
    (r >>= f).playFrom t =
      match r.playFrom t with
      | (.ok a, t') => (f a).playFrom t'
      | (.error e, t') => (.error e, t') := by
  rw [playFrom, playFrom, ExceptT.run_bind, StateT.run_bind]
  change ExceptT.bindCont f (r.run.run t).1 (r.run.run t).2 = _
  rcases r.run.run t with ⟨_ | _, _⟩ <;> rfl

theorem playFrom_bind_of_ok {r : Run α} {t t' : List Action} {a : α}
    (h : r.playFrom t = (.ok a, t')) (f : α → Run β) :
    (r >>= f).playFrom t = (f a).playFrom t' := by
  rw [playFrom_bind, h]

@[simp] theorem playFrom_emit_bind (a : Action) (f : Unit → Run β) (t : List Action) :
    (emit a >>= f).playFrom t = (f ()).playFrom (t ++ [a]) :=
  playFrom_bind_of_ok (playFrom_emit a t) f

@[simp] theorem playFrom_trace_bind (f : List Action → Run β) (t : List Action) :
    (trace >>= f).playFrom t = (f t).playFrom t :=
  playFrom_bind_of_ok (playFrom_trace t) f

/-! ### Logging -/

/-- A run before which events are logged. -/
def logged (events : List LogEvent) (r : Run α) : Run α :=
  events.foldr (fun e r => emit (.log e) >>= fun _ => r) r

end Run

/-- A log of statements goes on once its events are logged. -/
theorem SqlLog.interceptor_eq (l : SqlLog) (request : Request) (next : Next) :
    l.interceptor request next =
      Run.logged (l.events request.sql request.args) (next.run request) := by
  unfold interceptor
  induction l.events request.sql request.args with
  | nil => simp [Run.logged]
  | cons e rest ih =>
      simp only [List.forIn_cons, bind_assoc, pure_bind] at ih ⊢
      rw [ih]
      rfl

/-! ### Statements -/

/-- The statements in a trace. -/
def Action.statements (t : List Action) : List Statement := t.filterMap Action.statement?

/-- The totals that become known in a trace. -/
def Action.totalsIn (t : List Action) : List PageTotals := t.filterMap Action.totals?

namespace Action

end Action

namespace Executor

/-- What a statement leaves in the trace. -/
def traceOf (e : Executor) (s : Statement) : List Action :=
  [.statement s, .sleep e.latency, .work e.effort]

theorem playFrom_perform {α : Type} (e : Executor) (method : Method) (sql : String)
    (args : List Value) (answer : List Statement → BoundSql → Outcome α) (t : List Action) :
    (e.perform method sql args answer).playFrom t =
      (answer (Action.statements t) ⟨sql, args⟩, t ++ e.traceOf ⟨method, sql, args⟩) := by
  simp [perform, traceOf, Action.statements]

end Executor

end SqlAccess
