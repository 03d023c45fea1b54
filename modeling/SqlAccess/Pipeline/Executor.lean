/-
**Executors.**

An executor is whatever runs SQL with `?` markers: a connection, a pool, a transaction.  What it
answers may depend on all statements that it has received before.

Main definitions:

* `SqlAccess.Executor` — the answers to statements, and how long they take;
* `SqlAccess.Executor.execute`, `SqlAccess.Executor.query`, `SqlAccess.Executor.queryRow` — a
  statement given to an executor, as a run.
-/

import SqlAccess.Pipeline.Run
import SqlAccess.Row.Basic
import SqlAccess.Statement.Builder

set_option autoImplicit false

namespace SqlAccess

/-- What runs statements.  The first argument of an answer is the list of statements received
before. -/
structure Executor where
  affected : List Statement → BoundSql → Outcome UInt64
  rows : List Statement → BoundSql → Outcome (List Row)
  /-- How long an answer is waited for. -/
  latency : Duration
  /-- How long an answer is worked on. -/
  effort : Duration
  deriving Inhabited

namespace Executor

/-- A statement is received and answered. -/
def perform {α : Type} (e : Executor) (method : Method) (sql : String) (args : List Value)
    (answer : List Statement → BoundSql → Outcome α) : Run α := do
  let before := (← Run.trace).filterMap Action.statement?
  Run.emit (.statement ⟨method, sql, args⟩)
  Run.emit (.sleep e.latency)
  Run.emit (.work e.effort)
  Run.ofOutcome (answer before ⟨sql, args⟩)

/-- The number of rows that a statement affects. -/
def execute (e : Executor) (sql : String) (args : List Value) : Run UInt64 :=
  e.perform .execute sql args e.affected

/-- The rows that a statement yields. -/
def query (e : Executor) (sql : String) (args : List Value) : Run (List Row) :=
  e.perform .query sql args e.rows

/-- The first row that a statement yields. -/
def queryRow (e : Executor) (sql : String) (args : List Value) : Run (Option Row) := do
  return (← e.query sql args).head?

end Executor

end SqlAccess
