/-
**A scripted executor.**

An executor whose answers are given beforehand, for pipelines and transactions that are tried out
without a database.

Main definitions:

* `SqlAccess.ScriptedExecutor` — the script;
* `SqlAccess.ScriptedExecutor.executor` — the executor that follows it;
* `SqlAccess.ScriptedExecutor.manager` — transactions on it.
-/

import SqlAccess.Pipeline.Executor
import SqlAccess.Text.Cut
import SqlAccess.Transaction

set_option autoImplicit false

namespace SqlAccess

/-- The answers of an executor, given beforehand. -/
structure ScriptedExecutor where
  /-- The rows of every query that does not count. -/
  rows : List Row
  /-- The answer to counting statements: no row if there is no value. -/
  count : Option Value
  affected : UInt64
  /-- Statements with this text in them fail. -/
  failOn : Option String
  latency : Duration
  effort : Duration
  deriving Inhabited

namespace ScriptedExecutor

/-- Whether a statement counts rows. -/
def counts (sql : String) : Bool := Text.occursIn "COUNT(*)".toList sql.toList

/-- The answer to a statement, unless the script lets it fail. -/
def guarded {α : Type} (s : ScriptedExecutor) (sql : String) (answer : α) : Outcome α :=
  match s.failOn with
  | some text =>
    if Text.occursIn text.toList sql.toList then .error (.execution ("failed on " ++ text))
    else .ok answer
  | none => .ok answer

/-- The rows that a statement yields. -/
def rowsFor (s : ScriptedExecutor) (sql : String) : List Row :=
  if counts sql then s.count.toList.map fun value => ⟨[("count", value)]⟩ else s.rows

/-- The answer to a statement that is executed. -/
def execute (s : ScriptedExecutor) (statement : BoundSql) : Outcome UInt64 :=
  s.guarded statement.sql s.affected

/-- The answer to a statement that is queried. -/
def query (s : ScriptedExecutor) (statement : BoundSql) : Outcome (List Row) :=
  s.guarded statement.sql (s.rowsFor statement.sql)

/-- The executor that follows the script. -/
def executor (s : ScriptedExecutor) : Executor :=
  ⟨fun _ => s.execute, fun _ => s.query, s.latency, s.effort⟩

/-- A step of a transaction that succeeds unless an error is given. -/
def step : Option Error → Outcome Unit
  | some e => .error e
  | none => .ok ()

/-- Transactions on the executor, whose own steps fail as given. -/
def manager (s : ScriptedExecutor) (begin commit rollback : Option Error) : TransactionManager where
  begin := fun _ => step begin
  commit := fun _ => step commit
  rollback := fun _ => step rollback
  execute := fun _ => s.execute
  query := fun _ => s.query

end ScriptedExecutor

end SqlAccess
