/-
**A scripted server.**

The server's side of a conversation is given beforehand: the types that it infers for parameters,
the columns and rows that it returns, its command tag, and which statements it refuses.

Main definitions:

* `SqlAccess.Postgres.Server` — the script;
* `SqlAccess.Postgres.Received` — what reaches the server;
* `SqlAccess.Postgres.Server.bind` — a statement bound to its values;
* `SqlAccess.Postgres.Server.execute`, `SqlAccess.Postgres.Server.query` — the client's calls;
* `SqlAccess.Postgres.Server.manager` — transactions on the server.
-/

import SqlAccess.Pipeline.Executor
import SqlAccess.Postgres.Codec
import SqlAccess.Postgres.Marker
import SqlAccess.Text.Cut
import SqlAccess.Transaction

set_option autoImplicit false

namespace SqlAccess.Postgres

/-- The server's side of a conversation. -/
structure Server where
  paramTypes : List WireType
  columns : List (String × WireType)
  rows : List (List (Option Bytes))
  tag : String
  /-- Statements with this text in them are refused. -/
  failOn : Option String
  deriving Inhabited

/-- What reaches the server. -/
inductive Received where
  /-- A statement without parameters and results. -/
  | simple (sql : String)
  /-- A statement with the bytes of its parameters. -/
  | bind (sql : String) (params : List (Option Bytes))
  deriving Inhabited

namespace Server

/-- Whether a statement is refused. -/
def refuses (s : Server) (sql : String) : Bool :=
  match s.failOn with
  | some text => Text.occursIn text.toList sql.toList
  | none => false

/-- The parameters of a statement: as many as the server expects, each of a fitting type. -/
def params (s : Server) (args : List Value) : Outcome (List (Option Bytes)) :=
  if args.length = s.paramTypes.length then
    (s.paramTypes.zip args).mapM fun p =>
      match encode p.1 p.2 with
      | .ok bytes => .ok bytes
      | .error _ => .error (.execution "error serializing parameter")
  else .error (.execution "wrong number of parameters")

/-- What reaches the server for a statement, if its parameters can be written. -/
def received? (s : Server) (built : BoundSql) : Option Received :=
  match s.params built.args with
  | .ok params => some (.bind (numbered built.sql) params)
  | .error _ => none

/-- A statement is bound, unless its parameters cannot be written or the server refuses it. -/
def bind (s : Server) (built : BoundSql) : Outcome Unit := do
  let _ ← s.params built.args
  if s.refuses (numbered built.sql) then
    throw (.execution "refused by the server")

/-- The number of rows that the command tag tells: its last word, if that is a number. -/
def affected (s : Server) : UInt64 :=
  let word := ((Text.fields ' ' s.tag.toList).getLast?).getD []
  match Value.position? word with
  | some n => UInt64.ofNat n
  | none => 0

/-- The number of rows that a statement affects. -/
def execute (s : Server) (built : BoundSql) : Outcome UInt64 := do
  s.bind built
  return s.affected

/-- A row read column by column; the first column that cannot be read is an error. -/
def readRow (s : Server) (cells : List (Option Bytes)) : Outcome Row := do
  let read ← (s.columns.zip cells).mapM fun p =>
    match decode p.1.2 p.2 with
    | .ok v => .ok (p.1.1, v)
    | .error fault => .error (Error.decode p.1.1 fault)
  return ⟨read⟩

/-- The rows that a statement yields. -/
def query (s : Server) (built : BoundSql) : Outcome (List Row) := do
  s.bind built
  s.rows.mapM s.readRow

/-- The first row that a statement yields. -/
def queryRow (s : Server) (built : BoundSql) : Outcome (Option Row) := do
  return (← s.query built).head?

/-- A statement without parameters and results. -/
def simple (s : Server) (sql : String) : Outcome Unit :=
  if s.refuses sql then .error (.execution "refused by the server") else .ok ()

/-- Transactions on the server. -/
def manager (s : Server) : TransactionManager where
  begin := fun _ => s.simple "BEGIN"
  commit := fun _ => s.simple "COMMIT"
  rollback := fun _ => s.simple "ROLLBACK"
  execute := fun _ => s.execute
  query := fun _ => s.query

/-- What reaches the server for a demand. -/
def receivedFor (s : Server) : Demand → Option Received
  | .begin => some (.simple "BEGIN")
  | .commit => some (.simple "COMMIT")
  | .rollback => some (.simple "ROLLBACK")
  | .statement st => s.received? ⟨st.sql, st.args⟩

end Server

end SqlAccess.Postgres
