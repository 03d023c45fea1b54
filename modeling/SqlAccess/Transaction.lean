/-
**Transactions.**

A block runs between the begin and the end of a transaction.  If it returns a value, the transaction
is committed; if it fails or panics, it is rolled back.  Every transaction that has begun ends
exactly once.

Main definitions:

* `SqlAccess.Block` — statements, each chosen by the answers to those before, and an end;
* `SqlAccess.TransactionManager` — the answers to what a transaction asks for;
* `SqlAccess.Body` — blocks that may run transactions of their own;
* `SqlAccess.Journal` — what has been asked for and logged;
* `SqlAccess.Verdict` — how a body has ended;
* `SqlAccess.transact` — a transaction around a body;
* `SqlAccess.Body.run`, `SqlAccess.inTransaction` — a body in a transaction that has begun, and a
  block in a transaction.
-/

import SqlAccess.Log
import SqlAccess.Pipeline.Run
import SqlAccess.Row.Basic
import SqlAccess.Statement.Builder

set_option autoImplicit false

namespace SqlAccess

/-! ### Blocks -/

/-- What a panic carries. -/
inductive PanicPayload where
  | text (s : String)
  /-- Something that is no text. -/
  | opaqueValue
  deriving DecidableEq, Repr, Inhabited

/-- The wording of a panic. -/
def PanicPayload.message : PanicPayload → String
  | text s => s
  | opaqueValue => "transaction block panicked"

/-- The body of a transaction. -/
inductive Block (α : Type) where
  | finish (value : α)
  | fail (e : Error)
  | panic (payload : PanicPayload)
  | execute (s : BoundSql) (next : Outcome UInt64 → Block α)
  | query (s : BoundSql) (next : Outcome (List Row) → Block α)

/-! ### Managers -/

/-- What a transaction asks for. -/
inductive Demand where
  | begin
  | statement (s : Statement)
  | commit
  | rollback
  deriving Inhabited

/-- The answers to what a transaction asks for; each may depend on all demands before. -/
structure TransactionManager where
  begin : List Demand → Outcome Unit
  commit : List Demand → Outcome Unit
  rollback : List Demand → Outcome Unit
  execute : List Demand → BoundSql → Outcome UInt64
  query : List Demand → BoundSql → Outcome (List Row)
  deriving Inhabited

/-- A block that may run transactions of its own, each with a manager of its own. -/
inductive Body : Type → Type 1 where
  | finish {α : Type} (value : α) : Body α
  | fail {α : Type} (e : Error) : Body α
  | panic {α : Type} (payload : PanicPayload) : Body α
  | execute {α : Type} (s : BoundSql) (next : Outcome UInt64 → Body α) : Body α
  | query {α : Type} (s : BoundSql) (next : Outcome (List Row) → Body α) : Body α
  | transaction {α β : Type} (own : TransactionManager) (inner : Body β)
      (next : Outcome β → Body α) : Body α

/-- A block runs no transactions of its own. -/
def Block.toBody {α : Type} : Block α → Body α
  | finish value => .finish value
  | fail e => .fail e
  | panic payload => .panic payload
  | execute s next => .execute s fun answer => (next answer).toBody
  | query s next => .query s fun answer => (next answer).toBody

/-- What has been asked for, and what has been logged. -/
structure Journal where
  demands : List Demand
  log : List LogEvent
  deriving Inhabited

namespace Journal

/-- Nothing yet. -/
def empty : Journal := ⟨[], []⟩

/-- One more event is logged. -/
def note (e : LogEvent) : StateM Journal Unit :=
  modify fun j => { j with log := j.log ++ [e] }

/-- One more demand, and the answer to it. -/
def ask {α : Type} (d : Demand) (answer : List Demand → Outcome α) :
    StateM Journal (Outcome α) := do
  let before := (← get).demands
  modify fun j => { j with demands := j.demands ++ [d] }
  return answer before

end Journal

/-! ### Running -/

/-- How a body has ended. -/
inductive Verdict (α : Type) where
  | returned (outcome : Outcome α)
  | panicked (payload : PanicPayload)

/-- What a body comes to: a panic becomes an error. -/
def Verdict.outcome {α : Type} : Verdict α → Outcome α
  | returned outcome => outcome
  | panicked payload => .error (.panicked payload.message)

/-- The event for a transaction that is committed. -/
def committedEvent : LogEvent := ⟨.debug, "quarry.tx", "transaction committed", []⟩

/-- The event for a transaction that is rolled back. -/
def rolledBackEvent (e : Error) : LogEvent :=
  ⟨.debug, "quarry.tx", "transaction rolled back", [("error", e.message)]⟩

/-- The event for a transaction whose rollback has failed. -/
def rollbackFailedEvent (e failure : Error) : LogEvent :=
  ⟨.error, "quarry.tx", "transaction rollback failed",
    [("error", e.message), ("rollback_error", failure.message)]⟩

/-- The end of a transaction whose block has ended. -/
def closeTransaction {α : Type} (m : TransactionManager) :
    Outcome α → StateM Journal (Outcome α)
  | .ok value => do
    match ← Journal.ask .commit m.commit with
    | .ok () =>
      Journal.note committedEvent
      return .ok value
    | .error e => return .error e
  | .error e => do
    match ← Journal.ask .rollback m.rollback with
    | .ok () =>
      Journal.note (rolledBackEvent e)
      return .error e
    | .error failure =>
      Journal.note (rollbackFailedEvent e failure)
      return .error (.rollback e failure)

/-- A transaction around a body: begun, and committed or rolled back when the body has ended. -/
def transact {α : Type} (m : TransactionManager) (body : StateM Journal (Verdict α)) :
    StateM Journal (Outcome α) := do
  match ← Journal.ask .begin m.begin with
  | .error e => return .error e
  | .ok () => closeTransaction m (← body).outcome

/-- A body in a transaction that has begun: its statements are asked for one by one. -/
def Body.run {α : Type} (m : TransactionManager) : Body α → StateM Journal (Verdict α)
  | finish value => return .returned (.ok value)
  | fail e => return .returned (.error e)
  | panic payload => return .panicked payload
  | execute s next => do
    let answer ← Journal.ask (.statement ⟨.execute, s.sql, s.args⟩) fun before => m.execute before s
    (next answer).run m
  | query s next => do
    let answer ← Journal.ask (.statement ⟨.query, s.sql, s.args⟩) fun before => m.query before s
    (next answer).run m
  | transaction own inner next => do
    let outcome ← transact own (inner.run own)
    (next outcome).run m

/-- A block in a transaction. -/
def inTransaction {α : Type} (m : TransactionManager) (block : Block α) :
    StateM Journal (Outcome α) :=
  transact m (block.toBody.run m)

/-! ### Blocks from lists -/

/-- How a block of listed statements ends if none of them fails. -/
inductive BlockEnd where
  /-- With the number of rows affected and returned. -/
  | count
  | fail (e : Error)
  | panic (payload : PanicPayload)
  deriving Inhabited

/-- Listed statements up to the first that fails; their rows are counted. -/
def Block.ofStatements (ending : BlockEnd) : UInt64 → List Statement → Block UInt64
  | total, [] =>
    match ending with
    | .count => .finish total
    | .fail e => .fail e
    | .panic payload => .panic payload
  | total, s :: rest =>
    match s.method with
    | .execute => .execute ⟨s.sql, s.args⟩ fun answer =>
      match answer with
      | .ok count => ofStatements ending (total + count) rest
      | .error e => .fail e
    | .query => .query ⟨s.sql, s.args⟩ fun answer =>
      match answer with
      | .ok rows => ofStatements ending (total + UInt64.ofNat rows.length) rest
      | .error e => .fail e

end SqlAccess
