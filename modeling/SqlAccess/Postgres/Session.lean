/-
**Transactions that share a connection.**

All transactions on one connection take turns: one begins only when no other holds the connection,
and those who wait get it in the order in which they came.  A caller may be given up at any moment;
the connection is then free again, whatever the server has been told so far.

Main definitions:

* `SqlAccess.Postgres.Turn` — how far a transaction is;
* `SqlAccess.Postgres.Asked` — a demand that has reached the server, and whether it was accepted;
* `SqlAccess.Postgres.Session` — the transactions, who holds the connection, and what has been
  asked;
* `SqlAccess.Postgres.Session.advance`, `SqlAccess.Postgres.Session.abandon` — a step of a
  transaction, and its end when its caller is given up;
* `SqlAccess.Postgres.Session.play` — several such moves in any order.
-/

import SqlAccess.Transaction

set_option autoImplicit false

namespace SqlAccess.Postgres

/-- How far a transaction on a shared connection is. -/
inductive Turn (α : Type) where
  /-- It waits for the connection. -/
  | waiting (block : Block α)
  /-- It has begun, and this is left of its block. -/
  | running (block : Block α)
  /-- Its block has ended; it is still to be committed or rolled back. -/
  | closing (outcome : Outcome α)
  | done (outcome : Outcome α)
  /-- Its caller has been given up. -/
  | abandoned

/-- A demand that has reached the server, and whether the server accepted it. -/
structure Asked where
  /-- The number of the transaction. -/
  turn : Nat
  demand : Demand
  accepted : Bool
  deriving Inhabited

/-- The transactions on one connection. -/
structure Session (α : Type) where
  manager : TransactionManager
  turns : List (Turn α)
  /-- The transaction that has the connection. -/
  holder : Option Nat
  /-- The transactions that wait for it, the first first. -/
  queue : List Nat
  /-- Everything asked, in order. -/
  asked : List Asked

namespace Session

variable {α : Type}

/-- Blocks that are all about to begin, in their order. -/
def ofBlocks (manager : TransactionManager) (blocks : List (Block α)) : Session α :=
  ⟨manager, blocks.map .waiting, none, List.range blocks.length, []⟩

/-- The demands so far. -/
def demands (s : Session α) : List Demand := s.asked.map Asked.demand

/-- A transaction gets as far as given. -/
def setTurn (s : Session α) (number : Nat) (turn : Turn α) : Session α :=
  { s with turns := s.turns.set number turn }

/-- One more demand, and the answer to it. -/
def ask {β : Type} (s : Session α) (number : Nat) (d : Demand)
    (answer : List Demand → Outcome β) : Outcome β × Session α :=
  let outcome := answer s.demands
  (outcome, { s with asked := s.asked ++ [⟨number, d, outcome.isOk⟩] })

/-- The connection is free again, if the transaction has it. -/
def release (s : Session α) (number : Nat) : Session α :=
  { s with holder := if s.holder = some number then none else s.holder }

/-- The first that waits takes the free connection and begins; if that fails the connection stays
free. -/
def begin (s : Session α) (number : Nat) (block : Block α) : Session α :=
  if s.holder = none ∧ s.queue.head? = some number then
    let s := { s with queue := s.queue.tail }
    match s.ask number .begin s.manager.begin with
    | (.ok (), s) => { s with holder := some number }.setTurn number (.running block)
    | (.error e, s) => s.setTurn number (.done (.error e))
  else s

/-- One statement of a block, or its end. -/
def runStep (s : Session α) (number : Nat) : Block α → Session α
  | .finish value => s.setTurn number (.closing (.ok value))
  | .fail e => s.setTurn number (.closing (.error e))
  | .panic payload => s.setTurn number (.closing (.error (.panicked payload.message)))
  | .execute st next =>
    let (answer, s) := s.ask number (.statement ⟨.execute, st.sql, st.args⟩) fun before =>
      s.manager.execute before st
    s.setTurn number (.running (next answer))
  | .query st next =>
    let (answer, s) := s.ask number (.statement ⟨.query, st.sql, st.args⟩) fun before =>
      s.manager.query before st
    s.setTurn number (.running (next answer))

/-- The end of a transaction whose block has ended; then the connection is free. -/
def close (s : Session α) (number : Nat) : Outcome α → Session α
  | .ok value =>
    match s.ask number .commit s.manager.commit with
    | (.ok (), s) => (s.setTurn number (.done (.ok value))).release number
    | (.error e, s) => (s.setTurn number (.done (.error e))).release number
  | .error e =>
    match s.ask number .rollback s.manager.rollback with
    | (.ok (), s) => (s.setTurn number (.done (.error e))).release number
    | (.error failure, s) =>
      (s.setTurn number (.done (.error (.rollback e failure)))).release number

/-- A transaction goes one step further, if it can. -/
def advance (s : Session α) (number : Nat) : Session α :=
  match s.turns[number]? with
  | some (.waiting block) => s.begin number block
  | some (.running block) => s.runStep number block
  | some (.closing outcome) => s.close number outcome
  | _ => s

/-- The caller of a transaction is given up; one that has ended stays as it is. -/
def abandon (s : Session α) (number : Nat) : Session α :=
  match s.turns[number]? with
  | some (.waiting _) | some (.running _) | some (.closing _) =>
    ({ s with queue := s.queue.filter (· != number) }.setTurn number .abandoned).release number
  | _ => s

/-- What may happen next. -/
inductive Move where
  | advance (number : Nat)
  | abandon (number : Nat)
  deriving DecidableEq, Repr, Inhabited

/-- One move. -/
def move (s : Session α) : Move → Session α
  | .advance number => s.advance number
  | .abandon number => s.abandon number

/-- Several moves. -/
def play (s : Session α) (moves : List Move) : Session α := moves.foldl move s

/-- The moves that take transactions to their ends one by one, given how many statements each has:
beside its statements each begins, leaves its block and is closed. -/
def inOrder (statements : List Nat) : List Move :=
  statements.zipIdx.flatMap fun p => List.replicate (p.1 + 3) (.advance p.2)

/-- How transactions have ended. -/
def outcomes (s : Session α) : List (Outcome α) :=
  s.turns.map fun
    | .done outcome => outcome
    | _ => .error (.other "transaction has not ended")

end Session

end SqlAccess.Postgres
