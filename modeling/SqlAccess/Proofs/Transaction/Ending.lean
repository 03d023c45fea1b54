/-
**Transactions end exactly once.**

A transaction that is refused asks for nothing but its begin.  One that has begun asks for what its
body asks for, and then for exactly one more thing: to be committed, if the body has returned a
value, and to be rolled back otherwise.  Behind rollbacks that fail, be they of one transaction
within another, the cause that has decided them stays in sight.

Main definitions:

* `SqlAccess.Closes` — how a transaction ends whose body has ended;
* `SqlAccess.Body.Fails` — a body fails from a cause, its own or that of a transaction within it.

Main results:

* `SqlAccess.Body.demands_run` — a body only adds to what has been asked for;
* `SqlAccess.closes_transact` — a transaction that has begun closes;
* `SqlAccess.Body.Fails.rootCause` — **the cause stays in sight**, however deep it is;
* `SqlAccess.transact_ends_once` — **transactions end exactly once**.
-/

import SqlAccess.Transaction

set_option autoImplicit false

namespace SqlAccess

/-! ### Demands -/

/-- A journal with one more demand. -/
def Journal.asking (j : Journal) (d : Demand) : Journal := { j with demands := j.demands ++ [d] }

theorem Journal.run_ask {α : Type} (d : Demand) (answer : List Demand → Outcome α) (j : Journal) :
    (Journal.ask d answer).run j = (answer j.demands, j.asking d) := rfl

theorem Journal.prefix_asking (j : Journal) (d : Demand) : j.demands <+: (j.asking d).demands :=
  List.prefix_append ..

/-! ### The end of a transaction -/

variable {α : Type} {m : TransactionManager} {j : Journal}

/-- The last demand of a transaction whose body has come to an outcome. -/
def lastDemand : Outcome α → Demand
  | .ok _ => .commit
  | .error _ => .rollback

/-- What a transaction comes to whose body has come to an outcome. -/
def closing (m : TransactionManager) (before : List Demand) : Outcome α → Outcome α
  | .ok value => (m.commit before).map fun _ => value
  | .error e =>
    match m.rollback before with
    | .ok () => .error e
    | .error failure => .error (.rollback e failure)

theorem run_closeTransaction (m : TransactionManager) (o : Outcome α) (j : Journal) :
    ((closeTransaction m o).run j).1 = closing m j.demands o ∧
      ((closeTransaction m o).run j).2.demands = j.demands ++ [lastDemand o] := by
  cases o with
  | ok value =>
      rw [closeTransaction, StateT.run_bind, Journal.run_ask, closing]
      cases m.commit j.demands <;> exact ⟨rfl, rfl⟩
  | error e =>
      rw [closeTransaction, StateT.run_bind, Journal.run_ask, closing]
      cases m.rollback j.demands <;> exact ⟨rfl, rfl⟩

theorem lastDemand_eq_commit_iff {o : Outcome α} : lastDemand o = .commit ↔ ∃ a, o = .ok a := by
  cases o <;> simp [lastDemand]

theorem closing_eq_ok_iff {before : List Demand} {o : Outcome α} {a : α} :
    closing m before o = .ok a ↔ o = .ok a ∧ m.commit before = .ok () := by
  cases o with
  | ok value => cases hcommit : m.commit before <;> simp [closing, hcommit, Except.map]
  | error e => cases hrollback : m.rollback before <;> simp [closing, hrollback]

/-- What a transaction comes to whose rollback has failed still shows the cause. -/
theorem rootCause_closing (m : TransactionManager) (before : List Demand) (e : Error) :
    ∃ e', closing m before (.error e : Outcome α) = .error e' ∧ e'.rootCause = e.rootCause := by
  cases hrollback : m.rollback before with
  | ok _ => exact ⟨e, by rw [closing, hrollback], rfl⟩
  | error failure => exact ⟨.rollback e failure, by rw [closing, hrollback], rfl⟩

theorem Verdict.outcome_eq_ok_iff {v : Verdict α} {a : α} :
    v.outcome = .ok a ↔ v = .returned (.ok a) := by
  cases v <;> simp [outcome]

/-- How a transaction ends whose body has ended: with one more demand, and with the value, the
error or the panic of the body, or with that of the last demand. -/
structure Closes (m : TransactionManager) (ended : Verdict α × Journal)
    (whole : Outcome α × Journal) : Prop where
  demands : ∃ last, whole.2.demands = ended.2.demands ++ [last] ∧
    (last = .commit ∨ last = .rollback) ∧ (last = .commit ↔ ∃ a, ended.1 = .returned (.ok a))
  value : ∀ a, whole.1 = .ok a ↔ ended.1 = .returned (.ok a) ∧ m.commit ended.2.demands = .ok ()
  commitFailed : ∀ a e, ended.1 = .returned (.ok a) → m.commit ended.2.demands = .error e →
    whole.1 = .error e
  rolledBack : ∀ e, ended.1 = .returned (.error e) → m.rollback ended.2.demands = .ok () →
    whole.1 = .error e
  panicked : ∀ payload, ended.1 = .panicked payload → m.rollback ended.2.demands = .ok () →
    whole.1 = .error (.panicked payload.message)
  rollbackFailed : ∀ e failure, ended.1.outcome = .error e →
    m.rollback ended.2.demands = .error failure →
    whole.1 = .error (.rollback e failure) ∧ (Error.rollback e failure).rootCause = e.rootCause

theorem closes_closeTransaction (m : TransactionManager) (ended : Verdict α × Journal) :
    Closes m ended ((closeTransaction m ended.1.outcome).run ended.2) := by
  obtain ⟨houtcome, hdemands⟩ := run_closeTransaction m ended.1.outcome ended.2
  have hlast : lastDemand ended.1.outcome = .commit ∨ lastDemand ended.1.outcome = .rollback := by
    cases ended.1.outcome <;> simp [lastDemand]
  refine ⟨⟨_, hdemands, hlast, ?_⟩, ?_, ?_, ?_, ?_, ?_⟩
  · simp only [lastDemand_eq_commit_iff, Verdict.outcome_eq_ok_iff]
  · intro a
    rw [houtcome, closing_eq_ok_iff, Verdict.outcome_eq_ok_iff]
  · intro a e hended hcommit
    rw [houtcome, hended, Verdict.outcome, closing, hcommit]
    rfl
  · intro e hended hrollback
    rw [houtcome, hended, Verdict.outcome, closing, hrollback]
  · intro payload hended hrollback
    rw [houtcome, hended, Verdict.outcome, closing, hrollback]
  · intro e failure hended hrollback
    rw [houtcome, hended, closing, hrollback]
    exact ⟨rfl, rfl⟩

/-! ### Whole transactions -/

theorem run_transact_of_refused {body : StateM Journal (Verdict α)} {e : Error}
    (h : m.begin j.demands = .error e) :
    (transact m body).run j = (.error e, j.asking .begin) := by
  rw [transact, StateT.run_bind, Journal.run_ask, h]
  rfl

theorem run_transact_of_begun {body : StateM Journal (Verdict α)}
    (h : m.begin j.demands = .ok ()) :
    (transact m body).run j =
      (closeTransaction m (body.run (j.asking .begin)).1.outcome).run
        (body.run (j.asking .begin)).2 := by
  rw [transact, StateT.run_bind, Journal.run_ask, h]
  rfl

/-- A transaction that has begun closes. -/
theorem closes_transact {body : StateM Journal (Verdict α)} (h : m.begin j.demands = .ok ()) :
    Closes m (body.run (j.asking .begin)) ((transact m body).run j) := by
  rw [run_transact_of_begun h]
  exact closes_closeTransaction m _

/-- A transaction only adds to what has been asked for if its body does. -/
theorem demands_transact {body : StateM Journal (Verdict α)}
    (hbody : ∀ j, j.demands <+: (body.run j).2.demands) (m : TransactionManager) (j : Journal) :
    j.demands <+: ((transact m body).run j).2.demands := by
  have hbegun := j.prefix_asking .begin
  cases hbegin : m.begin j.demands with
  | error e =>
      rw [run_transact_of_refused hbegin]
      exact hbegun
  | ok _ =>
      obtain ⟨last, hlast, -⟩ := (closes_transact hbegin).demands
      rw [hlast]
      exact (hbegun.trans (hbody _)).trans (List.prefix_append ..)

namespace Body

/-- A body only adds to what has been asked for. -/
theorem demands_run (m : TransactionManager) (body : Body α) (j : Journal) :
    j.demands <+: ((body.run m).run j).2.demands := by
  induction body generalizing m j with
  | finish | fail | panic => exact List.prefix_rfl
  | execute s next ih =>
      have hasked := j.prefix_asking (.statement ⟨.execute, s.sql, s.args⟩)
      exact hasked.trans (ih (m.execute j.demands s) m _)
  | query s next ih =>
      have hasked := j.prefix_asking (.statement ⟨.query, s.sql, s.args⟩)
      exact hasked.trans (ih (m.query j.demands s) m _)
  | transaction own inner next ihinner ih =>
      exact (demands_transact (fun j => ihinner own j) own j).trans (ih _ m _)

/-- What a block asks for is statements only. -/
theorem demands_run_toBody (m : TransactionManager) (block : Block α) (j : Journal) :
    ∃ statements : List Statement, ((block.toBody.run m).run j).2.demands =
      j.demands ++ statements.map .statement := by
  induction block generalizing j with
  | finish | fail | panic => exact ⟨[], (List.append_nil _).symm⟩
  | execute s next ih =>
      obtain ⟨statements, hasked⟩ := ih (m.execute j.demands s)
        (j.asking (.statement ⟨.execute, s.sql, s.args⟩))
      exact ⟨⟨.execute, s.sql, s.args⟩ :: statements, hasked.trans (List.append_assoc ..)⟩
  | query s next ih =>
      obtain ⟨statements, hasked⟩ := ih (m.query j.demands s)
        (j.asking (.statement ⟨.query, s.sql, s.args⟩))
      exact ⟨⟨.query, s.sql, s.args⟩ :: statements, hasked.trans (List.append_assoc ..)⟩

/-! ### Causes -/

/-- A body that runs on a manager from a journal on fails from a cause: its own, or that of a
transaction within it whose error it makes its cause to fail. -/
inductive Fails : {α : Type} → Error → TransactionManager → Body α → Journal → Prop
  | fail {α : Type} {e : Error} {m : TransactionManager} {j : Journal} :
      Fails e m (.fail e : Body α) j
  | panic {α : Type} {payload : PanicPayload} {m : TransactionManager} {j : Journal} :
      Fails (.panicked payload.message) m (.panic payload : Body α) j
  | execute {α : Type} {cause : Error} {m : TransactionManager} {s : BoundSql}
      {next : Outcome UInt64 → Body α} {j : Journal}
      (h : Fails cause m (next (m.execute j.demands s))
        (j.asking (.statement ⟨.execute, s.sql, s.args⟩))) :
      Fails cause m (.execute s next) j
  | query {α : Type} {cause : Error} {m : TransactionManager} {s : BoundSql}
      {next : Outcome (List Row) → Body α} {j : Journal}
      (h : Fails cause m (next (m.query j.demands s))
        (j.asking (.statement ⟨.query, s.sql, s.args⟩))) :
      Fails cause m (.query s next) j
  /-- A transaction within the body ends, and the body fails after it. -/
  | after {α β : Type} {cause : Error} {m own : TransactionManager} {inner : Body β}
      {next : Outcome β → Body α} {j : Journal}
      (h : Fails cause m (next ((transact own (inner.run own)).run j).1)
        ((transact own (inner.run own)).run j).2) :
      Fails cause m (.transaction own inner next) j
  /-- A transaction within the body fails from a cause, and the body fails from its error. -/
  | passedOn {α β : Type} {cause e : Error} {m own : TransactionManager} {inner : Body β}
      {next : Outcome β → Body α} {j : Journal} (hbegin : own.begin j.demands = .ok ())
      (hinner : Fails cause own inner (j.asking .begin))
      (he : ((transact own (inner.run own)).run j).1 = .error e)
      (h : Fails e m (next (.error e)) ((transact own (inner.run own)).run j).2) :
      Fails cause m (.transaction own inner next) j

theorem run_transaction {β : Type} (m own : TransactionManager) (inner : Body β)
    (next : Outcome β → Body α) (j : Journal) :
    ((transaction own inner next).run m).run j =
      ((next ((transact own (inner.run own)).run j).1).run m).run
        ((transact own (inner.run own)).run j).2 := rfl

/-- A transaction whose body has come to an error comes to one with the same root cause. -/
theorem rootCause_transact {body : StateM Journal (Verdict α)} {e : Error}
    (hbegin : m.begin j.demands = .ok ()) (h : (body.run (j.asking .begin)).1.outcome = .error e) :
    ∃ e', ((transact m body).run j).1 = .error e' ∧ e'.rootCause = e.rootCause := by
  rw [run_transact_of_begun hbegin, (run_closeTransaction ..).1, h]
  exact rootCause_closing m _ e

/-- **The cause stays in sight**, however deep the transaction is in which it came up. -/
theorem Fails.rootCause {cause : Error} {body : Body α} (h : Fails cause m body j) :
    ∃ e, ((body.run m).run j).1.outcome = .error e ∧ e.rootCause = cause.rootCause := by
  induction h with
  | fail | panic => exact ⟨_, rfl, rfl⟩
  | execute _ ih | query _ ih | after _ ih => exact ih
  | @passedOn _ _ cause e m own inner next j hbegin _ he _ ihinner ih =>
      obtain ⟨raised, hraised, hcause⟩ := ihinner
      obtain ⟨told, htold, hsame⟩ := rootCause_transact hbegin hraised
      obtain rfl : told = e := by
        rw [he] at htold
        exact (Except.error.inj htold).symm
      obtain ⟨last, hlast, hroot⟩ := ih
      refine ⟨last, ?_, hroot.trans (hsame.trans hcause)⟩
      rw [run_transaction, he]
      exact hlast

end Body

/-! ### Transactions -/

/-- **Transactions end exactly once.**  One that is refused asks for nothing but its begin.  One
that has begun asks for what its body asks for, and then closes; if its body fails from a cause,
however deep, then so does the transaction.  A block, which runs no transactions of its own, asks
for statements only. -/
theorem transact_ends_once (m : TransactionManager) (body : Body α) (j : Journal) :
    let ended := (body.run m).run (j.asking .begin)
    let whole := (transact m (body.run m)).run j
    (∀ e, m.begin j.demands = .error e → whole = (.error e, j.asking .begin)) ∧
    (m.begin j.demands = .ok () →
      (∃ asked, ended.2.demands = j.demands ++ .begin :: asked) ∧
      Closes m ended whole ∧
      ∀ cause, body.Fails cause m (j.asking .begin) →
        ∃ e, whole.1 = .error e ∧ e.rootCause = cause.rootCause) ∧
    ∀ block : Block α, block.toBody = body →
      inTransaction m block = transact m (body.run m) ∧
      ∃ statements : List Statement,
        ended.2.demands = j.demands ++ .begin :: statements.map .statement := by
  intro ended whole
  refine ⟨?_, ?_, ?_⟩
  · intro e hrefused
    exact run_transact_of_refused hrefused
  · intro hbegin
    refine ⟨?_, closes_transact hbegin, ?_⟩
    · obtain ⟨asked, hasked⟩ := body.demands_run m (j.asking .begin)
      exact ⟨asked, hasked.symm.trans (List.append_assoc ..)⟩
    · intro cause hfails
      obtain ⟨e, he, hcause⟩ := hfails.rootCause
      obtain ⟨told, htold, hsame⟩ := Body.rootCause_transact hbegin he
      exact ⟨told, htold, hsame.trans hcause⟩
  · rintro block rfl
    obtain ⟨statements, hasked⟩ := Body.demands_run_toBody m block (j.asking .begin)
    exact ⟨rfl, statements, hasked.trans (List.append_assoc ..)⟩

/-- A manager whose rollbacks fail. -/
def TransactionManager.losing : TransactionManager :=
  ⟨fun _ => .ok (), fun _ => .ok (), fun _ => .error (.other "connection closed"),
    fun _ _ => .ok 1, fun _ _ => .ok []⟩

/-- A body whose transaction fails, and which fails from its error. -/
def Body.failingWithin : Body Unit :=
  .transaction .losing (.fail (.other "insert failed") : Body Unit) fun
    | .ok value => .finish value
    | .error e => .fail e

/-- Behind two rollbacks that fail, one within the other, the cause stays in sight, and both
transactions end once. -/
theorem transact_ends_once_within :
    let whole := (transact .losing (Body.failingWithin.run .losing)).run .empty
    whole.2.demands = [.begin, .begin, .rollback, .rollback] ∧
      ∃ e, whole.1 = .error e ∧ e.rootCause = .other "insert failed" := by
  intro whole
  obtain ⟨-, hbegun, -⟩ := transact_ends_once .losing Body.failingWithin .empty
  obtain ⟨-, -, hcause⟩ := hbegun rfl
  have hfails : Body.failingWithin.Fails (.other "insert failed") .losing
      (Journal.empty.asking .begin) := .passedOn rfl .fail rfl .fail
  exact ⟨rfl, hcause _ hfails⟩

end SqlAccess
