/-
**What stages do, step by step.**

A stage is a function, and a function does not tell what it does with the rest of the pipeline.  A
conduct does: it acts, looks back at the trace, runs the rest with a request and goes on with what
comes back, or ends.  For stages that conduct themselves so, the rules below say what a pipeline
does without nesting anything: a request goes to the stage at a position, what the stage passes on
goes to the next position, and the outcome of that goes back to the stage that has passed it on.

Main definitions:

* `SqlAccess.Conduct`, `SqlAccess.Conduct.run` — conducts, and what they do around a rest;
* `SqlAccess.Conduct.stage` — the stage whose conduct depends on the request and the number of
  stages left;
* `SqlAccess.Conduct.Plays` — the rules;
* `SqlAccess.Conducted`, `SqlAccess.Interceptor.Conducted` — parts of stages, and stages, that
  conduct themselves so.

Main results:

* `SqlAccess.Conduct.plays_iff` — **a pipeline does what the rules say**, and nothing else;
* `SqlAccess.SqlLog.conducted`, `SqlAccess.SlowQueryLog.conducted`, `SqlAccess.Paginator.conducted`
  — the built-in stages conduct themselves so.
-/

import Mathlib.Tactic.Choose
import SqlAccess.Pipeline.Paginator
import SqlAccess.Pipeline.SlowQuery
import SqlAccess.Pipeline.SqlLog
import SqlAccess.Proofs.Pipeline.Nesting
import SqlAccess.Proofs.Pipeline.Trace

set_option autoImplicit false

namespace SqlAccess

/-! ### Conducts -/

/-- What a stage does, step by step. -/
inductive Conduct (α : Type) where
  | done (outcome : Outcome α)
  | act (a : Action) (rest : Conduct α)
  /-- It looks at the trace so far. -/
  | look (rest : List Action → Conduct α)
  /-- It passes a request on, and goes on with what comes back. -/
  | onward (request : Request) (resume : Outcome Reply → Conduct α)

namespace Conduct

variable {α β : Type}

/-- A conduct before a rest. -/
def run (rest : Request → Run Reply) : Conduct α → Run α
  | done outcome => Run.ofOutcome outcome
  | act a c => do
    Run.emit a
    c.run rest
  | look c => do
    let t ← Run.trace
    (c t).run rest
  | onward request c => do
    let outcome ← Run.attempt (rest request)
    (c outcome).run rest

/-- The stage that conducts itself so, given a request and the number of stages left. -/
def stage (conduct : Request → Nat → Conduct Reply) : Interceptor :=
  fun request next => (conduct request next.remaining).run next.run

variable (rest : Request → Run Reply) (t : List Action)

@[simp] theorem playFrom_done (outcome : Outcome α) :
    ((done outcome).run rest).playFrom t = (outcome, t) :=
  Run.playFrom_ofOutcome outcome t

@[simp] theorem playFrom_act (a : Action) (c : Conduct α) :
    ((act a c).run rest).playFrom t = (c.run rest).playFrom (t ++ [a]) :=
  Run.playFrom_emit_bind a _ t

@[simp] theorem playFrom_look (c : List Action → Conduct α) :
    ((look c).run rest).playFrom t = ((c t).run rest).playFrom t :=
  Run.playFrom_trace_bind _ t

@[simp] theorem playFrom_onward (request : Request) (c : Outcome Reply → Conduct α) :
    ((onward request c).run rest).playFrom t =
      ((c ((rest request).playFrom t).1).run rest).playFrom ((rest request).playFrom t).2 :=
  Run.playFrom_bind_of_ok (Run.playFrom_attempt _ t) _

/-! ### The rules -/

/-- What a conduct does that belongs to the last of so many stages passed: from which trace to which
outcome and trace. -/
inductive Plays (stages : List (Request → Nat → Conduct Reply)) (terminal : Terminal) :
    Nat → Conduct Reply → List Action → Outcome Reply → List Action → Prop
  | done {passed : Nat} {outcome : Outcome Reply} {t : List Action} :
      Plays stages terminal passed (.done outcome) t outcome t
  | act {passed : Nat} {a : Action} {c : Conduct Reply} {t t' : List Action}
      {outcome : Outcome Reply} (h : Plays stages terminal passed c (t ++ [a]) outcome t') :
      Plays stages terminal passed (.act a c) t outcome t'
  | look {passed : Nat} {c : List Action → Conduct Reply} {t t' : List Action}
      {outcome : Outcome Reply} (h : Plays stages terminal passed (c t) t outcome t') :
      Plays stages terminal passed (.look c) t outcome t'
  /-- The next stage receives the request as it is passed on, and plays to its end; what comes of it
  goes back to where the request has come from. -/
  | passedOn {passed : Nat} {request : Request} {resume : Outcome Reply → Conduct Reply}
      {conduct : Request → Nat → Conduct Reply} {t u t' : List Action}
      {answer outcome : Outcome Reply} (hstage : stages[passed]? = some conduct)
      (hanswer : Plays stages terminal (passed + 1)
        (conduct request (stages.length - (passed + 1))) t answer u)
      (h : Plays stages terminal passed (resume answer) u outcome t') :
      Plays stages terminal passed (.onward request resume) t outcome t'
  /-- Behind the last stage the terminal receives the request. -/
  | ended {passed : Nat} {request : Request} {resume : Outcome Reply → Conduct Reply}
      {t u t' : List Action} {answer outcome : Outcome Reply} (hlast : stages[passed]? = none)
      (hanswer : (terminal request).playFrom t = (answer, u))
      (h : Plays stages terminal passed (resume answer) u outcome t') :
      Plays stages terminal passed (.onward request resume) t outcome t'

variable {stages : List (Request → Nat → Conduct Reply)} {terminal : Terminal} {passed : Nat}

/-- What is left of a pipeline of conducts hands a request to the stage there. -/
theorem run_behind_of_some {conduct : Request → Nat → Conduct Reply}
    (h : stages[passed]? = some conduct) (request : Request) :
    (Next.behind (stages.map stage) terminal passed).run request =
      (conduct request (stages.length - (passed + 1))).run
        (Next.behind (stages.map stage) terminal (passed + 1)).run := by
  obtain ⟨hlt, rfl⟩ := List.getElem?_eq_some_iff.1 h
  rw [Next.behind_of_lt (by simpa using hlt), List.getElem_map]
  simp only [Interceptor.before, stage, Next.remaining_behind, List.length_map]

theorem run_behind_of_none (h : stages[passed]? = none) (request : Request) :
    (Next.behind (stages.map stage) terminal passed).run request = terminal request := by
  rw [Next.behind_of_le (by simpa using h), Next.last]

/-- What the rules allow, the pipeline does. -/
theorem Plays.playFrom_eq {c : Conduct Reply} {t t' : List Action} {outcome : Outcome Reply}
    (h : Plays stages terminal passed c t outcome t') :
    (c.run (Next.behind (stages.map stage) terminal passed).run).playFrom t = (outcome, t') := by
  induction h with
  | done => rw [playFrom_done]
  | act _ ih => rw [playFrom_act, ih]
  | look _ ih => rw [playFrom_look, ih]
  | passedOn hstage _ _ ihanswer ih => rw [playFrom_onward, run_behind_of_some hstage, ihanswer, ih]
  | ended hlast hanswer _ ih => rw [playFrom_onward, run_behind_of_none hlast, hanswer, ih]

/-- What the pipeline does, the rules allow. -/
theorem plays_of_playFrom {c : Conduct Reply} {t t' : List Action} {outcome : Outcome Reply}
    (h : (c.run (Next.behind (stages.map stage) terminal passed).run).playFrom t = (outcome, t')) :
    Plays stages terminal passed c t outcome t' := by
  -- outer induction on the stages left, inner on the conduct
  induction hleft : stages.length - passed using Nat.strongRecOn
    generalizing passed c t outcome t' with
  | ind left ihleft =>
  subst hleft
  induction c generalizing t outcome t' with
  | done o =>
      rw [playFrom_done] at h
      cases h
      exact .done
  | act a c ih =>
      rw [playFrom_act] at h
      exact .act (ih h)
  | look c ih =>
      rw [playFrom_look] at h
      exact .look (ih t h)
  | onward request c ih =>
      rw [playFrom_onward] at h
      cases hstage : stages[passed]? with
      | none =>
          rw [run_behind_of_none hstage] at h
          exact .ended hstage rfl (ih _ h)
      | some conduct =>
          have hlt := (List.getElem?_eq_some_iff.1 hstage).1
          rw [run_behind_of_some hstage] at h
          exact .passedOn hstage (ihleft _ (by omega) rfl rfl) (ih _ h)

/-- **A pipeline does what the rules say**, and nothing else. -/
theorem plays_iff {c : Conduct Reply} {t t' : List Action} {outcome : Outcome Reply} :
    Plays stages terminal passed c t outcome t' ↔
      (c.run (Next.behind (stages.map stage) terminal passed).run).playFrom t = (outcome, t') :=
  ⟨Plays.playFrom_eq, plays_of_playFrom⟩

/-! ### Putting conducts together -/

/-- One conduct after another. -/
def andThen (next : Outcome α → Conduct β) : Conduct α → Conduct β
  | done outcome => next outcome
  | act a c => .act a (c.andThen next)
  | look c => .look fun t => (c t).andThen next
  | onward request c => .onward request fun outcome => (c outcome).andThen next

/-- What follows an outcome: another conduct after a value, and nothing after an error. -/
def ifOk (next : α → Conduct β) : Outcome α → Conduct β
  | .ok a => next a
  | .error e => done (.error e)

/-- A conduct whose rest conducts itself too. -/
def within (answer : Request → Conduct Reply) : Conduct α → Conduct α
  | done outcome => .done outcome
  | act a c => .act a (c.within answer)
  | look c => .look fun t => (c t).within answer
  | onward request c => (answer request).andThen fun outcome => (c outcome).within answer

theorem playFrom_andThen (next : Outcome α → Conduct β) (c : Conduct α) :
    ((c.andThen next).run rest).playFrom t =
      ((next ((c.run rest).playFrom t).1).run rest).playFrom ((c.run rest).playFrom t).2 := by
  induction c generalizing t with
  | done outcome => rw [andThen, playFrom_done]
  | act a c ih => rw [andThen, playFrom_act, playFrom_act, ih]
  | look c ih => rw [andThen, playFrom_look, playFrom_look, ih]
  | onward request c ih => rw [andThen, playFrom_onward, playFrom_onward, ih]

theorem playFrom_within (answer : Request → Conduct Reply) (c : Conduct α) :
    ((c.within answer).run rest).playFrom t =
      (c.run fun request => (answer request).run rest).playFrom t := by
  induction c generalizing t with
  | done outcome => rw [within, playFrom_done, playFrom_done]
  | act a c ih => rw [within, playFrom_act, playFrom_act, ih]
  | look c ih => rw [within, playFrom_look, playFrom_look, ih]
  | onward request c ih => rw [within, playFrom_andThen, playFrom_onward, ih]

end Conduct

/-! ### Parts of stages that conduct themselves -/

/-- What a part of a stage does around every rest, a conduct does. -/
def Conducted {α : Type} (part : (Request → Run Reply) → Run α) : Prop :=
  ∃ c : Conduct α, ∀ rest, part rest = c.run rest

namespace Conducted

variable {α β : Type}

theorem ofOutcome (outcome : Outcome α) : Conducted fun _ => Run.ofOutcome outcome :=
  ⟨.done outcome, fun _ => rfl⟩

theorem pure (a : α) : Conducted fun _ => (Pure.pure a : Run α) := ofOutcome (.ok a)

theorem emit (a : Action) : Conducted fun _ => Run.emit a :=
  ⟨.act a (.done (.ok ())), fun rest => Run.eq_of_playFrom fun t => by simp⟩

theorem trace : Conducted fun _ => Run.trace :=
  ⟨.look fun t => .done (.ok t), fun rest => Run.eq_of_playFrom fun t => by simp⟩

theorem onward (request : Request) : Conducted fun rest => rest request :=
  ⟨.onward request .done, fun rest => Run.eq_of_playFrom fun t => by simp⟩

theorem bind {part : (Request → Run Reply) → Run α} {next : α → (Request → Run Reply) → Run β}
    (hpart : Conducted part) (hnext : ∀ a, Conducted (next a)) :
    Conducted fun rest => part rest >>= fun a => next a rest := by
  obtain ⟨c, hc⟩ := hpart
  choose d hd using hnext
  refine ⟨c.andThen (.ifOk d), ?_⟩
  intro rest
  apply Run.eq_of_playFrom
  intro t
  rw [Conduct.playFrom_andThen, Run.playFrom_bind, hc]
  rcases (c.run rest).playFrom t with ⟨e | a, u⟩
  · exact (Conduct.playFrom_done rest u (.error e)).symm
  · exact congrArg (fun r : Run β => r.playFrom u) (hd a rest)

theorem logged (events : List LogEvent) {part : (Request → Run Reply) → Run α}
    (h : Conducted part) : Conducted fun rest => Run.logged events (part rest) := by
  induction events with
  | nil => exact h
  | cons e rest ih => exact (emit (.log e)).bind fun _ => ih

/-- A part whose rest conducts itself. -/
theorem within {part : (Request → Run Reply) → Run α}
    {answer : Request → (Request → Run Reply) → Run Reply} (hpart : Conducted part)
    (hanswer : ∀ request, Conducted (answer request)) :
    Conducted fun rest => part fun request => answer request rest := by
  obtain ⟨c, hc⟩ := hpart
  choose d hd using hanswer
  refine ⟨c.within d, ?_⟩
  intro rest
  apply Run.eq_of_playFrom
  intro t
  have hrest : (fun request => answer request rest) = fun request => (d request).run rest :=
    funext fun request => hd request rest
  rw [Conduct.playFrom_within, ← hc, ← hrest]

theorem ite {p : Prop} [Decidable p] {part part' : (Request → Run Reply) → Run α}
    (h : Conducted part) (h' : Conducted part') :
    Conducted fun rest => if p then part rest else part' rest := by
  split
  · exact h
  · exact h'

end Conducted

namespace Interceptor

/-- A stage conducts itself step by step. -/
def Conducted (stage : Interceptor) : Prop := ∃ conduct, stage = Conduct.stage conduct

theorem conducted_of_parts {stage : Interceptor}
    (h : ∀ request remaining, SqlAccess.Conducted fun rest => stage request ⟨remaining, rest⟩) :
    stage.Conducted := by
  choose c hc using h
  exact ⟨c, funext fun request => funext fun next => hc request next.remaining next.run⟩

end Interceptor

/-! ### Built-in stages -/

theorem SqlLog.conducted (l : SqlLog) : l.interceptor.Conducted := by
  refine Interceptor.conducted_of_parts fun request remaining => ?_
  simp only [SqlLog.interceptor_eq]
  exact .logged _ (.onward request)

theorem SlowQueryLog.conducted (l : SlowQueryLog) : l.interceptor.Conducted := by
  refine Interceptor.conducted_of_parts fun request remaining => ?_
  simp only [SlowQueryLog.interceptor, Run.measured, bind_assoc, pure_bind]
  exact Conducted.trace.bind fun _ => (Conducted.onward request).bind fun reply =>
    Conducted.trace.bind fun _ => .ite ((Conducted.emit _).bind fun _ => .pure reply) (.pure reply)

theorem Executor.conducted_perform {α : Type} (e : Executor) (method : Method) (sql : String)
    (args : List Value) (answer : List Statement → BoundSql → Outcome α) :
    Conducted fun _ => e.perform method sql args answer :=
  Conducted.trace.bind fun _ => (Conducted.emit _).bind fun _ => (Conducted.emit _).bind fun _ =>
    (Conducted.emit _).bind fun _ => .ofOutcome _

namespace Paginator

theorem conducted_countTerminal (request : Request) :
    Conducted fun _ => countTerminal request := by
  have hrow : Conducted fun _ => request.executor.queryRow request.sql request.args :=
    (Executor.conducted_perform ..).bind fun rows => .pure _
  refine hrow.bind fun row => ?_
  cases row with
  | none => exact .pure _
  | some row => exact (Conducted.ofOutcome _).bind fun n => .pure _

theorem conducted_count {p : Paginator} (h : ∀ stage ∈ p.log, stage.Conducted) (request : Request)
    (statement : BoundSql) : Conducted fun _ => p.count request statement := by
  have hreply : Conducted fun _ => (Next.ofStages p.log.toList countTerminal).run
      ⟨statement.sql, statement.args, request.executor, none⟩ := by
    rw [Next.ofStages_eq_nested]
    cases hlog : p.log with
    | none => exact conducted_countTerminal _
    | some stage =>
        obtain ⟨conduct, rfl⟩ := h stage hlog
        have hpart : Conducted fun rest =>
            (conduct ⟨statement.sql, statement.args, request.executor, none⟩ 0).run rest :=
          ⟨_, fun _ => rfl⟩
        exact hpart.within fun request => conducted_countTerminal request
  exact hreply.bind fun reply => .ofOutcome _

/-- The paging stage conducts itself if the one that its counting statements go through does. -/
theorem conducted {p : Paginator} (h : ∀ stage ∈ p.log, stage.Conducted) :
    p.interceptor.Conducted := by
  refine Interceptor.conducted_of_parts fun request remaining => ?_
  simp only [Paginator.interceptor]
  cases request.page? with
  | none => exact .onward request
  | some page =>
      refine Conducted.ite ((Conducted.ofOutcome _).bind fun sql => ?_) (.onward request)
      refine Conducted.ite (Conducted.bind ?_ fun _ => .onward _) (.onward _)
      exact (Conducted.ofOutcome _).bind fun statement => (conducted_count h request _).bind
        fun count => (Conducted.emit _).bind fun _ => .emit _

end Paginator

end SqlAccess
