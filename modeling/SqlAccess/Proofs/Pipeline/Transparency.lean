/-
**Logs are transparent.**

The built-in logs, of statements and of slow calls, only remark upon a call.  Wherever they stand in
a pipeline, and whatever they log, the call does the same and ends in the same way as without them,
as long as the other stages look neither at the number of stages left nor at remarks.

Main definitions:

* `SqlAccess.Interceptor.Impartial` — stages that look at neither;
* `SqlAccess.Interceptor.IsLog` — the built-in logs;
* `SqlAccess.UpToLogs` — pipelines that differ in built-in logs only;
* `SqlAccess.Terminal.Impartial`, `SqlAccess.Terminal.Replies` — terminals that do not look at
  remarks, and terminals whose replies are of one kind.

Main results:

* `SqlAccess.Conduct.impartial_stage` — a stage that conducts itself step by step and does not look
  is impartial;
* `SqlAccess.UpToLogs.alike` — **pipelines that differ in logs only are alike**;
* `SqlAccess.Paginator.agree` — so are paging stages whose counting statements go through such
  pipelines;
* `SqlAccess.CallKind.impartial_terminal`, `SqlAccess.CallKind.replies_terminal` — what a caller can
  ask for is impartial, and replies with its own kind.
-/

import SqlAccess.Pipeline.Engine
import SqlAccess.Proofs.Pipeline.Conduct
import SqlAccess.Proofs.Pipeline.Remarks

set_option autoImplicit false

namespace SqlAccess

open SqlAccess.Action

/-! ### Stages -/

namespace Interceptor

/-- Two stages are alike before rests that are alike, however many stages these have. -/
def Agree (stage stage' : Interceptor) : Prop :=
  ∀ request (next next' : Next), (∀ passed, (next.run passed).Alike (next'.run passed)) →
    (stage request next).Alike (stage' request next')

/-- A stage that looks neither at the number of stages left nor at remarks. -/
structure Impartial (stage : Interceptor) : Prop where
  remaining : ∀ request run left left', stage request ⟨left, run⟩ = stage request ⟨left', run⟩
  remarks : ∀ request left run run', (∀ passed, (run passed).Alike (run' passed)) →
    (stage request ⟨left, run⟩).Alike (stage request ⟨left, run'⟩)

theorem Impartial.agree {stage : Interceptor} (h : stage.Impartial) : stage.Agree stage := by
  intro request next next' hnext
  have hleft := h.remaining request next'.run next.remaining next'.remaining
  exact hleft ▸ h.remarks request next.remaining next.run next'.run hnext

/-- The built-in logs: of statements, and of slow calls if the report is a remark. -/
inductive IsLog : Interceptor → Prop
  | sql (l : SqlLog) : IsLog l.interceptor
  | slow (l : SlowQueryLog) (h : ∀ elapsed sql, (l.report elapsed sql).isRemark = true) :
      IsLog l.interceptor

end Interceptor

/-- A log of statements remarks, and goes on. -/
theorem SqlLog.alike_interceptor (l : SqlLog) {request : Request} {next : Next} {r : Run Reply}
    (h : (next.run request).Alike r) : (l.interceptor request next).Alike r := by
  rw [interceptor_eq]
  exact .logged_left _ h

theorem Run.playFrom_measured {α : Type} (r : Run α) (t : List Action) :
    ∃ elapsed, r.measured.playFrom t =
      ((r.playFrom t).1.map fun a => (a, elapsed), (r.playFrom t).2) := by
  refine ⟨⟨grain + (((r.playFrom t).2.drop t.length).map workNanos).foldr (· + ·) 0⟩, ?_⟩
  rw [measured, playFrom_trace_bind, playFrom_bind]
  rcases r.playFrom t with ⟨_ | a, u⟩ <;> rfl

/-- A log of slow calls goes on, and may remark upon it. -/
theorem SlowQueryLog.alike_interceptor {l : SlowQueryLog}
    (hreport : ∀ elapsed sql, (l.report elapsed sql).isRemark = true) {request : Request}
    {next : Next} {r : Run Reply} (h : (next.run request).Alike r) :
    (l.interceptor request next).Alike r := by
  intro t t' ht
  obtain ⟨elapsed, hmeasured⟩ := (next.run request).playFrom_measured t
  obtain ⟨houtcome, hdeeds⟩ := h ht
  rw [interceptor, Run.playFrom_bind, hmeasured, ← houtcome, ← hdeeds]
  generalize (next.run request).playFrom t = p
  rcases p with ⟨e | reply, u⟩
  · exact ⟨rfl, rfl⟩
  · by_cases hslow : l.threshold.nanos < elapsed.nanos
    · simp only [Except.map, if_pos hslow, Run.playFrom_emit_bind, Run.playFrom_pure,
        deeds_concat_of_remark (hreport elapsed request.sql), and_self]
    · simp only [Except.map, if_neg hslow, Run.playFrom_pure, and_self]

/-- A built-in log makes no difference. -/
theorem Interceptor.IsLog.alike {stage : Interceptor} (hlog : stage.IsLog) {request : Request}
    {next : Next} {r : Run Reply} (h : (next.run request).Alike r) :
    (stage request next).Alike r := by
  cases hlog with
  | sql l => exact l.alike_interceptor h
  | slow l hreport => exact SlowQueryLog.alike_interceptor hreport h

/-! ### Stages that do not look -/

/-- A conduct that does not look at remarks. -/
inductive Conduct.Blind {α : Type} : Conduct α → Prop
  | done (outcome : Outcome α) : Blind (.done outcome)
  | act (a : Action) {c : Conduct α} (h : Blind c) : Blind (.act a c)
  | look {c : List Action → Conduct α} (hsame : ∀ t t', deeds t = deeds t' → c t = c t')
      (h : ∀ t, Blind (c t)) : Blind (.look c)
  | onward (request : Request) {c : Outcome Reply → Conduct α} (h : ∀ outcome, Blind (c outcome)) :
      Blind (.onward request c)

theorem Conduct.Blind.alike {α : Type} {c : Conduct α} (hc : c.Blind)
    {rest rest' : Request → Run Reply} (h : ∀ passed, (rest passed).Alike (rest' passed)) :
    (c.run rest).Alike (c.run rest') := by
  induction hc with
  | done outcome => exact .ofOutcome outcome
  | act a _ ih => exact (Run.Alike.emit a).bind fun _ => ih
  | look hsame _ ih => exact .look fun t t' ht => hsame t t' ht ▸ ih t
  | onward request _ ih => exact (h request).attempt.bind fun outcome => ih outcome

/-- A stage that conducts itself step by step, and looks neither at the number of stages left nor at
remarks, is impartial. -/
theorem Conduct.impartial_stage {conduct : Request → Conduct Reply}
    (h : ∀ request, (conduct request).Blind) :
    Interceptor.Impartial (Conduct.stage fun request _ => conduct request) where
  remaining _ _ _ _ := rfl
  remarks request _ _ _ hrest := (h request).alike hrest

/-! ### Pipelines -/

/-- Pipelines that differ in built-in logs only; of their other stages, those in the same places are
as said. -/
inductive UpToLogs (same : Interceptor → Interceptor → Prop) :
    List Interceptor → List Interceptor → Prop
  | nil : UpToLogs same [] []
  | both {stage stage' : Interceptor} {rest rest' : List Interceptor} (hstage : same stage stage')
      (h : UpToLogs same rest rest') : UpToLogs same (stage :: rest) (stage' :: rest')
  | left {log : Interceptor} {rest rest' : List Interceptor} (hlog : log.IsLog)
      (h : UpToLogs same rest rest') : UpToLogs same (log :: rest) rest'
  | right {log : Interceptor} {rest rest' : List Interceptor} (hlog : log.IsLog)
      (h : UpToLogs same rest rest') : UpToLogs same rest (log :: rest')

namespace UpToLogs

variable {same same' : Interceptor → Interceptor → Prop}
  {stages stages' rest rest' : List Interceptor}

theorem append (h : UpToLogs same stages stages') (hrest : UpToLogs same rest rest') :
    UpToLogs same (stages ++ rest) (stages' ++ rest') := by
  induction h with
  | nil => exact hrest
  | both hstage _ ih => exact .both hstage ih
  | left hlog _ ih => exact .left hlog ih
  | right hlog _ ih => exact .right hlog ih

theorem mono (hsame : ∀ stage stage', same stage stage' → same' stage stage')
    (h : UpToLogs same stages stages') : UpToLogs same' stages stages' := by
  induction h with
  | nil => exact .nil
  | both hstage _ ih => exact .both (hsame _ _ hstage) ih
  | left hlog _ ih => exact .left hlog ih
  | right hlog _ ih => exact .right hlog ih

/-- **Pipelines that differ in logs only are alike.** -/
theorem alike (h : UpToLogs Interceptor.Agree stages stages') {terminal : Terminal}
    (hterminal : ∀ request, (terminal request).Alike (terminal request)) (request : Request) :
    ((Next.nested stages terminal).run request).Alike
      ((Next.nested stages' terminal).run request) := by
  induction h generalizing request with
  | nil => exact hterminal request
  | both hstage _ ih => exact hstage request _ _ ih
  | left hlog _ ih => exact hlog.alike (ih request)
  | right hlog _ ih => exact (hlog.alike (ih request).symm).symm

end UpToLogs

/-! ### Paging -/

namespace Paginator

variable {p p' : Paginator}

theorem alike_countTerminal (request : Request) :
    (countTerminal request).Alike (countTerminal request) := by
  refine (Executor.alike_queryRow ..).bind ?_
  intro row
  cases row with
  | none => exact .pure _
  | some row => exact (Run.Alike.ofOutcome _).bind fun n => .pure _

/-- Rows are counted alike if the counting statements go through stages that differ in logs only. -/
theorem alike_count (h : UpToLogs Interceptor.Agree p.log.toList p'.log.toList) (request : Request)
    (statement : BoundSql) : (p.count request statement).Alike (p'.count request statement) := by
  simp only [count, Next.ofStages_eq_nested]
  refine (h.alike alike_countTerminal _).bind ?_
  intro reply
  exact .ofOutcome _

theorem alike_noteTotals (h : UpToLogs Interceptor.Agree p.log.toList p'.log.toList)
    (request : Request) (page : Page) :
    (p.noteTotals request page).Alike (p'.noteTotals request page) := by
  refine (Run.Alike.ofOutcome _).bind ?_
  intro statement
  refine (alike_count h request statement).bind ?_
  intro count
  exact (Run.Alike.emit _).bind fun _ => .emit _

/-- Paging stages are alike if their counting statements go through stages that differ in logs
only. -/
theorem agree (h : UpToLogs Interceptor.Agree p.log.toList p'.log.toList) :
    p.interceptor.Agree p'.interceptor := by
  intro request next next' hnext
  unfold interceptor
  cases request.page? with
  | none => exact hnext request
  | some page =>
      refine .ite ((Run.Alike.ofOutcome _).bind ?_) (hnext request)
      intro sql
      exact .ite ((alike_noteTotals h request page).bind fun _ => hnext _) (hnext _)

end Paginator

/-! ### Terminals -/

/-- All that a run ends with is as said. -/
def Run.Yields {α : Type} (r : Run α) (p : α → Prop) : Prop :=
  ∀ t a u, r.playFrom t = (.ok a, u) → p a

theorem Run.Yields.pure {α : Type} {p : α → Prop} {a : α} (h : p a) :
    (Pure.pure a : Run α).Yields p := by
  intro t a' u heq
  cases heq
  exact h

theorem Run.Yields.bind {α β : Type} {p : β → Prop} (r : Run α) {f : α → Run β}
    (h : ∀ a, (f a).Yields p) : (r >>= f).Yields p := by
  intro t b u heq
  rw [playFrom_bind] at heq
  rcases hr : r.playFrom t with ⟨e | a, u'⟩
  · rw [hr] at heq
    cases heq
  · rw [hr] at heq
    exact h a _ _ _ heq

namespace Terminal

/-- A terminal that does not look at remarks. -/
def Impartial (terminal : Terminal) : Prop := ∀ request, (terminal request).Alike (terminal request)

/-- A terminal whose replies are all of a kind. -/
def Replies (terminal : Terminal) (kind : ReplyKind) : Prop :=
  ∀ request, (terminal request).Yields fun reply => reply.kind = kind

end Terminal

namespace CallKind

variable (kind : CallKind)

theorem impartial_terminal : kind.terminal.Impartial := by
  intro request
  have hquery := Executor.alike_perform request.executor .query request.sql request.args
    request.executor.rows
  have hrow := Executor.alike_queryRow request.executor request.sql request.args
  cases kind with
  | execute => exact (Executor.alike_perform ..).bind fun _ => .pure _
  | rows => exact hquery.bind fun _ => .pure _
  | allIntegers => exact hquery.bind fun _ => (Run.Alike.ofOutcome _).bind fun _ => .pure _
  | allTexts => exact hquery.bind fun _ => (Run.Alike.ofOutcome _).bind fun _ => .pure _
  | firstRow => exact hrow.bind fun _ => .pure _
  | firstInteger =>
      refine hrow.bind ?_
      intro row
      cases row with
      | none => exact .pure _
      | some row => exact (Run.Alike.ofOutcome _).bind fun _ => .pure _

theorem replies_terminal : kind.terminal.Replies kind.replyKind := by
  intro request
  cases kind with
  | execute | rows | firstRow => exact .bind _ fun _ => .pure rfl
  | allIntegers | allTexts => exact .bind _ fun _ => .bind _ fun _ => .pure rfl
  | firstInteger =>
      refine .bind _ ?_
      intro row
      cases row with
      | none => exact .pure rfl
      | some row => exact .bind _ fun _ => .pure rfl

end CallKind

end SqlAccess
