/-
**The order of a call's stages.**

However an engine is put together, a call passes its stages in one order: its cache, the paging
stage that was set last, the log of statements that was set last, the engine's own stages in the
order of their registration, the call's extra stages, the log of slow calls that was set last, and
the terminal.

Main definitions:

* `SqlAccess.EngineStep.lastOf` — the last value that steps give to a slot;
* `SqlAccess.Engine.order` — the stages in their order, read off the steps;
* `SqlAccess.EngineStep.SameSlots` — steps with the same last values and the same own stages.

Main results:

* `SqlAccess.EngineSlots.ofSteps_eq` — the slots after several steps;
* `SqlAccess.Engine.passes_in_order` — **a call passes its stages in this order**: they are nested
  around the terminal, and if they conduct themselves step by step, each receives the requests that
  the one before passes on, and what comes of a request goes back to where it has come from.
-/

import Mathlib.Data.List.Induction
import Mathlib.Data.Set.List
import SqlAccess.Cache.Call
import SqlAccess.Proofs.Pipeline.Conduct

set_option autoImplicit false

namespace SqlAccess

/-! ### The last values -/

namespace EngineStep

/-- What a step puts into the paging slot. -/
def paging? : EngineStep → Option PagingSlot
  | pagination slot => some slot
  | _ => none

/-- What a step puts into the slot of the statement log. -/
def log? : EngineStep → Option Interceptor
  | sqlLog stage => some stage
  | _ => none

/-- What a step puts into the slot of the log of slow calls. -/
def slow? : EngineStep → Option Interceptor
  | slowQuery stage => some stage
  | _ => none

/-- The stage that a step registers as one of the engine's own. -/
def own? : EngineStep → Option Interceptor
  | interceptor stage => some stage
  | _ => none

variable {β : Type}

/-- The last value that steps give to a slot. -/
def lastOf (value? : EngineStep → Option β) (steps : List EngineStep) : Option β :=
  (steps.filterMap value?).getLast?

theorem lastOf_concat (value? : EngineStep → Option β) (steps : List EngineStep) (s : EngineStep) :
    lastOf value? (steps ++ [s]) = (value? s).or (lastOf value? steps) := by
  rw [lastOf, lastOf, List.filterMap_append, List.getLast?_append]
  cases hs : value? s <;> simp [hs]

theorem own_concat (steps : List EngineStep) (s : EngineStep) :
    (steps ++ [s]).filterMap own? = steps.filterMap own? ++ (own? s).toList := by
  rw [List.filterMap_append]
  cases hs : own? s <;> simp [hs]

/-- Two sequences of steps give each slot the same last value, and register the same stages in the
same order. -/
structure SameSlots (steps steps' : List EngineStep) : Prop where
  paging : lastOf paging? steps = lastOf paging? steps'
  log : lastOf log? steps = lastOf log? steps'
  slow : lastOf slow? steps = lastOf slow? steps'
  own : steps.filterMap own? = steps'.filterMap own?

end EngineStep

open EngineStep

/-- Of the steps that fill a slot the last counts, and all that register a stage count. -/
theorem EngineSlots.ofSteps_eq (steps : List EngineStep) :
    ofSteps steps =
      ⟨(lastOf paging? steps).getD .off, lastOf log? steps, steps.filterMap own?,
        lastOf slow? steps⟩ := by
  induction steps using List.reverseRecOn with
  | nil => rfl
  | append_singleton steps s ih =>
      have hstep : ofSteps (steps ++ [s]) = (ofSteps steps).step s := by
        rw [ofSteps, List.foldl_append]
        rfl
      rw [hstep, ih, lastOf_concat, lastOf_concat, lastOf_concat, own_concat]
      cases s <;> simp [step, paging?, log?, slow?, own?]

/-! ### The order -/

namespace Engine

/-- The stage in the paging slot: the one that was set last.  Where that is the built-in one, its
counting statements go through the statement log that was set last. -/
def pagingStage (steps : List EngineStep) : Option Interceptor :=
  match lastOf paging? steps with
  | some .builtin => some (Paginator.interceptor ⟨lastOf log? steps⟩)
  | some (.custom stage) => some stage
  | some .off | none => none

/-- The stages of a call in their order. -/
def order (steps : List EngineStep) (context : Context) : List Interceptor :=
  context.cache.toList ++ (pagingStage steps).toList ++ (lastOf log? steps).toList ++
    steps.filterMap own? ++ context.interceptors ++ (lastOf slow? steps).toList

theorem stages_ofSteps (steps : List EngineStep) (context : Context) :
    (ofSteps steps).stages context = order steps context := by
  rw [ofSteps, EngineSlots.ofSteps_eq, order, pagingStage]
  rcases lastOf paging? steps with _ | _ | _ | stage <;> rfl

theorem runWith_eq (e : Engine) (context : Context) (request : Request) (kind : ReplyKind)
    (terminal : Terminal) :
    e.runWith context request kind terminal =
      if (e.stages context).isEmpty then terminal request
      else (do
        let reply ← (Next.nested (e.stages context) terminal).run request
        Run.ofOutcome (reply.expect kind)) := by
  rw [runWith]
  split
  · rename_i hnil
    rw [hnil]
    rfl
  · rename_i hcons
    rw [if_neg (by simpa using hcons), Next.ofStages_eq_nested]

/-- **A call passes its stages in order.**  Without stages the terminal is asked directly; a call
with an attached cache plays the same behind it.  If the stages conduct themselves step by step, the
call plays by the rules: each stage receives the requests that the one before it passes on, what
comes of a request goes back to where it has come from, and all that is left runs once for each
request passed on.  The counting statements of the built-in paging stage go through the statement
log that was set last.  Which steps have put the engine together does not matter beyond the last
value of each slot and the engine's own stages. -/
theorem passes_in_order (steps : List EngineStep) (context : Context) (request : Request)
    (terminal : Terminal) :
    (∀ kind, (ofSteps steps).runWith context request kind terminal =
      if (order steps context).isEmpty then terminal request
      else do
        let reply ← (Next.nested (order steps context) terminal).run request
        Run.ofOutcome (reply.expect kind)) ∧
    (∀ kind attachment, (ofSteps steps).call context request kind (some attachment) =
      ⟨⟨0⟩, some attachment,
        .ofRun ((Next.nested (order steps context) kind.terminal).run request), kind.replyKind,
        context.timeout⟩) ∧
    (∀ conducts, order steps context = conducts.map Conduct.stage → ∀ t outcome t',
      ((Next.nested (order steps context) terminal).run request).playFrom t = (outcome, t') ↔
        Conduct.Plays conducts terminal 0 (.onward request .done) t outcome t') ∧
    (lastOf paging? steps = some .builtin → ∃ p : Paginator,
      pagingStage steps = some p.interceptor ∧ ∀ paged statement, p.count paged statement = do
        let reply ← (Next.nested (lastOf log? steps).toList Paginator.countTerminal).run
          ⟨statement.sql, statement.args, paged.executor, none⟩
        Run.ofOutcome (Paginator.countOfReply reply)) ∧
    (∀ steps', SameSlots steps steps' → ofSteps steps = ofSteps steps') := by
  refine ⟨fun kind => ?_, fun kind attachment => ?_, ?_, fun hbuiltin => ?_, fun steps' h => ?_⟩
  · rw [runWith_eq, stages_ofSteps]
  · rw [call, behindCache, stages_ofSteps, Next.ofStages_eq_nested]
  · intro conducts hconducts t outcome t'
    rw [Conduct.plays_iff, Conduct.playFrom_onward, Conduct.playFrom_done, hconducts,
      Next.behind_eq_nested, List.drop_zero]
  · refine ⟨⟨lastOf log? steps⟩, by rw [pagingStage, hbuiltin], fun paged statement => ?_⟩
    rw [Paginator.count, Next.ofStages_eq_nested]
  · rw [ofSteps, ofSteps, EngineSlots.ofSteps_eq, EngineSlots.ofSteps_eq, h.paging, h.log, h.slow,
      h.own]

/-- Stages that conduct themselves step by step are those of their conducts. -/
theorem exists_conducts {stages : List Interceptor} (h : ∀ stage ∈ stages, stage.Conducted) :
    ∃ conducts : List (Request → Nat → Conduct Reply), stages = conducts.map Conduct.stage := by
  have hrange : stages ∈ Set.range (List.map Conduct.stage) := by
    rw [Set.range_list_map]
    intro stage hstage
    obtain ⟨conduct, rfl⟩ := h stage hstage
    exact ⟨conduct, rfl⟩
  obtain ⟨conducts, rfl⟩ := hrange
  exact ⟨conducts, rfl⟩

/-- A conduct that passes a request on twice, with a mark each time, and keeps the second
outcome. -/
def markedTwice (request : Request) (_ : Nat) : Conduct Reply :=
  .onward { request with sql := "/* 1 */" ++ request.sql } fun _ =>
    .onward { request with sql := "/* 2 */" ++ request.sql } .done

/-- Steps that fill the paging slot and the slot of the statement log twice. -/
def refilledSteps : List EngineStep :=
  [.sqlLog (SqlLog.interceptor ⟨.info, none⟩), .pagination (.custom .pass),
    .interceptor (Conduct.stage markedTwice), .pagination .builtin,
    .slowQuery (SlowQueryLog.interceptor ⟨⟨0⟩, SlowQueryReport.event⟩),
    .sqlLog (SqlLog.interceptor ⟨.debug, some 80⟩)]

/-- Steps that fill the same slots once, in another order. -/
def filledSteps : List EngineStep :=
  [.pagination .builtin, .sqlLog (SqlLog.interceptor ⟨.debug, some 80⟩),
    .slowQuery (SlowQueryLog.interceptor ⟨⟨0⟩, SlowQueryReport.event⟩),
    .interceptor (Conduct.stage markedTwice)]

theorem conducted_order_refilled : ∀ stage ∈ order refilledSteps .empty, stage.Conducted := by
  have hlog : (SqlLog.interceptor ⟨.debug, some 80⟩).Conducted := SqlLog.conducted _
  have horder : order refilledSteps .empty =
      [Paginator.interceptor ⟨some (SqlLog.interceptor ⟨.debug, some 80⟩)⟩,
        SqlLog.interceptor ⟨.debug, some 80⟩, Conduct.stage markedTwice,
        SlowQueryLog.interceptor ⟨⟨0⟩, SlowQueryReport.event⟩] := rfl
  rw [horder]
  intro stage hstage
  simp only [List.mem_cons, List.not_mem_nil, or_false] at hstage
  obtain rfl | rfl | rfl | rfl := hstage
  · refine Paginator.conducted ?_
    rintro stage ⟨⟩
    exact hlog
  · exact hlog
  · exact ⟨markedTwice, rfl⟩
  · exact SlowQueryLog.conducted _

/-- The two sequences give the same engine, its counting statements go through the second statement
log, and its stages, which all conduct themselves step by step, play by the rules. -/
theorem passes_in_order_of_refilled :
    (∃ p : Paginator, pagingStage refilledSteps = some p.interceptor ∧
      lastOf log? refilledSteps = some (SqlLog.interceptor ⟨.debug, some 80⟩)) ∧
    (SameSlots refilledSteps filledSteps ∧ ofSteps refilledSteps = ofSteps filledSteps) ∧
    ∃ conducts, order refilledSteps .empty = conducts.map Conduct.stage ∧
      ∀ request t outcome t',
        ((Next.nested (order refilledSteps .empty) CallKind.rows.terminal).run request).playFrom t =
            (outcome, t') ↔
          Conduct.Plays conducts CallKind.rows.terminal 0 (.onward request .done) t outcome t' := by
  have hslots : SameSlots refilledSteps filledSteps := ⟨rfl, rfl, rfl, rfl⟩
  obtain ⟨conducts, hconducts⟩ := exists_conducts conducted_order_refilled
  obtain ⟨-, -, -, hcount, hsame⟩ := passes_in_order refilledSteps .empty default
    CallKind.rows.terminal
  obtain ⟨p, hp, -⟩ := hcount rfl
  refine ⟨⟨p, hp, rfl⟩, ⟨hslots, hsame _ hslots⟩, conducts, hconducts, ?_⟩
  intro request
  obtain ⟨-, -, hrules, -⟩ := passes_in_order refilledSteps .empty request CallKind.rows.terminal
  exact hrules conducts hconducts

end Engine

end SqlAccess
