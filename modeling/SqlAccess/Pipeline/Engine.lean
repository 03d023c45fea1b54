/-
**Engines.**

An engine is a fixed pipeline in front of an executor.  Behind the cache of a call, if it has one,
come paging, the log of statements, the engine's own interceptors in the order of their
registration, the call's extra ones, and the log of slow calls.  Slots that are not filled are
skipped.

Main definitions:

* `SqlAccess.PagingSlot`, `SqlAccess.EngineSlots`, `SqlAccess.EngineStep` — what an engine is made
  of, and the steps by which it is put together;
* `SqlAccess.Engine` — the slots filled;
* `SqlAccess.Engine.stages` — the pipeline of a call;
* `SqlAccess.CallKind`, `SqlAccess.CallKind.terminal` — what a caller asks for;
* `SqlAccess.Engine.run` — a call as a run.
-/

import SqlAccess.Config.Settings
import SqlAccess.Pipeline.Paginator
import SqlAccess.Pipeline.SlowQuery
import SqlAccess.Pipeline.SqlLog

set_option autoImplicit false

namespace SqlAccess

/-! ### Putting an engine together -/

/-- What fills the paging slot. -/
inductive PagingSlot where
  | off
  /-- The built-in stage, whose counting statements go through the log slot. -/
  | builtin
  | custom (stage : Interceptor)

/-- The slots while an engine is put together. -/
structure EngineSlots where
  pagination : PagingSlot
  sqlLog : Option Interceptor
  interceptors : List Interceptor
  slowQuery : Option Interceptor

/-- One step of putting an engine together. -/
inductive EngineStep where
  | pagination (slot : PagingSlot)
  | sqlLog (stage : Interceptor)
  | slowQuery (stage : Interceptor)
  | interceptor (stage : Interceptor)

namespace EngineSlots

/-- No slot filled. -/
def empty : EngineSlots := ⟨.off, none, [], none⟩

/-- One more step: of two that fill one slot, the later counts. -/
def step (s : EngineSlots) : EngineStep → EngineSlots
  | .pagination slot => { s with pagination := slot }
  | .sqlLog stage => { s with sqlLog := some stage }
  | .slowQuery stage => { s with slowQuery := some stage }
  | .interceptor stage => { s with interceptors := s.interceptors ++ [stage] }

/-- The slots after several steps. -/
def ofSteps (steps : List EngineStep) : EngineSlots := steps.foldl step empty

end EngineSlots

/-- An engine. -/
structure Engine where
  pagination : Option Interceptor
  sqlLog : Option Interceptor
  interceptors : List Interceptor
  slowQuery : Option Interceptor

/-- The engine with these slots. -/
def EngineSlots.build (s : EngineSlots) : Engine :=
  let pagination := match s.pagination with
    | .off => none
    | .builtin => some (Paginator.interceptor ⟨s.sqlLog⟩)
    | .custom stage => some stage
  ⟨pagination, s.sqlLog, s.interceptors, s.slowQuery⟩

/-- The steps that settings stand for. -/
def Settings.steps (s : Settings) : Outcome (List EngineStep) := do
  s.check
  let pagination := if s.pagination then [EngineStep.pagination .builtin] else []
  let sqlLog ← match s.sqlLog with
    | some log => do
      let level ← log.logLevel
      pure [EngineStep.sqlLog (SqlLog.interceptor ⟨level, log.maxBytes⟩)]
    | none => pure []
  let slowQuery := match s.slowQuery with
    | some slow =>
      [EngineStep.slowQuery (SlowQueryLog.interceptor ⟨slow.threshold, SlowQueryReport.event⟩)]
    | none => []
  return pagination ++ sqlLog ++ slowQuery

namespace Engine

/-- The engine without stages. -/
def empty : Engine := ⟨none, none, [], none⟩

/-- The engine that steps put together. -/
def ofSteps (steps : List EngineStep) : Engine := (EngineSlots.ofSteps steps).build

/-- The engine that settings describe. -/
def ofSettings (s : Settings) : Outcome Engine := s.steps.map ofSteps

end Engine

/-! ### Calls -/

/-- Per-call additions to an engine's pipeline. -/
structure Context where
  /-- A cache stage, which comes first. -/
  cache : Option Interceptor
  interceptors : List Interceptor
  /-- How long the whole call may take. -/
  timeout : Option Duration

/-- No additions. -/
def Context.empty : Context := ⟨none, [], none⟩

/-- The stages of a call, outermost first. -/
def Engine.stages (e : Engine) (context : Context) : List Interceptor :=
  context.cache.toList ++ e.pagination.toList ++ e.sqlLog.toList ++ e.interceptors ++
    context.interceptors ++ e.slowQuery.toList

/-- What a caller asks for. -/
inductive CallKind where
  | execute
  | rows
  | allIntegers
  | allTexts
  | firstRow
  | firstInteger
  deriving DecidableEq, Repr, Inhabited

namespace CallKind

/-- The kind of reply that answers a call. -/
def replyKind : CallKind → ReplyKind
  | execute => .affected
  | rows => .rows
  | allIntegers => .integers
  | allTexts => .texts
  | firstRow => .optionalRow
  | firstInteger => .optionalInteger

/-- All rows read alike; the first that cannot be read is an error. -/
def readAll {α : Type} (read : Row → Outcome α) : List Row → Outcome (List α)
  | [] => .ok []
  | row :: rest => do
    let x ← read row
    return x :: (← readAll read rest)

/-- The terminal that gives a call's statement to the executor. -/
def terminal (kind : CallKind) : Terminal := fun request => do
  let e := request.executor
  match kind with
  | execute => return .affected (← e.execute request.sql request.args)
  | rows => return .rows (← e.query request.sql request.args)
  | allIntegers =>
    let rows ← e.query request.sql request.args
    return .integers (← Run.ofOutcome (readAll (fun row => row.getAt .int64 0) rows))
  | allTexts =>
    let rows ← e.query request.sql request.args
    return .texts (← Run.ofOutcome (readAll (fun row => row.getAt .text 0) rows))
  | firstRow => return .optionalRow (← e.queryRow request.sql request.args)
  | firstInteger =>
    match ← e.queryRow request.sql request.args with
    | some row => return .optionalInteger (some (← Run.ofOutcome (row.getAt .int64 0)))
    | none => return .optionalInteger none

end CallKind

namespace Engine

/-- A call of a terminal that replies with a kind.  Without stages the terminal is asked directly;
behind stages the reply must turn out to be of its kind. -/
def runWith (e : Engine) (context : Context) (request : Request) (kind : ReplyKind)
    (terminal : Terminal) : Run Reply :=
  match e.stages context with
  | [] => terminal request
  | stages => do
    let reply ← (Next.ofStages stages terminal).run request
    Run.ofOutcome (reply.expect kind)

/-- A call as a run. -/
def run (e : Engine) (context : Context) (request : Request) (kind : CallKind) : Run Reply :=
  e.runWith context request kind.replyKind kind.terminal

end Engine

end SqlAccess
