/-
**Summaries.**

What a call, its pipeline and its cache are made of, each in one line.  Of stages it is shown
whether they are there or how many there are, since a stage itself has no text.

Main definitions:

* `SqlAccess.Engine.summary`, `SqlAccess.EngineSlots.summary` — which slots are filled;
* `SqlAccess.Context.summary`, `SqlAccess.Request.summary` — a call and its additions;
* `SqlAccess.Cache.Policy.summary` — how calls are cached;
* `SqlAccess.Paginator.summary`, `SqlAccess.SlowQueryLog.summary`, `SqlAccess.Next.summary`,
  `SqlAccess.Reply.summary` — stages, what is left of a pipeline, and replies.
-/

import SqlAccess.Cache.Policy
import SqlAccess.Pipeline.Engine
import SqlAccess.Text.Record

set_option autoImplicit false

namespace SqlAccess

/-- A number as text. -/
def countText (n : Nat) : String := String.ofList (Text.digits n)

/-! ### Engines -/

/-- Which slots are filled, under a name. -/
def slotSummary (name : String) (pagination sqlLog : Bool) (interceptors : Nat)
    (slowQuery : Bool) : String :=
  Text.record name
    [("pagination", Value.boolText pagination), ("sql_debug", Value.boolText sqlLog),
      ("interceptors", countText interceptors), ("slow_query", Value.boolText slowQuery)] true

/-- Whether the paging slot is filled. -/
def PagingSlot.isFilled : PagingSlot → Bool
  | off => false
  | builtin | custom _ => true

/-- Which slots are filled so far. -/
def EngineSlots.summary (s : EngineSlots) : String :=
  slotSummary "EngineBuilder" s.pagination.isFilled s.sqlLog.isSome s.interceptors.length
    s.slowQuery.isSome

/-- Which slots an engine has filled. -/
def Engine.summary (e : Engine) : String :=
  slotSummary "Engine" e.pagination.isSome e.sqlLog.isSome e.interceptors.length
    e.slowQuery.isSome

/-! ### Calls -/

/-- The additions of a call. -/
def Context.summary (c : Context) : String :=
  Text.record "ExecContext"
    [("cache", Value.boolText c.cache.isSome), ("interceptors", countText c.interceptors.length),
      ("timeout", Text.optional (c.timeout.map Duration.render))] true

/-- A call's statement with its values, and the additions of the call. -/
def Request.summary (r : Request) (c : Context) : String :=
  Text.record "ExecOption"
    [("sql", Text.quoted r.sql),
      ("args", "[" ++ String.intercalate ", " (r.args.map Value.literal) ++ "]"),
      ("extension", Value.boolText r.extension.isSome), ("context", c.summary)] false

/-- How calls are cached. -/
def Cache.Policy.summary (p : Cache.Policy) : String :=
  Text.record "CacheConfig"
    [("cache_absent", Value.boolText p.keepsAbsent),
      ("query_timeout", Text.optional (p.waitLimit.map Duration.render)),
      ("evict_before_invocation", Value.boolText p.evictsFirst)] false

/-! ### Stages and replies -/

/-- Whether counting statements are logged. -/
def Paginator.summary (p : Paginator) : String :=
  Text.record "PaginationInterceptor" [("debug", Value.boolText p.log.isSome)] true

/-- The time above which a call is slow. -/
def SlowQueryLog.summary (l : SlowQueryLog) : String :=
  Text.record "SlowQueryInterceptor" [("threshold", l.threshold.render)] false

/-- How many interceptors are left. -/
def Next.summary (n : Next) : String :=
  Text.record "Next" [("remaining", countText n.remaining)] false

/-- Of a reply nothing is shown. -/
def Reply.summary (_ : Reply) : String := "Reply(..)"

end SqlAccess
