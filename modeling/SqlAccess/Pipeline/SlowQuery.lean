/-
**Reporting slow calls.**

Main definitions:

* `SqlAccess.SlowQueryReport` — what is told of a slow call;
* `SqlAccess.SlowQueryLog` — the time above which a call is slow, and how it is reported;
* `SqlAccess.SlowQueryLog.interceptor` — the stage, which leaves failures and replies untouched.
-/

import SqlAccess.Pipeline.Interceptor

set_option autoImplicit false

namespace SqlAccess

/-- What is told of a slow call: how long it took, and its statement. -/
abbrev SlowQueryReport := Duration → String → Action

/-- The report as an event in the log. -/
def SlowQueryReport.event : SlowQueryReport := fun _ sql =>
  .log ⟨.warn, "quarry.slow_query", "slow query", [("sql", sql)]⟩

/-- The report as a line with a name of its own, which also tells whether the call was slow. -/
def SlowQueryReport.named (name : String) (threshold : Duration) : SlowQueryReport :=
  fun elapsed sql =>
    .note (name ++ " " ++ Value.boolText (threshold.nanos < elapsed.nanos) ++ " " ++ sql)

/-- The time above which a call is slow, and how it is reported. -/
structure SlowQueryLog where
  threshold : Duration
  report : SlowQueryReport
  deriving Inhabited

/-- The stage that reports a call whose rest took too long; a failed call is not reported. -/
def SlowQueryLog.interceptor (l : SlowQueryLog) : Interceptor := fun request next => do
  let (reply, elapsed) ← Run.measured (next.run request)
  if l.threshold.nanos < elapsed.nanos then
    Run.emit (l.report elapsed request.sql)
  return reply

end SqlAccess
