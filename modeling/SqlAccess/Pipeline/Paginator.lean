/-
**Paging a statement on its way.**

A `SELECT` that comes with a page request is replaced by the statement for the page.  If the caller
wants to know how many rows there are in all, the statement that counts them runs first.

Main definitions:

* `SqlAccess.Paginator` — the paging stage's own logging, if any;
* `SqlAccess.Paginator.count` — the counting statement;
* `SqlAccess.Paginator.interceptor` — the stage.
-/

import SqlAccess.Pipeline.Interceptor
import SqlAccess.Row.Typed
import SqlAccess.Sql.Paging

set_option autoImplicit false

namespace SqlAccess

/-- The stage through which counting statements go. -/
structure Paginator where
  log : Option Interceptor

namespace Paginator

/-- The count in the first column of the first row; no row counts as zero. -/
def countTerminal : Terminal := fun request => do
  match ← request.executor.queryRow request.sql request.args with
  | some row => return .integer (← Run.ofOutcome (row.getAt .int64 0))
  | none => return .integer 0

/-- The count that a reply brings; a negative one counts as zero. -/
def countOfReply (reply : Reply) : Outcome UInt64 :=
  match reply with
  | .integer n => .ok (if n.toInt < 0 then 0 else n.toUInt64)
  | _ => .error (.unexpectedReply ReplyKind.integer.name)

/-- The number of rows that a counting statement finds. -/
def count (p : Paginator) (request : Request) (statement : BoundSql) : Run UInt64 := do
  let next := Next.ofStages p.log.toList countTerminal
  let reply ← next.run ⟨statement.sql, statement.args, request.executor, none⟩
  Run.ofOutcome (countOfReply reply)

/-- The event that tells the totals. -/
def totalsEvent (totals : PageTotals) : LogEvent :=
  ⟨.trace, "quarry.sql", "page count",
    [("total", String.ofList (Text.digits totals.count.toNat)),
      ("pages", String.ofList (Text.digits totals.pages.toNat))]⟩

/-- Whether a statement can be paged: its first word is `SELECT`. -/
def isPageable (sql : String) : Bool :=
  Text.beginsWithKeyword "SELECT".toList (Sql.skipLeading sql.toList)

/-- The rows are counted, and the totals become known. -/
def noteTotals (p : Paginator) (request : Request) (page : Page) : Run Unit := do
  let statement ← Run.ofOutcome (Sql.countStatement request.sql request.args)
  let totals := page.totals (← p.count request statement)
  Run.emit (.totals totals)
  Run.emit (.log (totalsEvent totals))

/-- The stage that pages a `SELECT`; all other calls pass through untouched. -/
def interceptor (p : Paginator) : Interceptor := fun request next => do
  match request.page? with
  | none => next.run request
  | some page =>
    if page.isPaged && isPageable request.sql then
      let sql ← Run.ofOutcome (Sql.pageStatement request.sql page)
      if page.countsRows then
        p.noteTotals request page
      next.run { request with sql }
    else next.run request

end Paginator

end SqlAccess
