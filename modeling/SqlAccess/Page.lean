/-
**Pages of a result.**

A page request names a page by number, counted from 1, and size.  A zero number or size asks for no
paging at all.  How many rows and pages there are is found out by a count of its own.

Main definitions:

* `SqlAccess.SortTerm`, `SqlAccess.Page` — the request;
* `SqlAccess.Page.offset` — the rows before the page;
* `SqlAccess.pageCount`, `SqlAccess.PageTotals` — what a count tells.
-/

set_option autoImplicit false

namespace SqlAccess

/-- One term of an `ORDER BY`. -/
structure SortTerm where
  column : String
  desc : Bool
  deriving DecidableEq, Repr, Inhabited

/-- The direction of a term as SQL writes it. -/
def SortTerm.direction (item : SortTerm) : String := if item.desc then "DESC" else "ASC"

/-- A page request. -/
structure Page where
  number : UInt64
  size : UInt64
  orders : List SortTerm
  /-- Whether the rows are to be counted. -/
  countsRows : Bool
  deriving DecidableEq, Repr, Inhabited

namespace Page

/-- The largest offset that can be written. -/
def maxOffset : Nat := Nat.pow 2 64 - 1

/-- The rows before the page, or the largest offset if there are more. -/
def offset (p : Page) : Nat := min ((p.number.toNat - 1) * p.size.toNat) maxOffset

/-- Whether the request asks for paging. -/
def isPaged (p : Page) : Bool := p.size != 0 && p.number != 0

end Page

/-- The number of pages of a size that hold so many rows; none for size zero. -/
def pageCount (count size : UInt64) : UInt64 :=
  if size = 0 then 0 else count / size + (if count % size = 0 then 0 else 1)

/-- What a count has told about a request; zero before any. -/
structure PageTotals where
  count : UInt64
  pages : UInt64
  deriving DecidableEq, Repr, Inhabited

/-- Nothing counted yet. -/
def PageTotals.none : PageTotals := ⟨0, 0⟩

/-- The totals of a request once its rows are counted. -/
def Page.totals (p : Page) (count : UInt64) : PageTotals := ⟨count, pageCount count p.size⟩

end SqlAccess
