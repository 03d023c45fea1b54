/-
**Statements for a page.**

A statement is turned into the statement for one of its pages by an `ORDER BY` and a `LIMIT` at its
end, and into the statement that counts its rows by replacing all that comes before its `FROM`.

Main definitions:

* `SqlAccess.Sql.withoutEnd` — a statement without the semicolons and blanks at its end;
* `SqlAccess.Sql.pageStatement` — the statement for a page;
* `SqlAccess.Sql.countStatement` — the statement that counts, with the values that it still binds.
-/

import SqlAccess.Error
import SqlAccess.Page
import SqlAccess.Sql.Identifier
import SqlAccess.Sql.StatementKind
import SqlAccess.Statement.Builder

set_option autoImplicit false

namespace SqlAccess.Sql

/-- The statement without blanks, then semicolons, then blanks at its end. -/
def withoutEnd (cs : List Char) : List Char :=
  Text.trimEnd (Text.dropTrailing (· == ';') (Text.trimEnd cs))

/-- The terms of an `ORDER BY`, as they stand after the statement; none add nothing. -/
def orderText : List SortTerm → String
  | [] => ""
  | items => " ORDER BY " ++
    String.intercalate ", " (items.map fun item => item.column ++ " " ++ item.direction)

/-- The first column that is no identifier is an error. -/
def checkOrders : List SortTerm → Outcome Unit
  | [] => .ok ()
  | item :: rest =>
    match testIdentifier item.column with
    | .error fault => .error (.validation fault.message)
    | .ok () => checkOrders rest

/-- The `LIMIT` of a page: its size and the rows before it. -/
def limitText (page : Page) : String :=
  " LIMIT " ++ String.ofList (Text.digits page.size.toNat) ++ ", " ++
    String.ofList (Text.digits page.offset)

/-- The statement for a page. -/
def pageStatement (sql : String) (page : Page) : Outcome String := do
  checkOrders page.orders
  return String.ofList (withoutEnd sql.toList) ++ orderText page.orders ++ limitText page

/-- The statement that counts the rows of another: what comes before its first word stays, its
select list goes, and with it the values that the list's markers bind. -/
def countStatement (sql : String) (args : List Value) : Outcome BoundSql :=
  let whole := withoutEnd sql.toList
  let body := skipLeading whole
  match findKeyword? ["FROM".toList] body with
  | none => .error (.pagination ("no top-level FROM in '" ++ String.ofList whole ++ "'"))
  | some (dropped, tail) =>
    let leading := whole.take (whole.length - body.length)
    .ok ⟨String.ofList leading ++ "SELECT COUNT(*) " ++ String.ofList tail,
      args.drop (markerCount dropped)⟩

end SqlAccess.Sql
