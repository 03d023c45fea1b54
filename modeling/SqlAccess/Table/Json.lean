/-
**Tables as JSON.**

Main definitions:

* `SqlAccess.Column.jsonText`, `SqlAccess.Table.jsonText` — the compact JSON text of a column and of
  a table, name first.
-/

import SqlAccess.Json.Basic
import SqlAccess.Table

set_option autoImplicit false

namespace SqlAccess

/-- Name and declaration. -/
def Column.jsonText (c : Column) : String :=
  "\x7b\"name\":" ++ Json.quoted c.name ++ ",\"declared_type\":" ++ Json.quoted c.declaredType ++
    "\x7d"

/-- Name and columns. -/
def Table.jsonText (t : Table) : String :=
  "\x7b\"name\":" ++ Json.quoted t.name ++ ",\"columns\":[" ++
    String.intercalate "," (t.columns.map Column.jsonText) ++ "]\x7d"

end SqlAccess
