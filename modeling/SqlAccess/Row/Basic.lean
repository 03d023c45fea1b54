/-
**Rows.**

Main definitions:

* `SqlAccess.Row` — named columns with their values;
* `SqlAccess.Row.named?`, `SqlAccess.Row.at?` — a value by column name or by position.
-/

import SqlAccess.Value.Basic

set_option autoImplicit false

namespace SqlAccess

/-- A result row: its columns in order, each with its value. -/
structure Row where
  cells : List (String × Value)
  deriving Inhabited

namespace Row

/-- The names of the columns. -/
def columns (r : Row) : List String := r.cells.map Prod.fst

/-- The values in the order of the columns. -/
def values (r : Row) : List Value := r.cells.map Prod.snd

/-- The value of the first column of that name. -/
def named? (r : Row) (column : String) : Option Value :=
  (r.cells.find? fun c => c.1 = column).map Prod.snd

/-- The value at a position counted from zero. -/
def at? (r : Row) (position : Nat) : Option Value := (r.cells[position]?).map Prod.snd

/-- How an error names the column at a position: by its name, or by the position if there is
none. -/
def columnLabel (r : Row) (position : Nat) : String :=
  match r.cells[position]? with
  | some (name, _) => name
  | none => "#" ++ String.ofList (Text.digits position)

end Row

end SqlAccess
