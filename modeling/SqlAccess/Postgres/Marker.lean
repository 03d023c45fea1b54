/-
**Numbered markers.**

The server numbers its markers, so each `?` outside quotes becomes a dollar sign and its number.

Main definitions:

* `SqlAccess.Postgres.numbered` — a statement with numbered markers.
-/

import SqlAccess.Text.Word

set_option autoImplicit false

namespace SqlAccess.Postgres

/-- The text with numbered markers, when `quote` is open and `count` markers came before. -/
def numberedFrom (quote : Option Char) (count : Nat) : List Char → List Char
  | [] => []
  | c :: cs =>
    match quote with
    | some q => c :: numberedFrom (if c = q then none else some q) count cs
    | none =>
      if c = '\'' ∨ c = '"' then c :: numberedFrom (some c) count cs
      else if c = '?' then '$' :: Text.digits (count + 1) ++ numberedFrom none (count + 1) cs
      else c :: numberedFrom none count cs

/-- The statement with `$1`, `$2`, … for its `?` markers. -/
def numbered (sql : String) : String := String.ofList (numberedFrom none 0 sql.toList)

end SqlAccess.Postgres
