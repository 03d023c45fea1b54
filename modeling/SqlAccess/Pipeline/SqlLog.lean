/-
**Logging statements.**

Each statement is logged with its parameters before it runs; long texts are cut at a number of
bytes, but never inside a character.

Main definitions:

* `SqlAccess.Text.boundary` — the last place up to a byte at which a text may be cut;
* `SqlAccess.Text.truncate` — a text cut off at that place;
* `SqlAccess.SqlLog` — at which level statements are logged, and how much of them;
* `SqlAccess.SqlLog.interceptor` — the stage.
-/

import SqlAccess.Pipeline.Interceptor
import SqlAccess.Sql.StatementKind

set_option autoImplicit false

namespace SqlAccess

/-! ### Long texts -/

namespace Text

/-- The last place up to a byte at which a text may be cut: a character begins there, or the text
ends.  It is looked for backwards, and the start of the text is always such a place. -/
def boundary (text : String) : Nat → Nat
  | 0 => 0
  | byte + 1 =>
    if (String.Pos.Raw.mk (byte + 1)).isValid text then byte + 1 else boundary text byte

/-- No character stretches over the place, so that the text can be cut there. -/
theorem isValid_boundary (text : String) (byte : Nat) :
    (String.Pos.Raw.mk (boundary text byte)).IsValid text := by
  induction byte with
  | zero => exact String.Pos.Raw.isValid_zero
  | succ byte ih =>
      rw [boundary]
      split
      next h => exact String.Pos.Raw.isValid_eq_true_iff.1 h
      next => exact ih

/-- A text of at most so many bytes as it is, and of a longer one the part that fits. -/
def truncate (limit : Nat) (text : String) : String :=
  if text.utf8ByteSize ≤ limit then text
  else (text.sliceTo (text.pos ⟨boundary text limit⟩ (isValid_boundary text limit))).copy

end Text

/-! ### The stage -/

/-- At which level statements are logged, and how many bytes of a statement at most. -/
structure SqlLog where
  level : LogLevel
  maxBytes : Option Nat
  deriving DecidableEq, Repr, Inhabited

namespace SqlLog

/-- A statement as it is logged: whole if it is short enough, else cut off with three dots. -/
def sqlText (l : SqlLog) (sql : String) : String :=
  match l.maxBytes with
  | some limit =>
    if limit < sql.utf8ByteSize then Text.truncate limit sql ++ "..." else sql
  | none => sql

/-- The values of a statement as they are logged. -/
def argsText (args : List Value) : String := String.intercalate ", " (args.map Value.tagged)

/-- The two events for a statement. -/
def events (l : SqlLog) (sql : String) (args : List Value) : List LogEvent :=
  [⟨l.level, "quarry.sql", "SQL        ==> " ++ l.sqlText sql,
      [("query_type", (Sql.StatementKind.ofSql sql).name)]⟩,
    ⟨l.level, "quarry.sql", "PARAMETERS ==> " ++ argsText args,
      [("param_count", String.ofList (Text.digits args.length))]⟩]

/-- The stage that logs a statement and goes on. -/
def interceptor (l : SqlLog) : Interceptor := fun request next => do
  for event in l.events request.sql request.args do
    Run.emit (.log event)
  next.run request

end SqlLog

end SqlAccess
