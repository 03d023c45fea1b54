/-
**The kind of a statement.**

A statement is classified by its first word, after blanks, comments and opening parentheses.  One
that begins with a list of common table expressions is classified by the statement after the list.

Main definitions:

* `SqlAccess.Sql.StatementKind` — the kinds;
* `SqlAccess.Sql.skipLeading` — a text from its first word on;
* `SqlAccess.Sql.StatementKind.ofSql` — the kind of a text.
-/

import SqlAccess.Text.Blank
import SqlAccess.Sql.Code

set_option autoImplicit false

namespace SqlAccess.Sql

/-! ### Before the first word -/

theorem length_trimStart_le (cs : List Char) : (Text.trimStart cs).length ≤ cs.length :=
  (List.dropWhile_sublist _).length_le

/-- One thing that may stand before the first word, skipped: a line comment, a block comment or an
opening parenthesis; a comment that does not end leaves nothing. -/
def skipOne? (cs : List Char) : Option (List Char) :=
  match cs with
  | '-' :: '-' :: _ =>
    match Text.cut? '\n' cs with
    | some (_, rest) => some rest
    | none => some []
  | '/' :: '*' :: _ =>
    match Text.cutAt? ['*', '/'] cs with
    | some (_, rest) => some rest
    | none => some []
  | '(' :: rest => some rest
  | _ => none

theorem length_lt_of_skipOne? {cs rest : List Char} (h : skipOne? cs = some rest) :
    rest.length < cs.length := by
  unfold skipOne? at h
  split at h
  · split at h
    · rename_i hcut
      have hcut := congrArg List.length (Text.eq_of_cut? hcut)
      simp only [List.length_append, List.length_cons, Option.some.injEq] at hcut h ⊢
      rw [← h]
      omega
    · simp only [Option.some.injEq] at h
      simp [← h]
  · split at h
    · rename_i hcut
      have hcut := congrArg List.length (Text.eq_of_cutAt? hcut)
      simp only [List.length_append, List.length_cons, Option.some.injEq] at hcut h ⊢
      rw [← h]
      omega
    · simp only [Option.some.injEq] at h
      simp [← h]
  · simp only [Option.some.injEq] at h
    simp [← h]
  · simp at h

/-- The text without the blanks, comments and opening parentheses at its start. -/
def skipLeading (cs : List Char) : List Char :=
  match _h : skipOne? (Text.trimStart cs) with
  | some rest => skipLeading rest
  | none => Text.trimStart cs
  termination_by cs.length
  decreasing_by
    have h := length_lt_of_skipOne? _h
    have htrim := length_trimStart_le cs
    omega

/-! ### Kinds -/

/-- The kind of a statement. -/
inductive StatementKind where
  | select
  | insert
  | update
  | delete
  | other
  deriving DecidableEq, Repr, Inhabited

namespace StatementKind

/-- The name of a kind. -/
def name : StatementKind → String
  | select => "Select"
  | insert => "Insert"
  | update => "Update"
  | delete => "Delete"
  | other => "Other"

/-- The kinds with a leading keyword. -/
def keywords : List (List Char × StatementKind) :=
  [("SELECT".toList, select), ("INSERT".toList, insert), ("UPDATE".toList, update),
    ("DELETE".toList, delete)]

/-- The kind of a text that starts with its keyword. -/
def ofLeading (cs : List Char) : StatementKind :=
  match keywords.find? fun k => Text.beginsWithKeyword k.1 cs with
  | some (_, kind) => kind
  | none => other

/-- The kind of a statement whose leading blanks, comments and parentheses are gone. -/
def ofBody (cs : List Char) : StatementKind :=
  if Text.beginsWithKeyword "WITH".toList cs then
    match findKeyword? (keywords.map Prod.fst) cs with
    | some (_, statement) => ofLeading statement
    | none => other
  else ofLeading cs

/-- The kind of a SQL text. -/
def ofSql (sql : String) : StatementKind := ofBody (skipLeading sql.toList)

end StatementKind

end SqlAccess.Sql
