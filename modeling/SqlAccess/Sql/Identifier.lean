/-
**Identifiers.**

The columns of an `ORDER BY` are spliced into SQL as text, so they must be identifiers: one or more
parts joined by dots, each either a word or a quoted text in which a quote is written twice.

Main definitions:

* `SqlAccess.Sql.IdentifierFault` — what is wrong with a text;
* `SqlAccess.Sql.testIdentifier` — the test of a text.
-/

import SqlAccess.Text.Word

set_option autoImplicit false

namespace SqlAccess.Sql

/-! ### Faults -/

/-- Why a text is no identifier. -/
inductive IdentifierFault where
  | empty
  | nul
  | trailingDot
  | invalidCharacter (c : Char)
  | emptyQuoted
  | unclosedQuoted
  | emptySegment
  | invalidStart (c : Char)
  deriving DecidableEq, Repr, Inhabited

/-- The wording of a fault. -/
def IdentifierFault.message : IdentifierFault → String
  | empty => "Identifier cannot be empty"
  | nul => "Identifier cannot contain NUL character"
  | trailingDot => "Trailing '.' in identifier"
  | invalidCharacter c => "Invalid character in identifier: '" ++ c.toString ++ "'"
  | emptyQuoted => "Empty quoted identifier"
  | unclosedQuoted => "Unclosed quoted identifier"
  | emptySegment => "Empty identifier segment"
  | invalidStart c => "Invalid identifier start character: '" ++ c.toString ++ "'"

/-! ### Parts -/

/-- What follows a quoted part, whose opening quote and `seen` characters are behind. -/
def skipQuotedPart (seen : Nat) : List Char → Except IdentifierFault (List Char)
  | [] => .error .unclosedQuoted
  | '"' :: '"' :: rest => skipQuotedPart (seen + 1) rest
  | c :: rest =>
    if c = '"' then if seen = 0 then .error .emptyQuoted else .ok rest
    else skipQuotedPart (seen + 1) rest

/-- What may start a part without quotes. -/
def isStart (c : Char) : Bool := c == '_' || c.isAlpha

/-- What may follow the start of a part without quotes. -/
def isFollow (c : Char) : Bool := c == '_' || c == '$' || c.isAlphanum

/-- What follows a part without quotes. -/
def skipPlainPart : List Char → Except IdentifierFault (List Char)
  | [] => .error .emptySegment
  | c :: rest =>
    if isStart c then .ok (rest.dropWhile isFollow)
    else if c = '.' then .error .emptySegment
    else .error (.invalidStart c)

/-- What follows the first part. -/
def skipPart : List Char → Except IdentifierFault (List Char)
  | '"' :: rest => skipQuotedPart 0 rest
  | cs => skipPlainPart cs

theorem length_lt_of_skipQuotedPart {seen : Nat} {cs rest : List Char}
    (h : skipQuotedPart seen cs = .ok rest) : rest.length < cs.length := by
  fun_induction skipQuotedPart seen cs with
  | case1 => simp at h
  | case2 seen tail ih =>
    have := ih h
    simp only [List.length_cons]
    omega
  | case3 => simp at h
  | case4 =>
    simp only [Except.ok.injEq] at h
    simp [← h]
  | case5 seen c tail _ _ ih =>
    have := ih h
    simp only [List.length_cons]
    omega

theorem length_lt_of_skipPart {cs rest : List Char} (h : skipPart cs = .ok rest) :
    rest.length < cs.length := by
  unfold skipPart at h
  split at h
  · have := length_lt_of_skipQuotedPart h
    simp only [List.length_cons]
    omega
  · unfold skipPlainPart at h
    split at h
    · simp at h
    · split at h
      · simp only [Except.ok.injEq] at h
        have := (List.dropWhile_sublist isFollow (l := ‹List Char›)).length_le
        simp only [← h, List.length_cons]
        omega
      · split at h <;> simp at h

/-! ### Whole identifiers -/

/-- Parts joined by single dots. -/
def checkParts (cs : List Char) : Except IdentifierFault Unit :=
  match _h : skipPart cs with
  | .error fault => .error fault
  | .ok [] => .ok ()
  | .ok ['.'] => .error .trailingDot
  | .ok (c :: rest) => if c = '.' then checkParts rest else .error (.invalidCharacter c)
  termination_by cs.length
  decreasing_by
    have h := length_lt_of_skipPart _h
    simp only [List.length_cons] at h
    omega

/-- An identifier holds no NUL and is one or more parts joined by dots. -/
def testIdentifier (text : String) : Except IdentifierFault Unit :=
  let cs := text.toList
  if cs.isEmpty then .error .empty
  else if cs.contains '\x00' then .error .nul
  else checkParts cs

end SqlAccess.Sql
