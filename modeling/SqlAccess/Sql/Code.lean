/-
**Code, quotes and comments.**

A SQL text is read just far enough to tell code from quoted text and comments, and to know how many
parentheses are open.  Text between quotes ends at the next quote of the same kind, a line comment
at the end of the line, a block comment at the first closing mark; what is not closed reaches to the
end of the text.

Main definitions:

* `SqlAccess.Sql.Spot` — a character of code with its surroundings;
* `SqlAccess.Sql.spots` — all such characters of a text, in order;
* `SqlAccess.Sql.markerCount` — how many `?` markers a text has;
* `SqlAccess.Sql.findKeyword?` — the first of several keywords outside parentheses.
-/

import SqlAccess.Text.Cut
import SqlAccess.Text.Word

set_option autoImplicit false

namespace SqlAccess.Sql

/-! ### What is not code -/

/-- The three characters that quote: the apostrophe, the double quote and the grave accent. -/
def isQuote (c : Char) : Bool := c == '\'' || c == '"' || c == '\x60'

/-- The text after the next `mark`, or nothing. -/
def skipPast (mark : Char) (cs : List Char) : List Char := (cs.dropWhile (· != mark)).drop 1

/-- The text after the next end of a block comment, or nothing. -/
def skipBlock (cs : List Char) : List Char :=
  match Text.cutAt? ['*', '/'] cs with
  | some (_, rest) => rest
  | none => []

theorem length_skipPast_le (mark : Char) (cs : List Char) :
    (skipPast mark cs).length ≤ cs.length := by
  have h := (List.dropWhile_sublist (fun c => c != mark) (l := cs)).length_le
  simp only [skipPast, List.length_drop]
  omega

theorem length_skipBlock_le (cs : List Char) : (skipBlock cs).length ≤ cs.length := by
  unfold skipBlock
  split
  · rename_i before rest h
    have h := congrArg List.length (Text.eq_of_cutAt? h)
    simp only [List.length_append] at h
    omega
  · exact Nat.zero_le _

/-! ### Code -/

/-- A character of code other than a quote or a parenthesis. -/
structure Spot where
  char : Char
  /-- How many parentheses are open. -/
  depth : Nat
  /-- The character just before, whatever it belongs to. -/
  before : Option Char
  /-- The text from here on. -/
  text : List Char
  deriving Repr, Inhabited

/-- The characters of code, when `depth` parentheses are open and `before` comes just before. -/
def spotsFrom (before : Option Char) (depth : Nat) (cs : List Char) : List Spot :=
  match cs with
  | [] => []
  | c :: rest =>
    if isQuote c then spotsFrom (some c) depth (skipPast c rest)
    else if c = '-' ∧ rest.head? = some '-' then
      spotsFrom (some '\n') depth (skipPast '\n' rest)
    else if c = '/' ∧ rest.head? = some '*' then
      spotsFrom (some '/') depth (skipBlock (rest.drop 1))
    else if c = '(' then spotsFrom (some c) (depth + 1) rest
    else if c = ')' then spotsFrom (some c) (depth - 1) rest
    else ⟨c, depth, before, c :: rest⟩ :: spotsFrom (some c) depth rest
  termination_by cs.length
  decreasing_by
    · have := length_skipPast_le c rest
      simp only [List.length_cons]
      omega
    · have := length_skipPast_le '\n' rest
      simp only [List.length_cons]
      omega
    · have := length_skipBlock_le (rest.drop 1)
      simp only [List.length_cons, List.length_drop] at *
      omega
    · simp
    · simp
    · simp

/-- The characters of code in a text. -/
def spots (cs : List Char) : List Spot := spotsFrom none 0 cs

/-- The number of `?` markers outside quotes and comments. -/
def markerCount (cs : List Char) : Nat := (spots cs).countP fun s => s.char == '?'

/-- Whether one of the keywords stands here, outside parentheses and at the start of a word. -/
def Spot.startsKeyword (keywords : List (List Char)) (s : Spot) : Bool :=
  s.depth == 0 && s.char.isAlpha && !s.before.any Text.isWordChar &&
    keywords.any fun keyword => Text.beginsWithKeyword keyword s.text

/-- The text before and from the first keyword outside parentheses, quotes and comments. -/
def findKeyword? (keywords : List (List Char)) (cs : List Char) :
    Option (List Char × List Char) :=
  ((spots cs).find? (Spot.startsKeyword keywords)).map fun s =>
    (cs.take (cs.length - s.text.length), s.text)

end SqlAccess.Sql
