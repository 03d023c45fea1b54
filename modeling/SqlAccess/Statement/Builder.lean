/-
**Assembling SQL.**

Fragments are joined by single blanks.  A non-empty `WHERE` clause starts with `1=1`, so that no
member needs to know whether it comes first; a `SET` clause separates its members by commas.  The
values that a fragment binds travel with it, in the order of its markers.

Main definitions:

* `SqlAccess.BoundSql` — SQL text and the values of its markers;
* `SqlAccess.Fragment`, `SqlAccess.Clause` — pieces of SQL with their values;
* `SqlAccess.Builder` — the parts assembled so far, with `push`, `pushWhere`, `pushSet?` and
  `pushLoop`.
-/

import SqlAccess.Text.Blank
import SqlAccess.Text.Word
import SqlAccess.Value.Basic
import SqlAccess.Statement.Fault

set_option autoImplicit false

namespace SqlAccess

/-- SQL text with `?` markers, and the values that they stand for. -/
structure BoundSql where
  sql : String
  args : List Value
  deriving Inhabited

/-- A piece of SQL and the values that it binds. -/
structure Fragment where
  text : String
  args : List Value
  deriving Inhabited

/-! ### Clauses -/

/-- The members of a `WHERE` or `SET` clause. -/
structure Clause where
  fragments : List Fragment
  deriving Inhabited

namespace Clause

/-- The clause without members. -/
def empty : Clause := ⟨[]⟩

/-- The clause with one more member; a blank one is dropped with its values. -/
def push (c : Clause) (text : String) (args : List Value) : Clause :=
  if Text.allBlank text.toList then c else ⟨c.fragments ++ [⟨Text.trimmed text, args⟩]⟩

/-- One more member on a condition. -/
def pushWhen (c : Clause) (cond : Bool) (text : String) (args : List Value) : Clause :=
  if cond then c.push text args else c

/-- One more member: the first whose condition holds, or else a fallback. -/
def pushFirst (c : Clause) (branches : List (Bool × Fragment)) (otherwise : Option Fragment) :
    Clause :=
  let chosen := ((branches.find? Prod.fst).map Prod.snd).or otherwise
  match chosen with
  | some fragment => c.push fragment.text fragment.args
  | none => c

/-- Whether the clause has no members. -/
def isEmpty (c : Clause) : Bool := c.fragments.isEmpty

/-- The values that all members bind. -/
def args (c : Clause) : List Value := c.fragments.flatMap Fragment.args

/-- Whether a text begins with `AND` or `OR` as a word: a blank or a parenthesis follows. -/
def opensWithConnective (text : List Char) : Bool :=
  ["AND".toList, "OR".toList].any fun word =>
    Text.sameIgnoringCase (text.take word.length) word &&
      (text.drop word.length).head?.any fun c => Text.isBlank c || c == '('

/-- A member of a `WHERE` clause with what joins it to the text before. -/
def joined (f : Fragment) : String :=
  if opensWithConnective f.text.toList then " " ++ f.text else " AND " ++ f.text

/-- The text of a `WHERE` clause. -/
def whereText (c : Clause) : String := "WHERE 1=1" ++ String.join (c.fragments.map joined)

/-- An assignment without the commas at its end. -/
def assignment (f : Fragment) : String :=
  String.ofList (Text.trimEnd (Text.dropTrailing (· == ',') f.text.toList))

/-- The text of a `SET` clause. -/
def setText (c : Clause) : String :=
  "SET " ++ String.intercalate ", " (c.fragments.map assignment)

end Clause

/-! ### The builder -/

/-- The parts of a statement assembled so far. -/
structure Builder where
  parts : List String
  args : List Value
  deriving Inhabited

namespace Builder

/-- Nothing assembled yet. -/
def empty : Builder := ⟨[], []⟩

/-- One more fragment.  Blank text adds no part; its values are kept all the same. -/
def push (b : Builder) (text : String) (args : List Value) : Builder :=
  ⟨if Text.allBlank text.toList then b.parts else b.parts ++ [Text.trimmed text], b.args ++ args⟩

/-- One more fragment on a condition. -/
def pushWhen (b : Builder) (cond : Bool) (text : String) (args : List Value) : Builder :=
  if cond then b.push text args else b

/-- A `WHERE` clause; one without members adds nothing. -/
def pushWhere (b : Builder) (c : Clause) : Builder :=
  if c.isEmpty then b else ⟨b.parts ++ [c.whereText], b.args ++ c.args⟩

/-- A `SET` clause; one without members would be malformed and is refused. -/
def pushSet? (b : Builder) (c : Clause) : Except BuildFault Builder :=
  if c.isEmpty then .error .emptySet else .ok ⟨b.parts ++ [c.setText], b.args ++ c.args⟩

/-- The items between an opening and a closing text, with separators; no items add nothing. -/
def pushLoop (b : Builder) (opening separator closing : String) (items : List Fragment) :
    Builder :=
  if items.isEmpty then b
  else
    let text := opening ++ String.intercalate separator (items.map Fragment.text) ++ closing
    (Builder.mk b.parts (b.args ++ items.flatMap Fragment.args)).push text []

/-- The SQL assembled so far. -/
def sql (b : Builder) : String := String.intercalate " " b.parts

/-- The finished statement. -/
def finish (b : Builder) : BoundSql := ⟨b.sql, b.args⟩

end Builder

end SqlAccess
