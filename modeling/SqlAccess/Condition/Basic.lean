/-
**Conditions over the columns of a table.**

A condition is a Boolean tree of predicates.  A group is a subtree that was written in braces: it
means the same as its body, but keeps its own parentheses in SQL.

Main definitions:

* `SqlAccess.Condition` — the tree, with `SqlAccess.Condition.Predicate` at its leaves;
* `SqlAccess.Condition.render` — the text of a condition in the condition language;
* `SqlAccess.Condition.sql`, `SqlAccess.Condition.paramTypes` — the condition in SQL, with a `?` for
  each parameter, and the types of these parameters in the same order;
* `SqlAccess.Condition.eval` — its truth value, given one for each predicate.
-/

import SqlAccess.Table
import SqlAccess.Condition.Operator

set_option autoImplicit false

namespace SqlAccess

namespace Condition

/-! ### Predicates -/

/-- How a predicate names its column. -/
inductive Field where
  /-- By its position, counted from 1. -/
  | index (position : Nat)
  /-- By its name as written. -/
  | name (text : String)
  deriving DecidableEq, Repr, Inhabited

/-- A field as it is written. -/
def Field.render : Field → String
  | index position => String.ofList (Text.digits position)
  | name text => text

/-- A unit `field.OPERATOR` together with the column that its field stands for. -/
structure Predicate where
  field : Field
  column : Column
  op : Operator
  deriving DecidableEq, Repr, Inhabited

namespace Predicate

/-- A predicate in the condition language. -/
def render (p : Predicate) : String := p.field.render ++ "." ++ p.op.keyword

/-- A predicate in SQL. -/
def sql (p : Predicate) : String := p.op.sql p.column.name

/-- The type of the parameter, if the predicate binds one: a list for `IN`, a text for `LIKE`, the
column's type otherwise. -/
def paramType? (p : Predicate) : Option ParameterType :=
  if p.op.takesParam then
    some <| match p.op with
      | .isIn => .list p.column.paramType
      | .like => .text
      | _ => p.column.paramType
  else none

end Predicate

end Condition

/-! ### The tree -/

/-- A Boolean tree of predicates. -/
inductive Condition where
  | simple (predicate : Condition.Predicate)
  | and (left right : Condition)
  | or (left right : Condition)
  /-- A subtree in braces, shown in parentheses. -/
  | group (body : Condition)
  deriving DecidableEq, Repr, Inhabited

namespace Condition

/-- The condition beneath any outer groups. -/
def ungrouped : Condition → Condition
  | group body => body.ungrouped
  | other => other

/-- The predicates from left to right. -/
def predicates : Condition → List Predicate
  | simple p => [p]
  | and l r | or l r => l.predicates ++ r.predicates
  | group body => body.predicates

/-- The condition in the condition language, without braces of its own making. -/
def render : Condition → String
  | simple p => p.render
  | and l r => l.render ++ "&" ++ r.render
  | or l r => l.render ++ "|" ++ r.render
  | group body => "\x7b" ++ body.render ++ "\x7d"

/-- The condition in SQL, without parentheses of its own making. -/
def sql : Condition → String
  | simple p => p.sql
  | and l r => l.sql ++ " AND " ++ r.sql
  | or l r => l.sql ++ " OR " ++ r.sql
  | group body => "(" ++ body.sql ++ ")"

/-- The types of the parameters that the SQL text binds, in the order of its markers. -/
def paramTypes (c : Condition) : List ParameterType := c.predicates.filterMap Predicate.paramType?

/-- The truth value of a condition under a truth value for each predicate. -/
def eval (holds : Predicate → Bool) : Condition → Bool
  | simple p => holds p
  | and l r => l.eval holds && r.eval holds
  | or l r => l.eval holds || r.eval holds
  | group body => body.eval holds

end Condition

end SqlAccess
