/-
**Comparison operators of the condition language.**

Main definitions:

* `SqlAccess.Condition.Operator` — the operators and their keywords;
* `SqlAccess.Condition.Operator.ofText?` — the operator that a text names;
* `SqlAccess.Condition.Operator.sql` — the predicate on a column that an operator stands for.
-/

import SqlAccess.Text.Blank
import SqlAccess.Text.Word

set_option autoImplicit false

namespace SqlAccess.Condition

/-- What may follow the dot of a unit `field.OPERATOR`. -/
inductive Operator where
  | eq
  | ne
  | lt
  | gt
  | le
  | ge
  | isIn
  | like
  | isNull
  | isNotNull
  deriving DecidableEq, Repr, Inhabited

namespace Operator

/-- All operators. -/
def all : List Operator := [eq, ne, lt, gt, le, ge, isIn, like, isNull, isNotNull]

/-- The keyword of an operator. -/
def keyword : Operator → String
  | eq => "EQ"
  | ne => "NE"
  | lt => "LT"
  | gt => "GT"
  | le => "LE"
  | ge => "GE"
  | isIn => "IN"
  | like => "LIKE"
  | isNull => "ISNULL"
  | isNotNull => "ISNOTNULL"

/-- Whether the predicate binds a parameter. -/
def takesParam : Operator → Bool
  | isNull | isNotNull => false
  | _ => true

/-- The operator whose keyword is the text, blanks around it and ASCII case aside. -/
def ofText? (text : List Char) : Option Operator :=
  all.find? fun op => Text.sameIgnoringCase op.keyword.toList (Text.trim text)

/-- What follows the column's name in the predicate; a `?` marks the parameter. -/
def sqlSuffix : Operator → String
  | eq => " = ?"
  | ne => " != ?"
  | lt => " < ?"
  | gt => " > ?"
  | le => " <= ?"
  | ge => " >= ?"
  | isIn => " IN (?)"
  | like => " LIKE ?"
  | isNull => " IS NULL"
  | isNotNull => " IS NOT NULL"

/-- The predicate on a column. -/
def sql (op : Operator) (column : String) : String := column ++ op.sqlSuffix

end Operator

end SqlAccess.Condition
