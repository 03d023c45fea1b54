/-
**Why a condition is rejected.**

Every cause is a fault of the text or of its reference to the table; none is worth a second try.

Main definitions:

* `SqlAccess.Condition.Fault` — the causes;
* `SqlAccess.Condition.Fault.message` — their wording;
* `SqlAccess.Condition.Fault.isStructural` — faults of the braces or operands rather than of a
  single unit.
-/

import SqlAccess.Text.Word

set_option autoImplicit false

namespace SqlAccess.Condition

/-- The causes for which a condition is rejected. -/
inductive Fault where
  /-- The braces do not pair up. -/
  | unbalancedBraces (source : String)
  /-- A group is opened inside another. -/
  | nestedBraces (source : String)
  /-- An operand or the body of a group is blank, or a unit has a blank field. -/
  | emptyExpression (source : String)
  /-- A unit that is no position and has no dot. -/
  | missingOperator (unit : String)
  /-- What follows the last dot is no operator. -/
  | unknownOperator (text : String)
  /-- A position beyond the columns, or zero. -/
  | indexOutOfRange (index columns : Nat)
  /-- No column has that name. -/
  | unknownField (name : String)
  deriving DecidableEq, Repr, Inhabited

namespace Fault

/-- The wording of a cause. -/
def message : Fault → String
  | unbalancedBraces source => "unbalanced braces in condition '" ++ source ++ "'"
  | nestedBraces source =>
    "nested braces are not supported in condition '" ++ source ++
      "'; flatten it into a disjunction of conjunctions, e.g. \x7b1&2\x7d|\x7b1&3\x7d"
  | emptyExpression source => "empty expression in condition '" ++ source ++ "'"
  | missingOperator unit => "missing operator in '" ++ unit ++ "', expected <field>.<OPERATOR>"
  | unknownOperator text => "unknown operator '" ++ text ++ "'"
  | indexOutOfRange index columns =>
    "column index " ++ String.ofList (Text.digits index) ++ " out of range, table has " ++
      String.ofList (Text.digits columns) ++ " columns"
  | unknownField name => "unknown field '" ++ name ++ "'"

/-- Whether the fault lies in the braces or in a missing operand. -/
def isStructural : Fault → Bool
  | unbalancedBraces _ | nestedBraces _ | emptyExpression _ => true
  | _ => false

end Fault

end SqlAccess.Condition
