/-
**Why a statement cannot be built.**

Main definitions:

* `SqlAccess.BuildFault` — the causes;
* `SqlAccess.BuildFault.message` — their wording.
-/

set_option autoImplicit false

namespace SqlAccess

/-- The causes for which a sequence of statement nodes has no SQL. -/
inductive BuildFault where
  /-- The start of a placeholder is left in a text that would be emitted. -/
  | unresolvedPlaceholder (text : String)
  /-- An argument's path leads nowhere. -/
  | unresolvedArgument (path : String)
  /-- A loop over something that is no list. -/
  | notACollection (path : String)
  /-- A loop over an empty list, which would emit an empty pair of parentheses. -/
  | emptyCollection (path : String)
  /-- A `SET` clause in which no assignment applies. -/
  | emptySet
  deriving DecidableEq, Repr, Inhabited

/-- The wording of a cause. -/
def BuildFault.message : BuildFault → String
  | unresolvedPlaceholder text => "unresolved placeholder in '" ++ text ++ "'"
  | unresolvedArgument path => "unresolved argument '" ++ path ++ "'"
  | notACollection path => "'" ++ path ++ "' is not a collection"
  | emptyCollection path => "collection '" ++ path ++ "' is empty"
  | emptySet => "SET clause has no assignments"

end SqlAccess
