/-
**Scopes.**

A scope binds names to values.  A path is a name followed by steps into its value, with dots
between; blanks around the whole path do not count.

Main definitions:

* `SqlAccess.Scope` — named values in the order of their names;
* `SqlAccess.Scope.bind` — a scope with one name bound anew;
* `SqlAccess.Scope.lookup?` — the value at a path;
* `SqlAccess.Scope.ofValue` — the fields of a map as a scope.
-/

import SqlAccess.Text.Blank
import SqlAccess.Text.Cut
import SqlAccess.Value.Basic

set_option autoImplicit false

namespace SqlAccess

/-- The value reached from another by steps. -/
def Value.walk? (v : Value) : List (List Char) → Option Value
  | [] => some v
  | segment :: rest => (v.get? segment).bind fun w => w.walk? rest

/-- Named values in ascending order of their names. -/
structure Scope where
  vars : List (String × Value)
  deriving Inhabited

namespace Scope

/-- The scope without names. -/
def empty : Scope := ⟨[]⟩

/-- The scope with a name bound, or bound anew. -/
def bind (s : Scope) (name : String) (value : Value) : Scope := ⟨insertField name value s.vars⟩

/-- The scope with these names bound; of equal names the last counts. -/
def ofFields (fields : List (String × Value)) : Scope := ⟨orderFields fields⟩

/-- A map's fields become names; any other value is bound to the name `value`. -/
def ofValue : Value → Scope
  | .map fields => ⟨fields⟩
  | other => empty.bind "value" other

/-- The value at a path of segments. -/
def lookupSegments? (s : Scope) : List (List Char) → Option Value
  | [] => none
  | head :: rest => (findField? (String.ofList head) s.vars).bind fun v => v.walk? rest

/-- The value at a path, whose segments stand between dots. -/
def lookup? (s : Scope) (path : String) : Option Value :=
  s.lookupSegments? (Text.fields '.' (Text.trim path.toList))

end Scope

end SqlAccess
