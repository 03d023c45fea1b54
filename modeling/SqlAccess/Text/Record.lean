/-
**Records as text.**

Summaries show a structure as its name with its fields in braces.

Main definitions:

* `SqlAccess.Text.record` — a structure with its fields;
* `SqlAccess.Text.optional` — something that may be missing.
-/

set_option autoImplicit false

namespace SqlAccess.Text

/-- A name and fields in braces; two dots at the end stand for fields that are not shown. -/
def record (name : String) (fields : List (String × String)) (complete : Bool) : String :=
  let shown := fields.map fun f => f.1 ++ ": " ++ f.2
  name ++ " \x7b " ++ String.intercalate ", " (shown ++ if complete then [] else [".."]) ++ " \x7d"

/-- Something that may be missing. -/
def optional : Option String → String
  | some s => "Some(" ++ s ++ ")"
  | none => "None"

end SqlAccess.Text
