/-
**Placeholders.**

A placeholder is a path between the opening mark, a hash and a brace, and the next closing brace.
Statements replace each placeholder by a `?` marker and keep the paths; keys replace it by the text
of the value that its path leads to.

Main definitions:

* `SqlAccess.Placeholder.next?` — the first placeholder of a text;
* `SqlAccess.Placeholder.extract` — markers for placeholders, and the paths in order;
* `SqlAccess.Placeholder.splice` — values for placeholders.

Main results:

* `SqlAccess.Placeholder.eq_of_next?` — the first placeholder and the text around it make up the
  text.
-/

import SqlAccess.Scope
import SqlAccess.Statement.Fault

set_option autoImplicit false

namespace SqlAccess.Placeholder

/-- What opens a placeholder. -/
def mark : List Char := ['#', '{']

/-- Whether a text holds the start of a placeholder. -/
def occurs (text : String) : Bool := Text.occursIn mark text.toList

/-- The text before the first placeholder, the expression in it, and the text after it. -/
def next? (cs : List Char) : Option (List Char × List Char × List Char) :=
  (Text.cutAt? mark cs).bind fun p =>
    (Text.cut? '}' p.2).map fun q => (p.1, q.1, q.2)

theorem eq_of_next? {cs before expr rest : List Char} (h : next? cs = some (before, expr, rest)) :
    cs = before ++ mark ++ expr ++ '}' :: rest := by
  obtain ⟨p, hp, hq⟩ := Option.bind_eq_some_iff.1 h
  obtain ⟨q, hq, he⟩ := Option.map_eq_some_iff.1 hq
  simp only [Prod.mk.injEq] at he
  rw [Text.eq_of_cutAt? (show Text.cutAt? mark cs = some (p.1, p.2) from hp),
    Text.eq_of_cut? (show Text.cut? '}' p.2 = some (q.1, q.2) from hq), he.1, he.2.1, he.2.2]
  simp

theorem length_rest_lt_of_next? {cs before expr rest : List Char}
    (h : next? cs = some (before, expr, rest)) : rest.length < cs.length := by
  rw [eq_of_next? h]
  simp only [List.length_append, List.length_cons]
  omega

/-- The text with a marker for each placeholder, and the trimmed expressions in order. -/
def extractChars (cs : List Char) : List Char × List (List Char) :=
  match _h : next? cs with
  | none => (cs, [])
  | some (before, expr, rest) =>
    let (text, exprs) := extractChars rest
    (before ++ '?' :: text, Text.trim expr :: exprs)
  termination_by cs.length
  decreasing_by exact length_rest_lt_of_next? _h

/-- The text with a `?` for each placeholder, and the paths in order. -/
def extract (text : String) : String × List String :=
  let (cs, exprs) := extractChars text.toList
  (String.ofList cs, exprs.map String.ofList)

/-- The text with the value of its path for each placeholder. -/
def spliceChars (scope : Scope) (cs : List Char) : Except BuildFault (List Char) :=
  match _h : next? cs with
  | none => .ok cs
  | some (before, expr, rest) =>
    let path := String.ofList (Text.trim expr)
    match scope.lookup? path with
    | none => .error (.unresolvedArgument path)
    | some value =>
      (spliceChars scope rest).map fun text => before ++ value.render.toList ++ text
  termination_by cs.length
  decreasing_by exact length_rest_lt_of_next? _h

/-- The text with the plain text of its value for each placeholder; fails at the first path that
leads nowhere. -/
def splice (template : String) (scope : Scope) : Except BuildFault String :=
  (spliceChars scope template.toList).map String.ofList

end SqlAccess.Placeholder
