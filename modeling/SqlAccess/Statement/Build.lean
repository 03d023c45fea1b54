/-
**From statement nodes to SQL.**

The nodes are rendered in order into one builder.  Only the phrases that a guard selects are looked
at, so that a branch left out can neither fail nor leave a value behind.

Main definitions:

* `SqlAccess.Phrase.render` — a phrase with its values;
* `SqlAccess.Loop.render` — the renderings of a loop's body;
* `SqlAccess.Node.render` — one node rendered into a builder;
* `SqlAccess.assemble` — a whole statement.
-/

import SqlAccess.Statement.Basic
import SqlAccess.Statement.Builder

set_option autoImplicit false

namespace SqlAccess

/-- Text that is emitted must not hold the start of a placeholder. -/
def checkUnmarked (text : String) : Except BuildFault Unit :=
  if Placeholder.occurs text then .error (.unresolvedPlaceholder text) else .ok ()

/-- The values of several paths, or the first that leads nowhere. -/
def resolveArgs (lookup? : String → Option Value) : List String → Except BuildFault (List Value)
  | [] => .ok []
  | path :: rest =>
    match lookup? path with
    | none => .error (.unresolvedArgument path)
    | some value => (resolveArgs lookup? rest).map (value :: ·)

namespace Phrase

/-- A phrase with its values, its paths looked up by `lookup?`. -/
def renderWith (p : Phrase) (lookup? : String → Option Value) : Except BuildFault Fragment := do
  checkUnmarked p.text
  return ⟨p.text, ← resolveArgs lookup? p.args⟩

/-- A phrase with its values. -/
def render (p : Phrase) (scope : Scope) : Except BuildFault Fragment := p.renderWith scope.lookup?

end Phrase

/-! ### Clauses -/

/-- The clause of several phrases. -/
def renderClause (scope : Scope) (phrases : List Phrase) : Except BuildFault Clause :=
  phrases.foldlM (fun clause p => do
    let fragment ← p.render scope
    return clause.push fragment.text fragment.args) Clause.empty

/-! ### Loops -/

namespace Loop

/-- The value that a path leads to from the current item: the item's name alone, or the name, a dot
and steps into the item. -/
def itemPath? (name : String) (item : Value) (path : String) : Option Value :=
  let cs := Text.trim path.toList
  match name.toList.isPrefixOf? cs with
  | some [] => some item
  | some ('.' :: rest) => item.walk? (Text.fields '.' rest)
  | _ => none

/-- A path in a loop's body: through the item if it leads anywhere, else through the scope. -/
def lookup? (l : Loop) (scope : Scope) (item : Value) (path : String) : Option Value :=
  (itemPath? l.item item path).or (scope.lookup? path)

/-- The items of the list that a loop runs over. -/
def items (l : Loop) (scope : Scope) : Except BuildFault (List Value) :=
  match scope.lookup? l.collection with
  | none => .error (.unresolvedArgument l.collection)
  | some value =>
    match value.asList? with
    | none => .error (.notACollection l.collection)
    | some [] => .error (.emptyCollection l.collection)
    | some items => .ok items

/-- The body for each item. -/
def render (l : Loop) (scope : Scope) : Except BuildFault (List Fragment) := do
  checkUnmarked l.body.text
  (← l.items scope).mapM fun item => do
    return ⟨l.body.text, ← resolveArgs (l.lookup? scope item) l.body.args⟩

end Loop

/-! ### Nodes -/

/-- One node rendered into a builder. -/
def Node.render (scope : Scope) (b : Builder) : Node → Except BuildFault Builder
  | empty => .ok b
  | raw text => do
    checkUnmarked text
    return b.push text []
  | simple phrase => do
    let fragment ← phrase.render scope
    return b.push fragment.text fragment.args
  | branch selection =>
    (selection.select scope).foldlM (fun b p => do
      let fragment ← p.render scope
      return b.push fragment.text fragment.args) b
  | whereClause selection => do
    return b.pushWhere (← renderClause scope (selection.select scope))
  | setClause selection => do
    b.pushSet? (← renderClause scope (selection.select scope))
  | loop l => do
    return b.pushLoop l.opening l.separator l.closing (← l.render scope)

/-- The SQL of a sequence of nodes against a scope. -/
def assemble (nodes : List Node) (scope : Scope) : Except BuildFault BoundSql :=
  (nodes.foldlM (Node.render scope) Builder.empty).map Builder.finish

end SqlAccess
