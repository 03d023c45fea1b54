/-
**Dynamic statements.**

A statement is described by a sequence of nodes.  Text in a node has its placeholders already
replaced by markers; the paths stand beside it and are resolved when the sequence is built.  Guards
decide which branches take part.

Main definitions:

* `SqlAccess.Phrase` — text with markers and the paths of its arguments;
* `SqlAccess.Guard`, `SqlAccess.Guard.holds` — conditions on a scope;
* `SqlAccess.Guarded`, `SqlAccess.Choice`, `SqlAccess.Branch` — guarded phrases, and ways to select
  among them;
* `SqlAccess.Loop` — a phrase for each item of a list;
* `SqlAccess.Node` — the nodes of a statement.
-/

import SqlAccess.Statement.Placeholder

set_option autoImplicit false

namespace SqlAccess

/-! ### Phrases -/

/-- Text with `?` markers, and the paths whose values they stand for. -/
structure Phrase where
  text : String
  args : List String
  deriving DecidableEq, Repr, Inhabited

namespace Phrase

/-- The phrase of a text with placeholders. -/
def ofTemplate (template : String) : Phrase :=
  let (text, args) := Placeholder.extract template
  ⟨text, args⟩

/-- Whether the text is blank. -/
def isBlank (p : Phrase) : Bool := Text.allBlank p.text.toList

end Phrase

/-! ### Guards -/

/-- A condition on a scope. -/
inductive Guard where
  | const (b : Bool)
  /-- The path leads to a value that counts as true. -/
  | truthy (path : String)
  /-- The path leads to a value that is not null. -/
  | present (path : String)
  | not (guard : Guard)
  | all (guards : List Guard)
  | any (guards : List Guard)
  deriving Repr, Inhabited

namespace Guard

mutual

/-- Whether a guard holds; a path that leads nowhere counts as null. -/
def holds (scope : Scope) : Guard → Bool
  | const b => b
  | truthy path => (scope.lookup? path).any Value.isTruthy
  | present path => (scope.lookup? path).any fun v => !v.isNull
  | not guard => !guard.holds scope
  | all guards => allHold scope guards
  | any guards => anyHolds scope guards

/-- Whether all of several guards hold. -/
def allHold (scope : Scope) : List Guard → Bool
  | [] => true
  | g :: rest => g.holds scope && allHold scope rest

/-- Whether one of several guards holds. -/
def anyHolds (scope : Scope) : List Guard → Bool
  | [] => false
  | g :: rest => g.holds scope || anyHolds scope rest

end

end Guard

/-! ### Branches -/

/-- A phrase under a guard. -/
structure Guarded where
  guard : Guard
  phrase : Phrase
  deriving Repr, Inhabited

/-- The first phrase whose guard holds, or else a fallback. -/
structure Choice where
  whens : List Guarded
  otherwise : Option Phrase
  deriving Repr, Inhabited

/-- The phrase that a choice selects; a blank one counts as none. -/
def Choice.select? (c : Choice) (scope : Scope) : Option Phrase :=
  let first := (c.whens.find? fun w => w.guard.holds scope).map Guarded.phrase
  (first.or c.otherwise).filter fun p => !p.isBlank

/-- Guarded phrases. -/
inductive Branch where
  | single (branch : Guarded)
  /-- Every phrase whose guard holds. -/
  | chain (branches : List Guarded)
  | choice (choice : Choice)
  deriving Repr, Inhabited

/-- The phrases that take part, in order. -/
def Branch.select (b : Branch) (scope : Scope) : List Phrase :=
  match b with
  | single branch => if branch.guard.holds scope then [branch.phrase] else []
  | chain branches => (branches.filter fun w => w.guard.holds scope).map Guarded.phrase
  | choice c => (c.select? scope).toList

/-! ### Loops and nodes -/

/-- One rendering of the body for each item of a list.  In the body the item's name stands for the
current item; all other paths are looked up in the scope. -/
structure Loop where
  collection : String
  item : String
  separator : String
  opening : String
  closing : String
  body : Phrase
  deriving Repr, Inhabited

/-- One unit of a dynamic statement. -/
inductive Node where
  | empty
  /-- Emitted as it stands; must not hold a placeholder. -/
  | raw (text : String)
  | simple (phrase : Phrase)
  /-- Every selected phrase as a fragment of its own. -/
  | branch (branch : Branch)
  /-- A `WHERE` clause of the selected phrases. -/
  | whereClause (branch : Branch)
  /-- A `SET` clause of the selected phrases. -/
  | setClause (branch : Branch)
  | loop (loop : Loop)
  deriving Repr, Inhabited

end SqlAccess
