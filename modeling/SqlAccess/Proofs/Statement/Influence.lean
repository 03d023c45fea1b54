/-
**What a statement takes from its scope.**

A statement asks its scope for the paths in its guards, for the paths of the phrases that these
guards select, and for those of its loops.  Nothing else of the scope has an influence: neither on
the text and the values, nor on whether the statement can be built and on what the failure says.  In
particular nothing comes of a phrase that is not selected.

Main definitions:

* `SqlAccess.Scope.AgreeOn` — two scopes in which some paths lead to the same;
* `SqlAccess.Guard.paths`, `SqlAccess.Branch.asked`, `SqlAccess.Node.asked`, `SqlAccess.asked` — the
  paths for which a scope is asked;
* `SqlAccess.Branch.decided`, `SqlAccess.Node.decided` — a node from which all is taken that is not
  selected.

Main results:

* `SqlAccess.Guard.holds_eq`, `SqlAccess.Branch.select_eq`, `SqlAccess.Phrase.render_eq`,
  `SqlAccess.Loop.render_eq` — guards, branches, phrases and loops in two such scopes;
* `SqlAccess.Node.render_eq` — one node;
* `SqlAccess.assemble_eq_of_agreeOn` — **whole statements**.
-/

import Mathlib.Data.List.Find
import SqlAccess.Proofs.Except
import SqlAccess.Proofs.Text.Cut
import SqlAccess.Statement.Build

set_option autoImplicit false

namespace SqlAccess

variable {scope other : Scope}

/-! ### Scopes that agree -/

namespace Scope

/-- The paths lead to the same in both scopes. -/
def AgreeOn (scope other : Scope) (paths : List String) : Prop :=
  ∀ path ∈ paths, other.lookup? path = scope.lookup? path

variable {paths more : List String}

@[simp] theorem agreeOn_nil : scope.AgreeOn other [] := nofun

@[simp] theorem agreeOn_cons {path : String} : scope.AgreeOn other (path :: paths) ↔
    other.lookup? path = scope.lookup? path ∧ scope.AgreeOn other paths := List.forall_mem_cons

@[simp] theorem agreeOn_append : scope.AgreeOn other (paths ++ more) ↔
    scope.AgreeOn other paths ∧ scope.AgreeOn other more := List.forall_mem_append

@[simp] theorem agreeOn_flatMap {α : Type} {xs : List α} {f : α → List String} :
    scope.AgreeOn other (xs.flatMap f) ↔ ∀ x ∈ xs, scope.AgreeOn other (f x) :=
  List.forall_mem_flatMap

/-- The value of a name. -/
def var? (s : Scope) (name : String) : Option Value := findField? name s.vars

/-- The name that a path starts with. -/
def root (path : String) : String :=
  String.ofList ((Text.fields '.' (Text.trim path.toList)).headD [])

/-- Where a path leads depends on the value of one name. -/
theorem lookup?_eq_of_root {path : String} (h : other.var? (root path) = scope.var? (root path)) :
    other.lookup? path = scope.lookup? path := by
  obtain ⟨head, steps, hfields⟩ := Text.exists_fields_eq_cons '.' (Text.trim path.toList)
  have hroot : root path = String.ofList head := by rw [root, hfields, List.headD_cons]
  rw [hroot] at h
  rw [lookup?, lookup?, hfields, lookupSegments?, lookupSegments?]
  exact congrArg (Option.bind · _) h

end Scope

/-! ### The paths of a statement -/

namespace Guard

mutual

/-- The paths in a guard. -/
def paths : Guard → List String
  | const _ => []
  | truthy path | present path => [path]
  | not guard => guard.paths
  | all guards | any guards => pathsOfAll guards

/-- The paths in several guards. -/
def pathsOfAll : List Guard → List String
  | [] => []
  | g :: rest => g.paths ++ pathsOfAll rest

end

mutual

/-- A guard asks for its paths only. -/
theorem holds_eq : ∀ {g : Guard}, scope.AgreeOn other g.paths → g.holds other = g.holds scope
  | const _, _ => rfl
  | truthy path, h | present path, h => by
      rw [paths, Scope.agreeOn_cons] at h
      rw [holds, holds, h.1]
  | not g, h => by
      rw [paths] at h
      rw [holds, holds, holds_eq h]
  | all guards, h => by
      rw [paths] at h
      rw [holds, holds, (holds_eq_of_all h).1]
  | any guards, h => by
      rw [paths] at h
      rw [holds, holds, (holds_eq_of_all h).2]

theorem holds_eq_of_all : ∀ {guards : List Guard}, scope.AgreeOn other (pathsOfAll guards) →
    allHold other guards = allHold scope guards ∧ anyHolds other guards = anyHolds scope guards
  | [], _ => ⟨rfl, rfl⟩
  | g :: rest, h => by
      rw [pathsOfAll, Scope.agreeOn_append] at h
      have hfirst := holds_eq h.1
      have hrest := holds_eq_of_all h.2
      rw [allHold, allHold, anyHolds, anyHolds, hfirst, hrest.1, hrest.2]
      exact ⟨rfl, rfl⟩

end

end Guard

namespace Branch

/-- The guards of a branch. -/
def guards : Branch → List Guard
  | single branch => [branch.guard]
  | chain branches => branches.map Guarded.guard
  | choice c => c.whens.map Guarded.guard

/-- The paths for which a branch asks: those in its guards, and those of the phrases that are
selected. -/
def asked (scope : Scope) (b : Branch) : List String :=
  b.guards.flatMap Guard.paths ++ (b.select scope).flatMap Phrase.args

end Branch

/-- The paths for which a node asks. -/
def Node.asked (scope : Scope) : Node → List String
  | empty | raw _ => []
  | simple phrase => phrase.args
  | branch selection | whereClause selection | setClause selection => selection.asked scope
  | loop l => l.collection :: l.body.args

/-- The paths for which a statement asks its scope. -/
def asked (scope : Scope) (nodes : List Node) : List String := nodes.flatMap (Node.asked scope)

/-! ### Branches -/

namespace Branch

variable {b : Branch}

/-- The guards of a branch decide alike in both scopes. -/
theorem select_eq (h : scope.AgreeOn other (b.guards.flatMap Guard.paths)) :
    b.select other = b.select scope := by
  rw [Scope.agreeOn_flatMap] at h
  have hguards : ∀ g ∈ b.guards, g.holds other = g.holds scope :=
    fun g hg => Guard.holds_eq (h g hg)
  cases b with
  | single w => rw [select, select, hguards w.guard List.mem_cons_self]
  | chain branches =>
      rw [guards, List.forall_mem_map] at hguards
      rw [select, select, List.filter_congr hguards]
  | choice c =>
      rw [guards, List.forall_mem_map] at hguards
      rw [select, select, Choice.select?, Choice.select?, List.find?_congr hguards]

/-- The branch with its guards decided: the phrases that are selected, without a condition. -/
def decided (scope : Scope) (b : Branch) : Branch :=
  chain ((b.select scope).map fun p => ⟨.const true, p⟩)

theorem select_decided (b : Branch) (scope other : Scope) :
    (b.decided scope).select other = b.select scope := by
  rw [decided]
  generalize b.select scope = phrases
  have hall : ((phrases.map fun p => (⟨.const true, p⟩ : Guarded)).filter
      fun w => w.guard.holds other) = phrases.map fun p => ⟨.const true, p⟩ :=
    List.filter_eq_self.2 (by simp [Guard.holds])
  rw [select, hall, List.map_map]
  exact List.map_id phrases

end Branch

/-! ### Phrases and clauses -/

theorem resolveArgs_congr {lookup? lookup?' : String → Option Value} {paths : List String}
    (h : ∀ path ∈ paths, lookup? path = lookup?' path) :
    resolveArgs lookup? paths = resolveArgs lookup?' paths := by
  induction paths with
  | nil => rfl
  | cons path paths ih =>
      rw [List.forall_mem_cons] at h
      rw [resolveArgs, resolveArgs, h.1, ih h.2]

/-- A phrase asks for its own paths only. -/
theorem Phrase.render_eq {p : Phrase} (h : scope.AgreeOn other p.args) :
    p.render other = p.render scope := by
  rw [render, render, renderWith, renderWith, resolveArgs_congr h]

theorem renderClause_eq {phrases : List Phrase}
    (h : scope.AgreeOn other (phrases.flatMap Phrase.args)) :
    renderClause other phrases = renderClause scope phrases := by
  rw [Scope.agreeOn_flatMap] at h
  refine Except.foldlM_congr (fun p hp c => ?_) Clause.empty
  rw [Phrase.render_eq (h p hp)]

/-! ### Loops -/

namespace Loop

variable {l : Loop}

theorem items_eq_of_lookup? (h : other.lookup? l.collection = scope.lookup? l.collection) :
    l.items other = l.items scope := by
  rw [items, items, h]

/-- A loop asks for its list and for the paths of its body. -/
theorem render_eq (h : scope.AgreeOn other (l.collection :: l.body.args)) :
    l.render other = l.render scope := by
  obtain ⟨hlist, hbody⟩ := Scope.agreeOn_cons.1 h
  have hargs (item : Value) : resolveArgs (l.lookup? other item) l.body.args =
      resolveArgs (l.lookup? scope item) l.body.args := by
    refine resolveArgs_congr fun path hpath => ?_
    rw [lookup?, lookup?, hbody path hpath]
  simp only [render, items_eq_of_lookup? hlist, hargs]

end Loop

/-! ### Nodes -/

namespace Node

variable {node : Node}

/-- **A node asks for its own paths only.** -/
theorem render_eq (h : scope.AgreeOn other (node.asked scope)) (b : Builder) :
    node.render other b = node.render scope b := by
  cases node with
  | empty | raw text => rfl
  | simple p => rw [render, render, Phrase.render_eq h]
  | branch selection =>
      obtain ⟨hguards, hargs⟩ := Scope.agreeOn_append.1 h
      rw [Scope.agreeOn_flatMap] at hargs
      rw [render, render, Branch.select_eq hguards]
      refine Except.foldlM_congr (fun p hp b => ?_) b
      rw [Phrase.render_eq (hargs p hp)]
  | whereClause selection | setClause selection =>
      obtain ⟨hguards, hargs⟩ := Scope.agreeOn_append.1 h
      rw [render, render, Branch.select_eq hguards, renderClause_eq hargs]
  | loop l => rw [render, render, Loop.render_eq h]

/-- The node with its guards decided: nothing is left of what is not selected. -/
def decided (scope : Scope) : Node → Node
  | branch selection => branch (selection.decided scope)
  | whereClause selection => whereClause (selection.decided scope)
  | setClause selection => setClause (selection.decided scope)
  | node => node

/-- What is not selected adds nothing and fails in nothing. -/
theorem render_decided (node : Node) (scope : Scope) (b : Builder) :
    (node.decided scope).render scope b = node.render scope b := by
  cases node with
  | branch selection | whereClause selection | setClause selection =>
      rw [decided, render, render, Branch.select_decided]
  | _ => rfl

end Node

/-! ### Statements -/

/-- **Nothing has an influence on a statement but what it asks for**: it comes out the same, built
or refused, in any two scopes in which the paths in its guards, the paths of the phrases selected in
the first, and those of its loops lead to the same; in particular, whatever is bound to the names
that no such path starts with.  And it comes out the same if all is taken from it that is not
selected. -/
theorem assemble_eq_of_agreeOn (nodes : List Node) (scope other : Scope) :
    (scope.AgreeOn other (asked scope nodes) → assemble nodes other = assemble nodes scope) ∧
    ((∀ path ∈ asked scope nodes, other.var? (Scope.root path) = scope.var? (Scope.root path)) →
      assemble nodes other = assemble nodes scope) ∧
    assemble (nodes.map (Node.decided scope)) scope = assemble nodes scope := by
  have hagree (h : scope.AgreeOn other (asked scope nodes)) :
      assemble nodes other = assemble nodes scope := by
    rw [asked, Scope.agreeOn_flatMap] at h
    refine congrArg (Except.map Builder.finish) ?_
    exact Except.foldlM_congr (fun node hnode b => Node.render_eq (h node hnode) b) Builder.empty
  refine ⟨hagree, fun h => hagree fun path hpath => Scope.lookup?_eq_of_root (h path hpath), ?_⟩
  refine congrArg (Except.map Builder.finish) ?_
  rw [List.foldlM_map]
  exact Except.foldlM_congr (fun node _ b => node.render_decided scope b) Builder.empty

/-- An update of a name if there is one, else of a secret, and a broken phrase if it is wanted. -/
def renameQuery : List Node := [
  .raw "UPDATE t",
  .setClause (.choice
    ⟨[⟨.all [.present "u.name", .not (.truthy "locked")], .ofTemplate "name = #\x7bu.name\x7d"⟩],
      some (.ofTemplate "secret = #\x7bsecret\x7d")⟩),
  .branch (.single ⟨.any [.truthy "marked", .const false], ⟨"#\x7b", ["mark"]⟩⟩),
  .loop ⟨"ids", "id", ", ", "WHERE id IN (", ")", .ofTemplate "#\x7b id \x7d"⟩]

/-- A scope without a secret. -/
def renameScope : Scope := ⟨[
  ("ids", .list [.int 1, .int 2]), ("u", .map [("name", .text "ann")])]⟩

/-- One with a secret, and with more about the user. -/
def secretScope : Scope := ⟨[
  ("ids", .list [.int 1, .int 2]), ("mark", .int 9), ("secret", .text "s"),
  ("u", .map [("key", .text "k"), ("name", .text "ann")])]⟩

theorem assemble_eq_of_agreeOn_of_rename :
    asked renameScope renameQuery = ["u.name", "locked", "u.name", "marked", "ids", "id"] ∧
    ((assemble renameQuery renameScope).map fun s => (s.sql, s.args.map Value.render)) =
      .ok ("UPDATE t SET name = ? WHERE id IN (?, ?)", ["ann", "1", "2"]) ∧
    renameScope.AgreeOn secretScope (asked renameScope renameQuery) ∧
    assemble renameQuery secretScope = assemble renameQuery renameScope ∧
    (∀ path ∈ asked renameScope renameQuery,
      (renameScope.bind "secret" (.text "s")).var? (Scope.root path) =
        renameScope.var? (Scope.root path)) ∧
    assemble renameQuery (renameScope.bind "secret" (.text "s")) =
      assemble renameQuery renameScope ∧
    assemble (renameQuery.map (Node.decided renameScope)) renameScope =
      assemble renameQuery renameScope := by
  have hasked : asked renameScope renameQuery =
      ["u.name", "locked", "u.name", "marked", "ids", "id"] := by decide +kernel
  have hagree : renameScope.AgreeOn secretScope (asked renameScope renameQuery) := by
    rw [hasked]
    simp only [Scope.agreeOn_cons, Scope.agreeOn_nil, and_true]
    exact ⟨rfl, rfl, rfl, rfl, rfl, rfl⟩
  have hroots : ∀ path ∈ asked renameScope renameQuery,
      (renameScope.bind "secret" (.text "s")).var? (Scope.root path) =
        renameScope.var? (Scope.root path) := by
    rw [hasked]
    simp only [List.forall_mem_cons]
    exact ⟨rfl, rfl, rfl, rfl, rfl, rfl, nofun⟩
  obtain ⟨hother, -, hdecided⟩ := assemble_eq_of_agreeOn renameQuery renameScope secretScope
  obtain ⟨-, hbound, -⟩ :=
    assemble_eq_of_agreeOn renameQuery renameScope (renameScope.bind "secret" (.text "s"))
  exact ⟨hasked, by decide +kernel, hagree, hother hagree, hroots, hbound hroots, hdecided⟩

end SqlAccess
