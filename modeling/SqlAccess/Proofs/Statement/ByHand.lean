/-
**Statements assembled by hand.**

A statement can be described by nodes, or a caller who knows the outcome of every guard can put it
together: fragment by fragment, each on its condition and with the values at hand.  Here the two are
shown to agree.  Whoever goes by hand passes some values for the phrases that do not take part too;
they make no difference.

Selection is done twice, by the nodes and by the builder.  A node drops a blank phrase when it
selects, the builder when it adds: so the two agree on blank phrases only if these bind no values.

Main definitions:

* `SqlAccess.Branch.clause` — the clause of a branch, filled by hand;
* `SqlAccess.Node.byHand`, `SqlAccess.byHand` — a node and a whole statement, assembled by hand;
* `SqlAccess.Node.Ready` — no placeholder is left, and all paths that are needed lead somewhere.

Main results:

* `SqlAccess.Branch.foldl_evaluated`, `SqlAccess.Choice.first_evaluated` — what is selected by hand;
* `SqlAccess.Node.render_eq_byHand` — one node;
* `SqlAccess.assemble_eq_byHand` — **whole statements, and when they fail**.
-/

import SqlAccess.Proofs.Statement.ItemScope

set_option autoImplicit false

namespace SqlAccess

variable {scope : Scope}

/-! ### By hand -/

/-- The values that the paths of a phrase lead to. -/
def Phrase.values (p : Phrase) (lookup? : String → Option Value) : List Value :=
  p.args.filterMap lookup?

/-- A phrase with the values of its paths. -/
def Phrase.valued (p : Phrase) (scope : Scope) : Fragment := ⟨p.text, p.values scope.lookup?⟩

/-- Whether the guard holds, and the phrase: with its own values if it does, else with any. -/
def Guarded.evaluated (w : Guarded) (scope : Scope) (spare : List Value) : Bool × Fragment :=
  (w.guard.holds scope,
    if w.guard.holds scope then w.phrase.valued scope else ⟨w.phrase.text, spare⟩)

namespace Choice

/-- Which of the guards is the first that holds. -/
def firstHolding (c : Choice) (scope : Scope) : Nat :=
  c.whens.findIdx fun w => w.guard.holds scope

/-- For each phrase whether its guard holds; only the first of those has its own values. -/
def evaluated (c : Choice) (scope : Scope) (spare : Nat → List Value) : List (Bool × Fragment) :=
  c.whens.mapIdx fun i w => (w.guard.holds scope,
    if i = c.firstHolding scope then w.phrase.valued scope else ⟨w.phrase.text, spare i⟩)

/-- The fallback, with its own values if no guard holds. -/
def fallback (c : Choice) (scope : Scope) (spare : Nat → List Value) : Option Fragment :=
  c.otherwise.map fun p =>
    if c.whens.any fun w => w.guard.holds scope then ⟨p.text, spare c.whens.length⟩
    else p.valued scope

/-- The phrase that is chosen, blank or not. -/
def chosen? (c : Choice) (scope : Scope) : Option Phrase :=
  ((c.whens.find? fun w => w.guard.holds scope).map Guarded.phrase).or c.otherwise

end Choice

/-- The clause of a branch, filled on conditions that are known.  The `i`-th phrase has the values
`spare i` if it does not take part. -/
def Branch.clause (scope : Scope) (spare : Nat → List Value) : Branch → Clause
  | single w =>
    let e := w.evaluated scope (spare 0)
    Clause.empty.pushWhen e.1 e.2.text e.2.args
  | chain branches =>
    (branches.mapIdx fun i w => w.evaluated scope (spare i)).foldl
      (fun c e => c.pushWhen e.1 e.2.text e.2.args) Clause.empty
  | choice c => Clause.empty.pushFirst (c.evaluated scope spare) (c.fallback scope spare)

/-- The items that a loop runs over; none if its path does not lead to a list. -/
def Loop.listed (l : Loop) (scope : Scope) : List Value :=
  ((scope.lookup? l.collection).bind Value.asList?).getD []

/-- The bodies of a loop with their values. -/
def Loop.bodies (l : Loop) (scope : Scope) : List Fragment :=
  (l.listed scope).map fun item => ⟨l.body.text, l.body.values (l.lookup? scope item)⟩

/-- One node, put into a builder by hand. -/
def Node.byHand (scope : Scope) (spare : Nat → List Value) (b : Builder) :
    Node → Except BuildFault Builder
  | empty => .ok b
  | raw text => .ok (b.push text [])
  | simple p => .ok (b.push p.text (p.values scope.lookup?))
  | branch (.single w) =>
    let e := w.evaluated scope (spare 0)
    .ok (b.pushWhen e.1 e.2.text e.2.args)
  | branch (.chain branches) =>
    .ok ((branches.mapIdx fun i w => w.evaluated scope (spare i)).foldl
      (fun b e => b.pushWhen e.1 e.2.text e.2.args) b)
  | branch (.choice c) =>
    match c.chosen? scope with
    | some p => .ok (b.push p.text (p.values scope.lookup?))
    | none => .ok b
  | whereClause selection => .ok (b.pushWhere (selection.clause scope spare))
  | setClause selection => b.pushSet? (selection.clause scope spare)
  | loop l => .ok (b.pushLoop l.opening l.separator l.closing (l.bodies scope))

/-- A whole statement by hand, with values to spare for each phrase of each node. -/
def byHand (nodes : List Node) (scope : Scope) (spare : Nat → Nat → List Value) :
    Except BuildFault Builder :=
  nodes.zipIdx.foldlM (fun b n => n.1.byHand scope (spare n.2) b) Builder.empty

/-! ### Statements that are ready -/

/-- No placeholder is left in a phrase, and a blank one binds no values. -/
structure Phrase.Clean (p : Phrase) : Prop where
  unmarked : Placeholder.occurs p.text = false
  bare : p.isBlank = true → p.args = []

/-- All paths of a phrase lead somewhere. -/
def Phrase.Resolves (p : Phrase) (lookup? : String → Option Value) : Prop :=
  ∀ path ∈ p.args, (lookup? path).isSome = true

/-- All phrases of a branch are clean, and those that take part have their values. -/
structure Branch.Ready (b : Branch) (scope : Scope) : Prop where
  clean : ∀ p ∈ b.phrases, p.Clean
  resolves : ∀ p ∈ b.select scope, p.Resolves scope.lookup?

/-- The texts of a node hold no placeholder, blank phrases bind no values, the phrases that take
part have theirs, and a loop runs over a list with items. -/
def Node.Ready (scope : Scope) : Node → Prop
  | empty => True
  | raw text => Placeholder.occurs text = false
  | simple p => p.Clean ∧ p.Resolves scope.lookup?
  | branch selection | whereClause selection | setClause selection => selection.Ready scope
  | loop l => l.body.Clean ∧ (l.listed scope).isEmpty = false ∧
      ∀ item ∈ l.listed scope, l.body.Resolves (l.lookup? scope item)

instance (p : Phrase) : Decidable p.Clean :=
  decidable_of_iff (Placeholder.occurs p.text = false ∧ (p.isBlank = true → p.args = []))
    ⟨fun h => ⟨h.1, h.2⟩, fun h => ⟨h.unmarked, h.bare⟩⟩

instance (p : Phrase) (lookup? : String → Option Value) : Decidable (p.Resolves lookup?) :=
  inferInstanceAs (Decidable (∀ path ∈ p.args, (lookup? path).isSome = true))

instance (b : Branch) (scope : Scope) : Decidable (b.Ready scope) :=
  decidable_of_iff
    ((∀ p ∈ b.phrases, p.Clean) ∧ ∀ p ∈ b.select scope, p.Resolves scope.lookup?)
    ⟨fun h => ⟨h.1, h.2⟩, fun h => ⟨h.clean, h.resolves⟩⟩

instance (scope : Scope) : (node : Node) → Decidable (node.Ready scope)
  | .empty => inferInstanceAs (Decidable True)
  | .raw text => inferInstanceAs (Decidable (Placeholder.occurs text = false))
  | .simple p => inferInstanceAs (Decidable (p.Clean ∧ p.Resolves scope.lookup?))
  | .branch selection | .whereClause selection | .setClause selection =>
    inferInstanceAs (Decidable (selection.Ready scope))
  | .loop l => inferInstanceAs (Decidable (l.body.Clean ∧ (l.listed scope).isEmpty = false ∧
      ∀ item ∈ l.listed scope, l.body.Resolves (l.lookup? scope item)))

/-! ### Phrases -/

namespace Phrase

variable {p : Phrase} {lookup? : String → Option Value}

theorem resolveArgs_eq (h : p.Resolves lookup?) :
    resolveArgs lookup? p.args = .ok (p.values lookup?) := by
  rw [values]
  unfold Resolves at h
  generalize p.args = paths at h ⊢
  induction paths with
  | nil => rfl
  | cons path paths ih =>
      rw [List.forall_mem_cons] at h
      obtain ⟨value, hvalue⟩ := Option.isSome_iff_exists.1 h.1
      rw [resolveArgs, hvalue, List.filterMap_cons_some hvalue, ih h.2]
      rfl

theorem Clean.check_eq (h : p.Clean) : checkUnmarked p.text = .ok () :=
  if_neg (by simp [h.unmarked])

theorem Clean.render_eq (h : p.Clean) (hargs : p.Resolves scope.lookup?) :
    p.render scope = .ok (p.valued scope) := by
  rw [render, renderWith, h.check_eq, resolveArgs_eq hargs]
  rfl

end Phrase

/-! ### Branches -/

namespace Branch

/-- Phrases added on their conditions are the selected ones added in turn; the values that were
passed for the others are not looked at. -/
theorem foldl_evaluated {σ : Type} (add : σ → Fragment → σ) (scope : Scope)
    (branches : List Guarded) (spare : Nat → List Value) (s : σ) :
    (branches.mapIdx fun i w => w.evaluated scope (spare i)).foldl
        (fun s e => if e.1 then add s e.2 else s) s =
      ((chain branches).select scope).foldl (fun s p => add s (p.valued scope)) s := by
  rw [select]
  induction branches generalizing spare s with
  | nil => rfl
  | cons w branches ih =>
      rw [List.mapIdx_cons, List.foldl_cons, ih fun i => spare (i + 1), List.filter_cons,
        Guarded.evaluated]
      split
      · rw [List.map_cons, List.foldl_cons]
      · rfl

theorem select_single (w : Guarded) (scope : Scope) :
    (single w).select scope = (chain [w]).select scope := by
  rw [select, select, List.filter_cons]
  split <;> rfl

end Branch

namespace Choice

/-- **The first phrase whose condition holds, or else the fallback, is the one that is chosen**,
with its own values. -/
theorem first_evaluated (c : Choice) (scope : Scope) (spare : Nat → List Value) :
    (((c.evaluated scope spare).find? Prod.fst).map Prod.snd).or (c.fallback scope spare) =
      (c.chosen? scope).map fun p => p.valued scope := by
  -- the place of the first guard that holds moves with the list, and so do the spare values
  have hwhens : ∀ (whens : List Guarded) (spare : Nat → List Value),
      ((whens.mapIdx fun i w => (w.guard.holds scope,
          if i = whens.findIdx (fun w => w.guard.holds scope) then w.phrase.valued scope
          else ⟨w.phrase.text, spare i⟩)).find? Prod.fst).map Prod.snd =
        (whens.find? fun w => w.guard.holds scope).map fun w => w.phrase.valued scope := by
    intro whens
    induction whens with
    | nil => exact fun _ => rfl
    | cons w whens ih =>
        intro spare
        rw [List.mapIdx_cons, List.findIdx_cons, List.find?_cons, List.find?_cons]
        cases w.guard.holds scope with
        | true => simp
        | false => simpa using ih fun i => spare (i + 1)
  rw [evaluated, firstHolding, hwhens, chosen?, fallback, Option.map_or, Option.map_map]
  cases hfind : c.whens.find? fun w => w.guard.holds scope with
  | some w => rfl
  | none =>
      have hnone : (c.whens.any fun w => w.guard.holds scope) = false := by
        simpa using List.find?_eq_none.1 hfind
      simp [hnone]

/-- What is chosen takes part, unless it is blank. -/
theorem select_eq (c : Choice) (scope : Scope) :
    (Branch.choice c).select scope =
      ((c.chosen? scope).elim [] fun p => if p.isBlank then [] else [p]) := by
  change ((c.chosen? scope).filter fun p => !p.isBlank).toList = _
  cases c.chosen? scope with
  | none => rfl
  | some p => cases hblank : p.isBlank <;> simp [Option.filter_some, hblank]

theorem mem_phrases_of_chosen? {c : Choice} {p : Phrase} (h : c.chosen? scope = some p) :
    p ∈ (Branch.choice c).phrases := by
  rw [chosen?, Option.or_eq_some_iff] at h
  rcases h with hfound | ⟨-, hotherwise⟩
  · obtain ⟨w, hw, rfl⟩ := Option.map_eq_some_iff.1 hfound
    exact List.mem_append_left _ (List.mem_map_of_mem (List.mem_of_find?_eq_some hw))
  · exact List.mem_append_right _ (by simp [hotherwise])

end Choice

theorem Clause.push_of_isBlank (c : Clause) {p : Phrase} (h : p.isBlank = true)
    (args : List Value) : c.push p.text args = c := if_pos h

theorem Builder.push_of_isBlank (b : Builder) {p : Phrase} (h : p.isBlank = true) :
    b.push p.text [] = b := by
  rw [push, List.append_nil, if_pos (show Text.allBlank p.text.toList = true from h)]

namespace Branch

/-- The phrases that take part, added to a clause in turn. -/
theorem clause_eq (selection : Branch) (scope : Scope) (spare : Nat → List Value) :
    selection.clause scope spare =
      (selection.select scope).foldl (fun c p => c.push p.text (p.values scope.lookup?))
        Clause.empty := by
  cases selection with
  | single w =>
      rw [select_single]
      exact foldl_evaluated (fun c f => c.push f.text f.args) scope [w] spare Clause.empty
  | chain branches =>
      exact foldl_evaluated (fun c f => c.push f.text f.args) scope branches spare Clause.empty
  | choice c =>
      rw [clause, Clause.pushFirst, c.first_evaluated, c.select_eq]
      cases c.chosen? scope with
      | none => rfl
      | some p =>
          change Clause.empty.push p.text (p.values scope.lookup?) = List.foldl _ _ _
          rw [Option.elim_some]
          split
          · rename_i hblank
            exact Clause.empty.push_of_isBlank hblank _
          · rfl

variable {selection : Branch}

theorem Ready.render_eq (h : selection.Ready scope) {p : Phrase} (hp : p ∈ selection.select scope) :
    p.render scope = .ok (p.valued scope) :=
  (h.clean p (mem_phrases_of_mem_select hp)).render_eq (h.resolves p hp)

/-- **A clause filled by hand is the one of the phrases that take part.** -/
theorem Ready.renderClause_eq (h : selection.Ready scope) (spare : Nat → List Value) :
    renderClause scope (selection.select scope) = .ok (selection.clause scope spare) := by
  rw [clause_eq, renderClause]
  refine Except.foldlM_eq_ok ?_ Clause.empty
  intro p hp c
  rw [h.render_eq hp]
  rfl

end Branch

/-! ### Loops -/

namespace Loop

variable {l : Loop}

theorem items_eq_listed (h : (l.listed scope).isEmpty = false) :
    l.items scope = .ok (l.listed scope) := by
  unfold items
  unfold listed at h ⊢
  cases hpath : scope.lookup? l.collection with
  | none => simp [hpath] at h
  | some value =>
      rw [hpath, Option.bind_some] at h
      rw [Option.bind_some]
      cases hlist : value.asList? with
      | none => simp [hlist] at h
      | some items =>
          cases items with
          | nil => simp [hlist] at h
          | cons item items => simp [hlist]

theorem render_eq_bodies (h : (Node.loop l).Ready scope) :
    l.render scope = .ok (l.bodies scope) := by
  obtain ⟨hclean, hitems, hargs⟩ := h
  rw [render_eq_mapM hclean.unmarked (items_eq_listed hitems), bodies]
  refine Except.mapM_eq_ok ?_
  intro item hitem
  rw [itemBody, Phrase.resolveArgs_eq (hargs item hitem)]
  rfl

end Loop

/-! ### Nodes and statements -/

namespace Node

variable {node : Node}

/-- **A node is rendered as it would be put together by hand.** -/
theorem render_eq_byHand (h : node.Ready scope) (spare : Nat → List Value) (b : Builder) :
    node.render scope b = node.byHand scope spare b := by
  cases node with
  | empty => rfl
  | raw text =>
      have hcheck : checkUnmarked text = .ok () := if_neg (by simp [show _ = false from h])
      rw [render, hcheck]
      rfl
  | simple p =>
      rw [render, h.1.render_eq h.2]
      rfl
  | branch selection =>
      have hrender : (Node.branch selection).render scope b =
          .ok ((selection.select scope).foldl
            (fun b p => b.push p.text (p.values scope.lookup?)) b) := by
        refine Except.foldlM_eq_ok ?_ b
        intro p hp b
        rw [Branch.Ready.render_eq h hp]
        rfl
      rw [hrender]
      cases selection with
      | single w =>
          rw [Branch.select_single]
          refine congrArg Except.ok (Eq.symm ?_)
          exact Branch.foldl_evaluated (fun b f => b.push f.text f.args) scope [w] spare b
      | chain branches =>
          refine congrArg Except.ok (Eq.symm ?_)
          exact Branch.foldl_evaluated (fun b f => b.push f.text f.args) scope branches spare b
      | choice c =>
          rw [byHand, c.select_eq]
          cases hchosen : c.chosen? scope with
          | none => rfl
          | some p =>
              have hclean : p.Clean := h.clean p (Choice.mem_phrases_of_chosen? hchosen)
              rw [Option.elim_some]
              split
              · -- the node drops a blank choice, and by hand it adds nothing
                rename_i hblank
                have hvalues : p.values scope.lookup? = [] := by
                  rw [Phrase.values, hclean.bare hblank]
                  rfl
                dsimp only
                rw [hvalues, b.push_of_isBlank hblank]
                rfl
              · rfl
  | whereClause selection =>
      rw [render, Branch.Ready.renderClause_eq h spare]
      rfl
  | setClause selection =>
      rw [render, Branch.Ready.renderClause_eq h spare]
      rfl
  | loop l =>
      rw [render, Loop.render_eq_bodies h]
      rfl

/-- By hand, nothing fails but a `SET` clause without members. -/
theorem byHand_eq_error_iff (spare : Nat → List Value) (b : Builder) (fault : BuildFault) :
    node.byHand scope spare b = .error fault ↔ fault = .emptySet ∧
      ∃ selection, node = .setClause selection ∧
        (selection.clause scope spare).isEmpty = true := by
  cases node with
  | setClause selection =>
      rw [byHand, Builder.pushSet?]
      cases hempty : (selection.clause scope spare).isEmpty with
      | true => simpa [hempty] using eq_comm
      | false => simp [hempty]
  | branch selection =>
      cases selection with
      | choice c =>
          rw [byHand]
          split <;> simp
      | _ => simp [byHand]
  | _ => simp [byHand]

end Node

theorem Builder.pushSet?_eq_error_iff (b : Builder) (c : Clause) :
    b.pushSet? c = .error .emptySet ↔ c.isEmpty = true := by
  rw [pushSet?]
  split
  · rename_i hempty
    simp [hempty]
  · rename_i hmembers
    simp [hmembers]

/-- **A statement that is ready comes out as if it were put together by hand, node by node and on
conditions that are known**, whatever values are passed for the phrases that do not take part.  **It
fails exactly if one of its `SET` clauses is refused for want of members**, and in no other way. -/
theorem assemble_eq_byHand (nodes : List Node) (scope : Scope) (spare : Nat → Nat → List Value)
    (hready : ∀ node ∈ nodes, node.Ready scope) :
    assemble nodes scope = (byHand nodes scope spare).map Builder.finish ∧
    ∀ fault, assemble nodes scope = .error fault ↔ fault = .emptySet ∧
      ∃ i selection, nodes[i]? = some (Node.setClause selection) ∧
        ∀ b : Builder, b.pushSet? (selection.clause scope (spare i)) = .error .emptySet := by
  have hassemble : assemble nodes scope = (byHand nodes scope spare).map Builder.finish := by
    refine congrArg (Except.map Builder.finish) ?_
    conv_lhs => rw [← List.zipIdx_map_fst 0 nodes, List.foldlM_map]
    refine Except.foldlM_congr ?_ Builder.empty
    intro n hn b
    exact Node.render_eq_byHand (hready n.1 (List.fst_mem_of_mem_zipIdx hn)) (spare n.2) b
  refine ⟨hassemble, ?_⟩
  intro fault
  rw [hassemble, Except.map_eq_error_iff, byHand,
    Except.foldlM_eq_error_iff fun b n fault => Node.byHand_eq_error_iff (spare n.2) b fault]
  refine and_congr_right fun _ => ?_
  constructor
  · rintro ⟨⟨node, i⟩, hmem, selection, rfl, hempty⟩
    refine ⟨i, selection, List.mem_zipIdx_iff_getElem?.1 hmem, ?_⟩
    intro b
    exact (b.pushSet?_eq_error_iff _).2 hempty
  · rintro ⟨i, selection, hnode, hrefused⟩
    refine ⟨(.setClause selection, i), List.mem_zipIdx_iff_getElem?.2 hnode, selection, rfl, ?_⟩
    exact (Builder.empty.pushSet?_eq_error_iff _).1 (hrefused Builder.empty)

/-- An update of a name, if it is wanted, and of an address, if there is one. -/
def patchQuery (named : Bool) : List Node := [
  .raw "UPDATE t",
  .setClause (.chain [⟨.const named, .ofTemplate "name = #\x7bname\x7d,"⟩,
    ⟨.present "email", .ofTemplate "email = #\x7bemail\x7d"⟩]),
  .whereClause (.choice
    ⟨[⟨.truthy "all", .ofTemplate " "⟩], some (.ofTemplate "id = #\x7bid\x7d")⟩),
  .branch (.choice ⟨[⟨.const true, .ofTemplate " "⟩], none⟩),
  .loop ⟨"tags", "t", ", ", "AND tag IN (", ")", .ofTemplate "#\x7bt\x7d"⟩]

/-- Values for it, without an address. -/
def patchScope : Scope := ⟨[
  ("id", .int 7), ("name", .text "ann"), ("tags", .list [.int 1, .int 2])]⟩

theorem assemble_eq_byHand_of_patch :
    (∀ named, ∀ node ∈ patchQuery named, node.Ready patchScope) ∧
    ((assemble (patchQuery true) patchScope).map fun s => (s.sql, s.args.map Value.render)) =
      .ok ("UPDATE t SET name = ? WHERE 1=1 AND id = ? AND tag IN (?, ?)",
        ["ann", "7", "1", "2"]) ∧
    assemble (patchQuery true) patchScope =
      (byHand (patchQuery true) patchScope fun _ _ => [.int 9]).map Builder.finish ∧
    assemble (patchQuery false) patchScope = .error .emptySet := by
  have hready : ∀ named, ∀ node ∈ patchQuery named, node.Ready patchScope := by decide +kernel
  refine ⟨hready, by decide +kernel, (assemble_eq_byHand _ _ _ (hready true)).1, ?_⟩
  refine ((assemble_eq_byHand _ _ (fun _ _ => [.int 9]) (hready false)).2 .emptySet).2 ⟨rfl, ?_⟩
  exact ⟨1, _, rfl, fun b => rfl⟩

end SqlAccess
