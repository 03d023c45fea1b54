/-
**A loop's body in the scope of its item.**

A loop renders its body once for each item.  What the body means can be said with scopes alone: it
is rendered in the scope in which the item's name is bound to the item, and what the name stood for
outside is hidden.  A loop looks its paths up in another way.  It follows a path into the item, and
where that leads nowhere it starts again in the scope outside.  The two ways part where a path that
the item does not have leads somewhere outside.

Main definitions:

* `SqlAccess.Loop.itemScope` — the scope of the body for an item;
* `SqlAccess.Loop.unrolled` — the bodies in the scopes of their items, joined.

Main results:

* `SqlAccess.Scope.lookup?_bind`, `SqlAccess.Loop.itemPath?_of_fields` — paths that begin with a
  name;
* `SqlAccess.Loop.lookup?_eq_or` — a loop looks in the scope of the item, then outside;
* `SqlAccess.Loop.render_eq_unrolled_iff` — **a loop renders its body in the scopes of its items**,
  unless a path that is missing there is found outside;
* `SqlAccess.Loop.finds_hidden_field` — such a path.
-/

import SqlAccess.Proofs.Statement.Alignment

set_option autoImplicit false

namespace SqlAccess

variable {scope : Scope} {name path : String} {item : Value} {head : List Char}
  {steps : List (List Char)}

/-! ### Paths that begin with a name -/

/-- A path that begins with the bound name goes into the bound value, any other path where it went
before. -/
theorem Scope.lookup?_bind (h : Text.fields '.' (Text.trim path.toList) = head :: steps) :
    (scope.bind name item).lookup? path =
      if head = name.toList then item.walk? steps else scope.lookup? path := by
  rw [lookup?, lookup?, h, lookupSegments?, lookupSegments?, bind]
  split
  · rename_i hhead
    rw [hhead, String.ofList_toList, findField?_insertField_self]
    rfl
  · rename_i hhead
    have hne : String.ofList head ≠ name := fun he => hhead (by rw [← he, String.toList_ofList])
    rw [findField?_insertField_of_ne hne]

namespace Loop

/-- A path goes into the item exactly if its first segment is the item's name. -/
theorem itemPath?_of_fields (hname : '.' ∉ name.toList)
    (h : Text.fields '.' (Text.trim path.toList) = head :: steps) :
    itemPath? name item path = if head = name.toList then item.walk? steps else none := by
  rw [itemPath?]
  generalize Text.trim path.toList = cs at h ⊢
  cases hcut : Text.cut? '.' cs with
  | none =>
      -- the whole path is one segment
      have hdot : '.' ∉ cs := Text.cut?_eq_none_iff.1 hcut
      rw [Text.fields_of_not_mem hdot] at h
      obtain ⟨rfl, rfl⟩ := List.cons.inj h
      split
      · rename_i hpre
        have hcs := Text.eq_append_of_isPrefixOf? hpre
        rw [if_pos (by simpa using hcs), Value.walk?]
      · rename_i rest hpre
        have hcs := Text.eq_append_of_isPrefixOf? hpre
        exact absurd (by simp [hcs]) hdot
      · rename_i hnil _
        refine (if_neg ?_).symm
        rintro rfl
        exact hnil (List.isPrefixOf?_eq_some_iff_append_eq.2 (List.append_nil _))
  | some p =>
      obtain ⟨before, rest⟩ := p
      obtain ⟨rfl, hbefore⟩ := Text.cut?_eq_some_iff.1 hcut
      rw [Text.fields_append_cons hbefore] at h
      obtain ⟨rfl, rfl⟩ := List.cons.inj h
      -- a name without dots that is followed by one is the first segment
      have heq {r : List Char} (hr : before ++ '.' :: rest = name.toList ++ '.' :: r) :
          before = name.toList ∧ rest = r := by
        have hcut' := Text.cut?_append_cons hname r
        rw [← hr, Text.cut?_append_cons hbefore] at hcut'
        exact Prod.mk.inj (Option.some.inj hcut')
      split
      · rename_i hpre
        have hcs := Text.eq_append_of_isPrefixOf? hpre
        rw [List.append_nil] at hcs
        exact absurd (by simp [← hcs]) hname
      · rename_i r hpre
        obtain ⟨rfl, rfl⟩ := heq (Text.eq_append_of_isPrefixOf? hpre)
        rw [if_pos rfl]
      · rename_i hdot
        refine (if_neg ?_).symm
        rintro rfl
        exact hdot rest (List.isPrefixOf?_eq_some_iff_append_eq.2 rfl)

/-! ### The scope of an item -/

/-- The scope of a loop's body for an item: the item's name stands for the item and for nothing
else. -/
def itemScope (l : Loop) (scope : Scope) (item : Value) : Scope := scope.bind l.item item

/-- The bodies of a loop with what stands between and around them. -/
def joined (l : Loop) (bodies : List Fragment) : Fragment :=
  ⟨l.opening ++ l.separator.intercalate (bodies.map Fragment.text) ++ l.closing,
    bodies.flatMap Fragment.args⟩

/-- The body of a loop in the scope of each item, joined. -/
def unrolled (l : Loop) (scope : Scope) (items : List Value) : Except BuildFault Fragment := do
  return l.joined (← items.mapM fun item => l.body.render (l.itemScope scope item))

variable {l : Loop} {items : List Value}

/-- **A loop looks a path up in the scope of its item, and then outside.** -/
theorem lookup?_eq_or (hname : '.' ∉ l.item.toList) (scope : Scope) (item : Value)
    (path : String) :
    l.lookup? scope item path =
      ((l.itemScope scope item).lookup? path).or (scope.lookup? path) := by
  obtain ⟨head, steps, h⟩ := Text.exists_fields_eq_cons '.' (Text.trim path.toList)
  rw [lookup?, itemScope, itemPath?_of_fields hname h, Scope.lookup?_bind h]
  split
  · rfl
  · rw [Option.none_or, Option.or_self]

end Loop

/-! ### Paths that are missing -/

/-- What a failure says is missing is not found outside either. -/
def MissingOutside (scope : Scope) (fault : BuildFault) : Prop :=
  ∀ path, fault = .unresolvedArgument path → scope.lookup? path = none

variable {lookup? : String → Option Value} {paths : List String} {fault : BuildFault}

/-- The first path that leads nowhere is the one that is reported. -/
theorem resolveArgs_eq_error_iff :
    resolveArgs lookup? paths = .error fault ↔ ∃ path, fault = .unresolvedArgument path ∧
      paths.find? (fun p => (lookup? p).isNone) = some path := by
  induction paths with
  | nil => simp [resolveArgs]
  | cons path paths ih =>
      rw [resolveArgs, List.find?_cons]
      cases hpath : lookup? path with
      | none => simp [eq_comm]
      | some value => simpa [Except.map_eq_error_iff] using ih

theorem resolveArgs_eq_error (h : resolveArgs lookup? paths = .error fault) :
    ∃ path ∈ paths, fault = .unresolvedArgument path ∧ lookup? path = none := by
  obtain ⟨path, rfl, hfind⟩ := resolveArgs_eq_error_iff.1 h
  exact ⟨path, List.mem_of_find?_eq_some hfind, rfl, by simpa using List.find?_some hfind⟩

/-- A path that is missing stops the look-up, there or before. -/
theorem exists_resolveArgs_eq_error (hpath : path ∈ paths) (h : lookup? path = none) :
    ∃ p ∈ paths, resolveArgs lookup? paths = .error (.unresolvedArgument p) := by
  cases hargs : resolveArgs lookup? paths with
  | error fault =>
      obtain ⟨p, hp, rfl, -⟩ := resolveArgs_eq_error hargs
      exact ⟨p, hp, rfl⟩
  | ok values =>
      have hmem : none ∈ values.map some :=
        resolveArgs_eq_ok_iff.1 hargs ▸ List.mem_map.2 ⟨path, hpath, h⟩
      simp at hmem

/-- Looking outside for what is missing mends the look-up. -/
theorem mends_resolveArgs (lookup? : String → Option Value) (scope : Scope)
    (paths : List String) :
    Except.Mends (MissingOutside scope)
      (resolveArgs (fun path => (lookup? path).or (scope.lookup? path)) paths)
      (resolveArgs lookup? paths) := by
  have hlasts (paths : List String) (fault : BuildFault)
      (h : resolveArgs (fun path => (lookup? path).or (scope.lookup? path)) paths =
        .error fault) : MissingOutside scope fault := by
    obtain ⟨p, -, rfl, hp⟩ := resolveArgs_eq_error h
    rintro path ⟨⟩
    exact (Option.or_eq_none_iff.1 hp).2
  induction paths with
  | nil => exact .of_ok []
  | cons path paths ih =>
      cases hpath : lookup? path with
      | some value =>
          rw [resolveArgs, resolveArgs, hpath]
          exact ih.map _
      | none =>
          have hinner : resolveArgs lookup? (path :: paths) =
              .error (.unresolvedArgument path) := by rw [resolveArgs, hpath]
          rw [hinner]
          by_cases houtside : scope.lookup? path = none
          · rw [resolveArgs, hpath, houtside]
            refine .of_error ?_
            rintro p ⟨⟩
            exact houtside
          · exact .of_not_lasts (fun hmissing => houtside (hmissing path rfl)) (hlasts _)

/-! ### Loops -/

/-- The items of a loop between its opening and its closing text, as one fragment. -/
theorem Builder.pushLoop_eq_push (b : Builder) (l : Loop) {bodies : List Fragment}
    (h : bodies ≠ []) :
    b.pushLoop l.opening l.separator l.closing bodies =
      b.push (l.joined bodies).text (l.joined bodies).args := by
  rw [pushLoop, if_neg (by simpa using h), push, push, List.append_nil]
  rfl

namespace Loop

variable {l : Loop} {items : List Value}

theorem items_eq (hlist : scope.lookup? l.collection = some (.list items)) (hne : items ≠ []) :
    l.items scope = .ok items := by
  rw [Loop.items, hlist]
  cases items with
  | nil => exact absurd rfl hne
  | cons item items => rfl

theorem ne_nil_of_render {bodies : List Fragment} (h : l.render scope = .ok bodies) :
    bodies ≠ [] := by
  obtain ⟨_, -, h⟩ := Except.bind_eq_ok_iff.1 h
  obtain ⟨items, hitems, h⟩ := Except.bind_eq_ok_iff.1 h
  have hlength := (Except.forall₂_of_mapM h).length_eq
  rintro rfl
  exact (items_eq_ok hitems).2 (List.eq_nil_of_length_eq_zero hlength)

/-- The body with the values of its paths, as the loop looks them up for an item. -/
def itemBody (l : Loop) (scope : Scope) (item : Value) : Except BuildFault Fragment := do
  return ⟨l.body.text, ← resolveArgs (l.lookup? scope item) l.body.args⟩

theorem render_eq_mapM (hmark : Placeholder.occurs l.body.text = false)
    (hitems : l.items scope = .ok items) : l.render scope = items.mapM (l.itemBody scope) := by
  have hcheck : checkUnmarked l.body.text = .ok () := if_neg (by simp [hmark])
  rw [render, hcheck, hitems]
  rfl

/-- A path of the body that some item looks up in vain makes the loop fail for want of a path. -/
theorem exists_render_eq_error (hmark : Placeholder.occurs l.body.text = false)
    (hitems : l.items scope = .ok items) (hitem : item ∈ items) (hpath : path ∈ l.body.args)
    (hmissing : l.lookup? scope item path = none) :
    ∃ p ∈ l.body.args, l.render scope = .error (.unresolvedArgument p) := by
  obtain ⟨p, -, hp⟩ := exists_resolveArgs_eq_error hpath hmissing
  have hbody : l.itemBody scope item = .error (.unresolvedArgument p) := by
    rw [itemBody, hp]
    rfl
  -- the item at which the loop stops wants a path too
  obtain ⟨other, -, fault, hother, hloop⟩ := Except.exists_error_of_mapM hitem hbody
  rw [itemBody, ← Except.map_eq_bind, Except.map_eq_error_iff] at hother
  obtain ⟨q, hq, rfl, -⟩ := resolveArgs_eq_error hother
  exact ⟨q, hq, by rw [render_eq_mapM hmark hitems, hloop]⟩

/-- A loop adds its bodies, joined, as one fragment. -/
theorem render_node (l : Loop) (scope : Scope) (b : Builder) :
    (Node.loop l).render scope b =
      ((l.render scope).map l.joined).map fun f => b.push f.text f.args := by
  rw [Node.render]
  cases h : l.render scope with
  | error fault => rfl
  | ok bodies => exact congrArg Except.ok (b.pushLoop_eq_push l (ne_nil_of_render h))

/-- A loop mends the rendering of its body in the scopes of its items. -/
theorem mends_render (hname : '.' ∉ l.item.toList) (hitems : l.items scope = .ok items)
    (hne : items ≠ []) :
    Except.Mends (MissingOutside scope) (l.render scope)
      (items.mapM fun item => l.body.render (l.itemScope scope item)) := by
  cases hmark : Placeholder.occurs l.body.text with
  | true =>
      have hcheck : checkUnmarked l.body.text = .error (.unresolvedPlaceholder l.body.text) :=
        if_pos hmark
      obtain ⟨item, rest, rfl⟩ := List.exists_cons_of_ne_nil hne
      have hloop : l.render scope = .error (.unresolvedPlaceholder l.body.text) := by
        rw [render, hcheck]
        rfl
      have hbody : l.body.render (l.itemScope scope item) =
          .error (.unresolvedPlaceholder l.body.text) := by
        rw [Phrase.render, Phrase.renderWith, hcheck]
        rfl
      rw [hloop, List.mapM_cons, hbody]
      exact .of_error nofun
  | false =>
      have hcheck : checkUnmarked l.body.text = .ok () := if_neg (by simp [hmark])
      rw [render_eq_mapM hmark hitems]
      refine .mapM fun item _ => ?_
      have hlookup : l.lookup? scope item = fun path =>
          ((l.itemScope scope item).lookup? path).or (scope.lookup? path) :=
        funext (lookup?_eq_or hname scope item)
      rw [Phrase.render, Phrase.renderWith, hcheck, itemBody, hlookup]
      exact (mends_resolveArgs _ scope l.body.args).bind fun args => .of_ok _

/-- **A loop renders its body in the scopes of its items**, and joins what comes out, exactly if no
path at which that stops is found outside.  And it fails for want of a path if some path of the body
is found neither in the scope of some item nor outside. -/
theorem render_eq_unrolled_iff (l : Loop) (scope : Scope) (b : Builder) (items : List Value)
    (hname : '.' ∉ l.item.toList) (hlist : scope.lookup? l.collection = some (.list items))
    (hne : items ≠ []) :
    ((Node.loop l).render scope b =
        (l.unrolled scope items).map (fun f => b.push f.text f.args) ↔
      ∀ path, l.unrolled scope items = .error (.unresolvedArgument path) →
        scope.lookup? path = none) ∧
    ∀ item ∈ items, ∀ path ∈ l.body.args, (l.itemScope scope item).lookup? path = none →
      scope.lookup? path = none → Placeholder.occurs l.body.text = false →
      ∃ missing ∈ l.body.args,
        (Node.loop l).render scope b = .error (.unresolvedArgument missing) := by
  have hitems := items_eq hlist hne
  constructor
  · have hmends := ((mends_render hname hitems hne).map l.joined).map fun f => b.push f.text f.args
    rw [render_node, unrolled, ← Except.map_eq_bind, hmends.eq_iff]
    constructor
    · intro h path hpath
      exact h _ (Except.map_eq_error_iff.2 hpath) path rfl
    · rintro h fault hfault path rfl
      exact h path (Except.map_eq_error_iff.1 hfault)
  · intro item hitem path hpath hinside houtside hmark
    have hnone : l.lookup? scope item path = none := by
      rw [lookup?_eq_or hname, hinside, houtside]
      rfl
    obtain ⟨missing, hmissing, hloop⟩ := exists_render_eq_error hmark hitems hitem hpath hnone
    exact ⟨missing, hmissing, by rw [render_node, hloop]; rfl⟩

/-- The ages of users. -/
def userAges : Loop := ⟨"users", "u", ", ", "(", ")", .ofTemplate "#\x7bu.age\x7d"⟩

/-- Users with an age each, and a user of the loop's name for an item outside. -/
def agedScope : Scope := ⟨[
  ("u", .map [("age", .int 5)]),
  ("users", .list [.map [("age", .int 1)], .map [("age", .int 2)]])]⟩

/-- The outer user is hidden by the items. -/
theorem render_eq_unrolled_of_aged :
    (userAges.unrolled agedScope [.map [("age", .int 1)], .map [("age", .int 2)]]).map
        (fun f => (f.text, f.args.map Value.render)) = .ok ("(?, ?)", ["1", "2"]) ∧
      (Node.loop userAges).render agedScope .empty =
        (userAges.unrolled agedScope [.map [("age", .int 1)], .map [("age", .int 2)]]).map
          fun f => Builder.empty.push f.text f.args := by
  have hrun : (userAges.unrolled agedScope [.map [("age", .int 1)], .map [("age", .int 2)]]).map
      (fun f => (f.text, f.args.map Value.render)) = .ok ("(?, ?)", ["1", "2"]) := by
    decide +kernel
  refine ⟨hrun, (render_eq_unrolled_iff userAges agedScope .empty _ (by decide) rfl
    (by simp)).1.2 ?_⟩
  intro path hpath
  rw [hpath] at hrun
  cases hrun

/-- A user without an age, and a user of the loop's name for an item outside. -/
def agelessScope : Scope := ⟨[
  ("u", .map [("age", .int 5)]),
  ("users", .list [.map [("name", .text "a")]])]⟩

/-- **A field that an item lacks is taken from the value that its name hides**: the loop succeeds
where its body, in the scope of the item, wants a path. -/
theorem finds_hidden_field :
    agelessScope.lookup? userAges.collection = some (.list [.map [("name", .text "a")]]) ∧
      userAges.unrolled agelessScope [.map [("name", .text "a")]] =
        .error (.unresolvedArgument "u.age") ∧
      ((Node.loop userAges).render agelessScope .empty).map
        (fun b => (b.sql, b.args.map Value.render)) = .ok ("(?)", ["5"]) := by
  have hunrolled : (userAges.unrolled agelessScope [.map [("name", .text "a")]]).map Fragment.text =
      .error (.unresolvedArgument "u.age") := by decide +kernel
  exact ⟨rfl, Except.map_eq_error_iff.1 hunrolled, by decide +kernel⟩

end Loop

end SqlAccess
