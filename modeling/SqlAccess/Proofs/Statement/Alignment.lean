/-
**Each marker has the value of its own placeholder.**

Text and values go separate ways through a builder: blanks and commas are cut off the text, blank
fragments are dropped, and the values of all fragments end up in one list.  They stay together
nevertheless.  What is built is a list of fragments that fill the layout of the statement, part by
part, and each step of the builder keeps that.

Main definitions:

* `SqlAccess.Filled` — a layout with its slots filled;
* `SqlAccess.Fragment.Fills`, `SqlAccess.Builder.Fills` — the same of fragments and of builders;
* `SqlAccess.BoundGlyph` — a character, or a marker with its slot and its value.

Main results:

* `SqlAccess.Filled.trim`, `SqlAccess.Filled.dropTrailing`, `SqlAccess.Fragment.filled_intercalate`
  — what is done to texts;
* `SqlAccess.Phrase.fills_of_render`, `SqlAccess.fills_of_renderClause`,
  `SqlAccess.Loop.fills_of_render` — what phrases, clauses and loops are rendered as;
* `SqlAccess.Node.fills_of_render` — **one node**;
* `SqlAccess.assemble_binds_own_placeholders` — **a whole statement**.
-/

import SqlAccess.Proofs.Except
import SqlAccess.Proofs.Statement.Layout

set_option autoImplicit false

namespace SqlAccess

open Layout

variable {scope : Scope} {gs hs : List Glyph} {text more : List Char} {args others : List Value}

/-! ### Filled layouts -/

/-- A layout with its slots filled: the text is what is written for the glyphs, the values are what
the slots resolve to, and no marker is without a slot. -/
structure Filled (scope : Scope) (gs : List Glyph) (text : List Char) (args : List Value) :
    Prop where
  text : spelled gs = text
  args : (slots gs).map (Slot.value? scope) = args.map some
  stray : Glyph.char '?' ∉ gs

namespace Layout

theorem slots_dropWhile {p : Char → Bool} (hp : p '?' = false) (gs : List Glyph) :
    slots (gs.dropWhile fun g => p g.spell) = slots gs := by
  induction gs with
  | nil => rfl
  | cons g gs ih =>
      cases g with
      -- a slot ends the run, so the slots are all still to come
      | slot s => rw [List.dropWhile_cons_of_neg (by simp [Glyph.spell, hp])]
      | char c =>
          rw [List.dropWhile_cons]
          split
          · exact ih
          · rfl

theorem slots_reverse (gs : List Glyph) : slots gs.reverse = (slots gs).reverse :=
  List.filterMap_reverse

theorem spelled_reverse (gs : List Glyph) : spelled gs.reverse = (spelled gs).reverse :=
  List.map_reverse

end Layout

namespace Filled

theorem plain {text : String} (h : '?' ∉ text.toList) :
    Filled scope (Layout.plain text) text.toList [] where
  text := by simp [spelled, Layout.plain, Function.comp_def, Glyph.spell]
  args := by simp [slots, Layout.plain, List.filterMap_map, Function.comp_def, Glyph.slot?]
  stray := by simpa [Layout.plain] using h

theorem append (h : Filled scope gs text args) (h' : Filled scope hs more others) :
    Filled scope (gs ++ hs) (text ++ more) (args ++ others) where
  text := by rw [spelled_append, h.text, h'.text]
  args := by rw [slots_append, List.map_append, h.args, h'.args, List.map_append]
  stray := by simp [h.stray, h'.stray]

/-- A run at the beginning may be cut off, if no marker belongs to it. -/
theorem dropWhile (h : Filled scope gs text args) (p : Char → Bool) (hp : p '?' = false) :
    Filled scope (gs.dropWhile fun g => p g.spell) (text.dropWhile p) args where
  text := by
    rw [← h.text, spelled, spelled, List.dropWhile_map]
    rfl
  args := by rw [slots_dropWhile hp, h.args]
  stray hmem := h.stray ((List.dropWhile_sublist _).subset hmem)

theorem reverse (h : Filled scope gs text args) :
    Filled scope gs.reverse text.reverse args.reverse where
  text := by rw [spelled_reverse, h.text]
  args := by rw [slots_reverse, List.map_reverse, h.args, List.map_reverse]
  stray := by simpa using h.stray

/-- So may a run at the end. -/
theorem dropTrailing (h : Filled scope gs text args) (p : Char → Bool) (hp : p '?' = false) :
    Filled scope (gs.rdropWhile fun g => p g.spell) (Text.dropTrailing p text) args := by
  simpa [List.rdropWhile, Text.dropTrailing] using (h.reverse.dropWhile p hp).reverse

/-- Blanks at both ends may be cut off: no marker is blank. -/
theorem trim (h : Filled scope gs text args) : Filled scope (trimGlyphs gs) (Text.trim text) args :=
  (h.dropWhile Text.isBlank (by decide)).dropTrailing Text.isBlank (by decide)

/-- A blank text binds no values. -/
theorem args_eq_nil (h : Filled scope gs text args) (hblank : Text.allBlank text = true) :
    args = [] := by
  have hslots : slots gs = [] := by
    refine List.filterMap_eq_nil_iff.2 fun g hg => ?_
    cases g with
    | char c => rfl
    | slot s =>
        have hmem : '?' ∈ text := h.text ▸ List.mem_map_of_mem hg
        exact absurd (List.all_eq_true.1 hblank _ hmem) (by decide)
  have hargs := h.args
  rw [hslots] at hargs
  exact List.map_eq_nil_iff.1 hargs.symm

theorem all_isBlank_eq (h : Filled scope gs text args) :
    gs.all Glyph.isBlank = Text.allBlank text := by
  rw [← h.text, Text.allBlank, spelled, List.all_map]
  rfl

end Filled

/-! ### Fragments -/

namespace Fragment

/-- The fragment is the layout with its slots filled. -/
def Fills (scope : Scope) (f : Fragment) (gs : List Glyph) : Prop :=
  Filled scope gs f.text.toList f.args

variable {f : Fragment} {fs : List Fragment} {parts : List (List Glyph)}

theorem filled_flatten (h : List.Forall₂ (Fills scope) fs parts) :
    Filled scope parts.flatten (fs.flatMap fun f => f.text.toList) (fs.flatMap Fragment.args) := by
  induction h with
  | nil => exact ⟨rfl, rfl, List.not_mem_nil⟩
  | cons hf _ ih => exact hf.append ih

theorem filled_intercalate {sep : String} (hsep : '?' ∉ sep.toList)
    (h : List.Forall₂ (Fills scope) fs parts) :
    Filled scope ((plain sep).intercalate parts) (sep.intercalate (fs.map Fragment.text)).toList
      (fs.flatMap Fragment.args) := by
  rw [String.toList_intercalate, List.map_map]
  induction h with
  | nil => exact ⟨rfl, rfl, List.not_mem_nil⟩
  | @cons f gs fs parts hf hrest ih =>
      cases hrest with
      | nil => simpa [Fills] using hf
      | cons hg hrest =>
          have hjoined := (hf.append (Filled.plain hsep)).append ih
          simpa [List.intercalate_cons_cons] using hjoined

/-- A member of a `WHERE` clause with what joins it. -/
theorem Fills.joined (h : Fills scope f gs) :
    Fills scope ⟨Clause.joined f, f.args⟩ (joinedGlyphs gs) := by
  rw [Fills, Clause.joined, joinedGlyphs, h.text]
  split
  · have hblank : Filled scope (plain " ") " ".toList [] := Filled.plain (by decide)
    simpa using hblank.append h
  · have hand : Filled scope (plain " AND ") " AND ".toList [] := Filled.plain (by decide)
    simpa using hand.append h

/-- An assignment without the commas at its end: no marker is a comma. -/
theorem Fills.assignment (h : Fills scope f gs) :
    Fills scope ⟨Clause.assignment f, f.args⟩ (assignmentGlyphs gs) := by
  rw [Fills, Clause.assignment, String.toList_ofList]
  have hcommas := Filled.dropTrailing h (· == ',') (by decide)
  exact hcommas.dropTrailing Text.isBlank (by decide)

theorem Fills.trimmed (h : Fills scope f gs) :
    Fills scope ⟨Text.trimmed f.text, f.args⟩ (trimGlyphs gs) := by
  rw [Fills, Text.trimmed, String.toList_ofList]
  exact h.trim

end Fragment

/-! ### Clauses -/

/-- The members of the clause fill the parts one by one. -/
def Clause.Fills (scope : Scope) (c : Clause) (parts : List (List Glyph)) : Prop :=
  List.Forall₂ (Fragment.Fills scope) c.fragments parts

namespace Clause

variable {c : Clause} {f : Fragment} {parts : List (List Glyph)}

/-- A member more; a blank one has no values to lose. -/
theorem Fills.push (hc : c.Fills scope parts) (hf : f.Fills scope gs) :
    (c.push f.text f.args).Fills scope (parts ++ part gs) := by
  rw [Clause.push, part, hf.all_isBlank_eq]
  split
  · simpa using hc
  · exact List.rel_append hc (.cons hf.trimmed .nil)

theorem Fills.isEmpty_eq (hc : c.Fills scope parts) : c.isEmpty = parts.isEmpty := by
  rw [Clause.isEmpty, Bool.eq_iff_iff, List.isEmpty_iff_length_eq_zero,
    List.isEmpty_iff_length_eq_zero, List.Forall₂.length_eq hc]

/-- The `WHERE` clause of the members. -/
theorem Fills.whereText (hc : c.Fills scope parts) :
    Fragment.Fills scope ⟨c.whereText, c.args⟩
      (plain "WHERE 1=1" ++ (parts.map joinedGlyphs).flatten) := by
  have hmembers : List.Forall₂ (Fragment.Fills scope)
      (c.fragments.map fun f => ⟨joined f, f.args⟩) (parts.map joinedGlyphs) := by
    refine List.forall₂_map_left_iff.2 (List.forall₂_map_right_iff.2 (hc.imp fun f gs hf => ?_))
    exact hf.joined
  have hopening : Filled scope (plain "WHERE 1=1") "WHERE 1=1".toList [] :=
    Filled.plain (by decide)
  have htext := hopening.append (Fragment.filled_flatten hmembers)
  simpa [Fragment.Fills, Clause.whereText, Clause.args, List.flatMap_map] using htext

/-- The `SET` clause of the members. -/
theorem Fills.setText (hc : c.Fills scope parts) :
    Fragment.Fills scope ⟨c.setText, c.args⟩
      (plain "SET " ++ (plain ", ").intercalate (parts.map assignmentGlyphs)) := by
  have hmembers : List.Forall₂ (Fragment.Fills scope)
      (c.fragments.map fun f => ⟨assignment f, f.args⟩) (parts.map assignmentGlyphs) := by
    refine List.forall₂_map_left_iff.2 (List.forall₂_map_right_iff.2 (hc.imp fun f gs hf => ?_))
    exact hf.assignment
  have hopening : Filled scope (plain "SET ") "SET ".toList [] := Filled.plain (by decide)
  have hcomma : '?' ∉ ", ".toList := by decide
  have htext := hopening.append (Fragment.filled_intercalate hcomma hmembers)
  simpa [Fragment.Fills, Clause.setText, Clause.args, List.flatMap_map, Function.comp_def] using
    htext

end Clause

/-! ### Builders -/

/-- What is assembled are fragments that fill the parts one by one. -/
def Builder.Fills (scope : Scope) (b : Builder) (parts : List (List Glyph)) : Prop :=
  ∃ fs : List Fragment, b = ⟨fs.map Fragment.text, fs.flatMap Fragment.args⟩ ∧
    List.Forall₂ (Fragment.Fills scope) fs parts

namespace Builder

variable {b b' : Builder} {c : Clause} {f : Fragment} {parts members : List (List Glyph)}

theorem fills_empty (scope : Scope) : empty.Fills scope [] := ⟨[], rfl, .nil⟩

/-- One part more. -/
theorem Fills.concat (hb : b.Fills scope parts) (hf : f.Fills scope gs) :
    Builder.Fills scope ⟨b.parts ++ [f.text], b.args ++ f.args⟩ (parts ++ [gs]) := by
  obtain ⟨fs, rfl, hfs⟩ := hb
  exact ⟨fs ++ [f], by simp, List.rel_append hfs (.cons hf .nil)⟩

/-- A fragment more.  A blank one keeps its values, but there are none. -/
theorem Fills.push (hb : b.Fills scope parts) (hf : f.Fills scope gs) :
    (b.push f.text f.args).Fills scope (parts ++ part gs) := by
  rw [Builder.push, part, hf.all_isBlank_eq]
  split
  · rename_i hblank
    rw [hf.args_eq_nil hblank, List.append_nil, List.append_nil]
    exact hb
  · -- against the goal, the fragment would be looked for behind `Text.trimmed`
    have hconcat := hb.concat hf.trimmed
    exact hconcat

theorem Fills.pushWhere (hb : b.Fills scope parts) (hc : c.Fills scope members) :
    (b.pushWhere c).Fills scope (parts ++ whereParts members) := by
  rw [Builder.pushWhere, whereParts, hc.isEmpty_eq]
  split
  · rwa [List.append_nil]
  · exact hb.concat hc.whereText

theorem Fills.pushSet? (hb : b.Fills scope parts) (hc : c.Fills scope members)
    (h : b.pushSet? c = .ok b') : b'.Fills scope (parts ++ setParts members) := by
  unfold Builder.pushSet? at h
  split at h
  · cases h
  · obtain rfl := Except.ok.inj h
    exact hb.concat hc.setText

/-- The items of a loop, whose own texts have no markers. -/
theorem Fills.pushLoop {opening separator closing : String} {items : List Fragment}
    (hopening : '?' ∉ opening.toList) (hseparator : '?' ∉ separator.toList)
    (hclosing : '?' ∉ closing.toList) (hne : items ≠ []) (hb : b.Fills scope parts)
    (hitems : List.Forall₂ (Fragment.Fills scope) items members) :
    (b.pushLoop opening separator closing items).Fills scope
      (parts ++
        part (plain opening ++ (plain separator).intercalate members ++ plain closing)) := by
  have hbody := Fragment.filled_intercalate hseparator hitems
  have htext := ((Filled.plain hopening).append hbody).append (Filled.plain hclosing)
  have hloop : Fragment.Fills scope
      ⟨opening ++ separator.intercalate (items.map Fragment.text) ++ closing,
        items.flatMap Fragment.args⟩
      (plain opening ++ (plain separator).intercalate members ++ plain closing) := by
    simpa [Fragment.Fills] using htext
  have hpush := hb.push hloop
  rw [Builder.pushLoop, if_neg (by simpa using hne)]
  simpa [Builder.push] using hpush

end Builder

/-! ### Phrases and loops -/

/-- Paths resolve to the values that all of them lead to. -/
theorem resolveArgs_eq_ok_iff {lookup? : String → Option Value} {paths : List String}
    {values : List Value} :
    resolveArgs lookup? paths = .ok values ↔ paths.map lookup? = values.map some := by
  induction paths generalizing values with
  | nil => cases values <;> simp [resolveArgs]
  | cons path paths ih =>
      rw [resolveArgs, List.map_cons, eq_comm (b := values.map some), List.map_eq_cons_iff]
      cases lookup? path with
      | none => simp
      | some value =>
          dsimp only
          rw [Except.map_eq_ok_iff]
          constructor
          · rintro ⟨rest, hrest, rfl⟩
            exact ⟨value, rest, rfl, rfl, (ih.1 hrest).symm⟩
          · rintro ⟨_, rest, rfl, ⟨⟩, hrest⟩
            exact ⟨rest, ih.2 hrest.symm, rfl⟩

/-- An aligned phrase with the values of its paths. -/
theorem Phrase.Aligned.filled {p : Phrase} (hp : p.Aligned) {item? : Option (String × Value)}
    {values : List Value}
    (h : (p.args.map fun path => Slot.value? scope ⟨path, item?⟩) = values.map some) :
    Fragment.Fills scope ⟨p.text, values⟩ (p.glyphs item?) := by
  have hcount : p.text.toList.count '?' =
      (p.args.map fun path => (⟨path, item?⟩ : Slot)).length := by
    rw [List.length_map]
    exact hp
  obtain ⟨hslots, hstray⟩ := slots_weave hcount
  refine ⟨spelled_weave _ _, ?_, hstray⟩
  rw [Phrase.glyphs, hslots, List.map_map]
  exact h

theorem Phrase.fills_of_render {p : Phrase} {f : Fragment} (hp : p.Aligned)
    (h : p.render scope = .ok f) : f.Fills scope (p.glyphs none) := by
  obtain ⟨_, -, h⟩ := Except.bind_eq_ok_iff.1 h
  obtain ⟨values, hvalues, h⟩ := Except.bind_eq_ok_iff.1 h
  cases h
  exact hp.filled (resolveArgs_eq_ok_iff.1 hvalues)

/-- The members of a clause, in the order of the phrases. -/
theorem fills_of_renderClause {phrases : List Phrase} {c : Clause}
    (hphrases : ∀ p ∈ phrases, p.Aligned) (h : renderClause scope phrases = .ok c) :
    c.Fills scope (phraseParts phrases) := by
  refine Except.foldlM_ok (fun done c => c.Fills scope (phraseParts done)) .nil ?_ h
  intro done p c c' hp hc hstep
  obtain ⟨f, hf, hstep⟩ := Except.bind_eq_ok_iff.1 hstep
  cases hstep
  have hpush := hc.push (p.fills_of_render (hphrases p hp) hf)
  simpa [phraseParts] using hpush

theorem Loop.items_eq_ok {l : Loop} {items : List Value} (h : l.items scope = .ok items) :
    ((scope.lookup? l.collection).bind Value.asList?).getD [] = items ∧ items ≠ [] := by
  unfold Loop.items at h
  split at h
  · cases h
  · rename_i value hvalue
    split at h
    · cases h
    · cases h
    · rename_i hne hlist
      cases h
      refine ⟨by simp [hvalue, hlist], ?_⟩
      rintro rfl
      exact hne rfl

/-- The items of a loop: each has the body's paths looked up for itself. -/
theorem Loop.fills_of_render {l : Loop} {fs : List Fragment} (hbody : l.body.Aligned)
    (h : l.render scope = .ok fs) :
    ∃ items, l.items scope = .ok items ∧
      List.Forall₂ (Fragment.Fills scope) fs
        (items.map fun item => l.body.glyphs (some (l.item, item))) := by
  obtain ⟨_, -, h⟩ := Except.bind_eq_ok_iff.1 h
  obtain ⟨items, hitems, h⟩ := Except.bind_eq_ok_iff.1 h
  refine ⟨items, hitems, List.forall₂_map_right_iff.2 ?_⟩
  -- fragments are matched with items, and items with layouts
  refine (Except.forall₂_of_mapM h).flip.imp fun f item hf => ?_
  obtain ⟨values, hvalues, hf⟩ := Except.bind_eq_ok_iff.1 hf
  cases hf
  exact hbody.filled (resolveArgs_eq_ok_iff.1 hvalues)

/-! ### Nodes -/

/-- What is selected is among the phrases of the branch. -/
theorem Branch.mem_phrases_of_mem_select {b : Branch} {p : Phrase} (h : p ∈ b.select scope) :
    p ∈ b.phrases := by
  cases b with
  | single branch =>
      rw [select] at h
      split at h
      · exact h
      · cases h
  | chain branches =>
      obtain ⟨w, hw, rfl⟩ := List.mem_map.1 h
      exact List.mem_map_of_mem (List.mem_of_mem_filter hw)
  | choice c =>
      have hselect : c.select? scope = some p := by simpa [select] using h
      obtain ⟨hfirst, -⟩ := Option.filter_eq_some_iff.1 hselect
      rcases Option.or_eq_some_iff.1 hfirst with hfound | ⟨-, hotherwise⟩
      · obtain ⟨w, hw, rfl⟩ := Option.map_eq_some_iff.1 hfound
        exact List.mem_append_left _ (List.mem_map_of_mem (List.mem_of_find?_eq_some hw))
      · exact List.mem_append_right _ (by simp [hotherwise])

/-- Phrases pushed one by one. -/
theorem Builder.Fills.phrases {b b' : Builder} {parts : List (List Glyph)} {phrases : List Phrase}
    (hphrases : ∀ p ∈ phrases, p.Aligned) (hb : b.Fills scope parts)
    (h : phrases.foldlM (fun b p => do
      let fragment ← p.render scope
      return b.push fragment.text fragment.args) b = .ok b') :
    b'.Fills scope (parts ++ phraseParts phrases) := by
  refine Except.foldlM_ok (fun done b => b.Fills scope (parts ++ phraseParts done)) ?_ ?_ h
  · simpa [phraseParts] using hb
  · intro done p b b' hp hb hstep
    obtain ⟨f, hf, hstep⟩ := Except.bind_eq_ok_iff.1 hstep
    cases hstep
    have hpush := hb.push (p.fills_of_render (hphrases p hp) hf)
    simpa [phraseParts] using hpush

/-- **A node adds its parts, with their slots filled.** -/
theorem Node.fills_of_render {n : Node} {b b' : Builder} {parts : List (List Glyph)}
    (hn : n.Aligned) (hb : b.Fills scope parts) (h : n.render scope b = .ok b') :
    b'.Fills scope (parts ++ n.parts scope) := by
  obtain ⟨hphrases, hfixed⟩ := hn
  cases n with
  | empty =>
      cases h
      simpa [Node.parts] using hb
  | raw text =>
      obtain ⟨_, -, h⟩ := Except.bind_eq_ok_iff.1 h
      cases h
      have htext : Fragment.Fills scope ⟨text, []⟩ (plain text) :=
        Filled.plain (hfixed text List.mem_cons_self)
      exact hb.push htext
  | simple phrase =>
      obtain ⟨f, hf, h⟩ := Except.bind_eq_ok_iff.1 h
      cases h
      have hpush := hb.push (phrase.fills_of_render (hphrases phrase List.mem_cons_self) hf)
      simpa [Node.parts, phraseParts] using hpush
  | branch selection =>
      exact hb.phrases (fun p hp => hphrases p (Branch.mem_phrases_of_mem_select hp)) h
  | whereClause selection =>
      obtain ⟨c, hc, h⟩ := Except.bind_eq_ok_iff.1 h
      cases h
      exact hb.pushWhere
        (fills_of_renderClause (fun p hp => hphrases p (Branch.mem_phrases_of_mem_select hp)) hc)
  | setClause selection =>
      obtain ⟨c, hc, h⟩ := Except.bind_eq_ok_iff.1 h
      exact hb.pushSet?
        (fills_of_renderClause (fun p hp => hphrases p (Branch.mem_phrases_of_mem_select hp)) hc) h
  | loop l =>
      obtain ⟨fs, hfs, h⟩ := Except.bind_eq_ok_iff.1 h
      cases h
      obtain ⟨items, hitems, hfills⟩ := l.fills_of_render (hphrases l.body List.mem_cons_self) hfs
      obtain ⟨hlist, hne⟩ := Loop.items_eq_ok hitems
      have hfs : fs ≠ [] := by
        rintro rfl
        exact hne (List.map_eq_nil_iff.1 (List.forall₂_nil_left_iff.1 hfills))
      have hloop := hb.pushLoop (hfixed l.opening (by simp [fixedTexts]))
        (hfixed l.separator (by simp [fixedTexts])) (hfixed l.closing (by simp [fixedTexts])) hfs
        hfills
      simpa [Node.parts, Loop.glyphs, hlist] using hloop

/-! ### Statements -/

/-- A character of a finished statement, or a marker with its slot and the value bound to it. -/
inductive BoundGlyph where
  | char (c : Char)
  | marker (slot : Slot) (value : Value)

namespace BoundGlyph

/-- The character that is written. -/
def spell : BoundGlyph → Char
  | char c => c
  | marker _ _ => '?'

/-- The value that is bound. -/
def value? : BoundGlyph → Option Value
  | char _ => none
  | marker _ value => some value

/-- The glyph without its value. -/
def glyph : BoundGlyph → Glyph
  | char c => .char c
  | marker slot _ => .slot slot

end BoundGlyph

/-- A filled layout, glyph by glyph. -/
theorem Filled.exists_bound (h : Filled scope gs text args) :
    ∃ ts : List BoundGlyph, ts.map BoundGlyph.glyph = gs ∧ ts.map BoundGlyph.spell = text ∧
      ts.filterMap BoundGlyph.value? = args ∧
      ∀ slot value, .marker slot value ∈ ts → slot.value? scope = some value := by
  induction gs generalizing text args with
  | nil =>
      obtain rfl := h.text
      obtain rfl := List.map_eq_nil_iff.1 h.args.symm
      exact ⟨[], rfl, rfl, rfl, fun _ _ hmem => absurd hmem List.not_mem_nil⟩
  | cons g gs ih =>
      obtain ⟨htext, hargs, hstray⟩ := h
      rw [List.mem_cons, not_or] at hstray
      obtain rfl := htext
      cases g with
      | char c =>
          obtain ⟨ts, hglyphs, hspell, hvalues, hbound⟩ := ih ⟨rfl, hargs, hstray.2⟩
          refine ⟨.char c :: ts, congrArg _ hglyphs, congrArg _ hspell, hvalues, ?_⟩
          intro slot value hmem
          exact hbound slot value (by simpa using hmem)
      | slot s =>
          cases args with
          | nil => cases hargs
          | cons value values =>
              obtain ⟨hvalue, hargs⟩ := List.cons.inj hargs
              obtain ⟨ts, hglyphs, hspell, rfl, hbound⟩ := ih ⟨rfl, hargs, hstray.2⟩
              refine ⟨.marker s value :: ts, congrArg _ hglyphs, congrArg _ hspell, rfl, ?_⟩
              intro slot v hmem
              rcases List.mem_cons.1 hmem with heq | hmem
              · cases heq
                exact hvalue
              · exact hbound slot v hmem

/-- **Each marker of a statement has the value of its own placeholder.**  Where every phrase has a
path for each marker, and no marker stands in other text, a finished statement is a sequence of
characters and markers: its text is what they spell, its values are those of the markers in their
order, the markers stand where the layout has their slots, and each has what its slot resolves to.
Templates without a `?` of their own give such phrases. -/
theorem assemble_binds_own_placeholders :
    (∀ template item?, '?' ∉ template.toList → (Phrase.ofTemplate template).Aligned ∧
      (Phrase.ofTemplate template).glyphs item? = Placeholder.glyphs item? template.toList) ∧
    ∀ nodes scope built, (∀ n ∈ nodes, n.Aligned) → assemble nodes scope = .ok built →
      ∃ ts : List BoundGlyph, ts.map BoundGlyph.glyph = layout nodes scope ∧
        ts.map BoundGlyph.spell = built.sql.toList ∧
        ts.filterMap BoundGlyph.value? = built.args ∧
        (∀ slot value, .marker slot value ∈ ts → slot.value? scope = some value) ∧
        BoundGlyph.char '?' ∉ ts := by
  refine ⟨fun template item? h =>
    ⟨Phrase.aligned_ofTemplate h, Phrase.glyphs_ofTemplate h item?⟩, ?_⟩
  intro nodes scope built hnodes h
  obtain ⟨b, hb, rfl⟩ := Except.map_eq_ok_iff.1 h
  -- the nodes rendered so far have filled their parts
  have hfills : b.Fills scope (nodes.flatMap (Node.parts scope)) := by
    refine Except.foldlM_ok (fun done b => b.Fills scope (done.flatMap (Node.parts scope)))
      (Builder.fills_empty scope) ?_ hb
    intro done n b b' hn hb hstep
    have hnode := Node.fills_of_render (hnodes n hn) hb hstep
    simpa using hnode
  obtain ⟨fs, rfl, hfs⟩ := hfills
  have hblank : '?' ∉ " ".toList := by decide
  have hfilled := Fragment.filled_intercalate hblank hfs
  obtain ⟨ts, hglyphs, hspell, hvalues, hbound⟩ := hfilled.exists_bound
  refine ⟨ts, hglyphs, hspell, hvalues, hbound, fun hmem => hfilled.stray ?_⟩
  rw [← hglyphs]
  exact List.mem_map_of_mem hmem

/-- A statement with an assignment and a member that are left out, commas and blanks at the ends of
fragments, and a loop whose body has paths into the item and around it. -/
def memberUpdate : List Node := [
  .setClause (.chain [
    ⟨.present "name", .ofTemplate "name = #\x7bname\x7d,"⟩,
    ⟨.present "age", .ofTemplate "age = #\x7b age \x7d , "⟩]),
  .whereClause (.chain [
    ⟨.const true, .ofTemplate " or org = #\x7borg.id\x7d "⟩,
    ⟨.const true, .ofTemplate "  "⟩]),
  .loop ⟨"pairs", "p", ", ", "AND (age, org) IN (", ")",
    .ofTemplate "(#\x7bp.age\x7d, #\x7borg.id\x7d)"⟩]

/-- Values for it, without a name. -/
def memberScope : Scope := ⟨[
  ("age", .int 7),
  ("org", .map [("id", .text "o")]),
  ("pairs", .list [.map [("age", .int 1)], .map [("age", .int 2)]])]⟩

theorem memberUpdate_binds_own_placeholders :
    (Phrase.ofTemplate "age = #\x7b age \x7d , ").glyphs none =
      Placeholder.glyphs none "age = #\x7b age \x7d , ".toList ∧
    (∀ n ∈ memberUpdate, n.Aligned) ∧
    ∃ (built : BoundSql) (ts : List BoundGlyph), assemble memberUpdate memberScope = .ok built ∧
      built.sql = "SET age = ? WHERE 1=1 or org = ? AND (age, org) IN ((?, ?), (?, ?))" ∧
      built.args.map Value.render = ["7", "o", "1", "o", "2", "o"] ∧
      ts.map BoundGlyph.glyph = layout memberUpdate memberScope ∧
      ts.map BoundGlyph.spell = built.sql.toList ∧
      ts.filterMap BoundGlyph.value? = built.args ∧
      (∀ slot value, .marker slot value ∈ ts → slot.value? memberScope = some value) ∧
      BoundGlyph.char '?' ∉ ts := by
  have haligned : ∀ n ∈ memberUpdate, n.Aligned := by decide +kernel
  have hbuilt : (assemble memberUpdate memberScope).map
      (fun built => (built.sql, built.args.map Value.render)) =
      .ok ("SET age = ? WHERE 1=1 or org = ? AND (age, org) IN ((?, ?), (?, ?))",
        ["7", "o", "1", "o", "2", "o"]) := by decide +kernel
  obtain ⟨built, h, hvalue⟩ := Except.map_eq_ok_iff.1 hbuilt
  obtain ⟨hsql, hargs⟩ := Prod.mk.inj hvalue
  obtain ⟨htemplate, hbinds⟩ := assemble_binds_own_placeholders
  obtain ⟨ts, hts⟩ := hbinds memberUpdate memberScope built haligned h
  exact ⟨(htemplate _ none (by decide)).2, haligned, built, ts, h, hsql, hargs, hts⟩

end SqlAccess
