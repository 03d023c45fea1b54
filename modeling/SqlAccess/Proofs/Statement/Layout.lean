/-
**The layout of a statement.**

The text of a statement is put together here once more, without values: each marker is a glyph of
its own that says which placeholder it comes from.  As a slot is one glyph among others, nothing
that is done to the text can give it another origin.

Main definitions:

* `SqlAccess.Slot`, `SqlAccess.Slot.value?` — a placeholder, and what it resolves to;
* `SqlAccess.Glyph` — a character or a slot;
* `SqlAccess.Phrase.glyphs`, `SqlAccess.Placeholder.glyphs` — a phrase and a template with their
  slots in place;
* `SqlAccess.Node.parts`, `SqlAccess.layout` — **the glyphs of a statement**;
* `SqlAccess.Phrase.Aligned`, `SqlAccess.Node.Aligned` — a path for each marker, and no marker
  elsewhere.

Main results:

* `SqlAccess.Layout.spelled_weave`, `SqlAccess.Layout.slots_weave` — where there is a path for
  each marker, each is put in its place;
* `SqlAccess.Placeholder.next?_induction` — induction along the placeholders of a text;
* `SqlAccess.Phrase.aligned_ofTemplate`, `SqlAccess.Phrase.glyphs_ofTemplate` — a template without
  a `?` of its own gives such a phrase, and each slot is the placeholder that stood there.
-/

import Mathlib.Data.List.DropRight
import SqlAccess.Statement.Build
import SqlAccess.Proofs.Text.Cut

set_option autoImplicit false

namespace SqlAccess

/-! ### Slots and glyphs -/

/-- A placeholder: its path, and in a loop's body the name of the item and the item at hand. -/
structure Slot where
  path : String
  item? : Option (String × Value)

/-- What a placeholder resolves to: the item or what is in it, or else what the scope holds. -/
def Slot.value? (scope : Scope) (s : Slot) : Option Value :=
  match s.item? with
  | none => scope.lookup? s.path
  | some (name, item) => (Loop.itemPath? name item s.path).or (scope.lookup? s.path)

/-- A character of the text, or the marker of a slot. -/
inductive Glyph where
  | char (c : Char)
  | slot (s : Slot)

namespace Glyph

/-- The character that is written for a glyph. -/
def spell : Glyph → Char
  | char c => c
  | slot _ => '?'

/-- The slot of a marker. -/
def slot? : Glyph → Option Slot
  | char _ => none
  | slot s => some s

/-- Whether the glyph is a blank. -/
def isBlank (g : Glyph) : Bool := Text.isBlank g.spell

end Glyph

namespace Layout

/-- The characters of a layout. -/
def spelled (gs : List Glyph) : List Char := gs.map Glyph.spell

/-- The slots of a layout, in order. -/
def slots (gs : List Glyph) : List Slot := gs.filterMap Glyph.slot?

/-- A text without slots. -/
def plain (text : String) : List Glyph := text.toList.map Glyph.char

/-- A text with slots in the places of its markers, from left to right. -/
def weave : List Char → List Slot → List Glyph
  | [], _ => []
  | c :: cs, [] => .char c :: weave cs []
  | c :: cs, s :: ss => if c = '?' then .slot s :: weave cs ss else .char c :: weave cs (s :: ss)

end Layout

open Layout

/-- A phrase with its slots, outside a loop or for an item of one. -/
def Phrase.glyphs (p : Phrase) (item? : Option (String × Value)) : List Glyph :=
  weave p.text.toList (p.args.map fun path => ⟨path, item?⟩)

/-- A template with a slot in the place of each placeholder. -/
def Placeholder.glyphs (item? : Option (String × Value)) (cs : List Char) : List Glyph :=
  match _h : next? cs with
  | none => cs.map .char
  | some (before, expr, rest) =>
    before.map .char ++ .slot ⟨String.ofList (Text.trim expr), item?⟩ :: glyphs item? rest
  termination_by cs.length
  decreasing_by exact length_rest_lt_of_next? _h

/-! ### The layout of a statement -/

namespace Layout

/-- A layout without the blanks at both ends. -/
def trimGlyphs (gs : List Glyph) : List Glyph :=
  (gs.dropWhile Glyph.isBlank).rdropWhile Glyph.isBlank

/-- A layout as a part of a statement; a blank one is dropped. -/
def part (gs : List Glyph) : List (List Glyph) :=
  if gs.all Glyph.isBlank then [] else [trimGlyphs gs]

/-- A member of a `WHERE` clause with what joins it to the text before. -/
def joinedGlyphs (gs : List Glyph) : List Glyph :=
  if Clause.opensWithConnective (spelled gs) then plain " " ++ gs else plain " AND " ++ gs

/-- An assignment without the commas at its end. -/
def assignmentGlyphs (gs : List Glyph) : List Glyph :=
  (gs.rdropWhile fun g => g.spell == ',').rdropWhile Glyph.isBlank

/-- The parts of several phrases. -/
def phraseParts (phrases : List Phrase) : List (List Glyph) :=
  phrases.flatMap fun p => part (p.glyphs none)

/-- A `WHERE` clause of these members. -/
def whereParts (members : List (List Glyph)) : List (List Glyph) :=
  if members.isEmpty then [] else [plain "WHERE 1=1" ++ (members.map joinedGlyphs).flatten]

/-- A `SET` clause of these members. -/
def setParts (members : List (List Glyph)) : List (List Glyph) :=
  [plain "SET " ++ (plain ", ").intercalate (members.map assignmentGlyphs)]

end Layout

/-- The body of a loop for each item, between its opening and its closing text. -/
def Loop.glyphs (l : Loop) (items : List Value) : List Glyph :=
  plain l.opening ++
    (plain l.separator).intercalate (items.map fun item => l.body.glyphs (some (l.item, item))) ++
    plain l.closing

/-- The parts of a node. -/
def Node.parts (scope : Scope) : Node → List (List Glyph)
  | empty => []
  | raw text => part (plain text)
  | simple phrase => phraseParts [phrase]
  | branch selection => phraseParts (selection.select scope)
  | whereClause selection => whereParts (phraseParts (selection.select scope))
  | setClause selection => setParts (phraseParts (selection.select scope))
  | loop l =>
    part (l.glyphs (((scope.lookup? l.collection).bind Value.asList?).getD []))

/-- The glyphs of a statement. -/
def layout (nodes : List Node) (scope : Scope) : List Glyph :=
  (plain " ").intercalate (nodes.flatMap (Node.parts scope))

/-! ### Alignment -/

/-- There are as many paths as markers. -/
def Phrase.Aligned (p : Phrase) : Prop := p.text.toList.count '?' = p.args.length

instance (p : Phrase) : Decidable p.Aligned :=
  inferInstanceAs (Decidable (p.text.toList.count '?' = p.args.length))

/-- All phrases of a branch, selected or not. -/
def Branch.phrases : Branch → List Phrase
  | single branch => [branch.phrase]
  | chain branches => branches.map Guarded.phrase
  | choice c => c.whens.map Guarded.phrase ++ c.otherwise.toList

/-- All phrases of a node. -/
def Node.phrases : Node → List Phrase
  | empty | raw _ => []
  | simple phrase => [phrase]
  | branch selection | whereClause selection | setClause selection => selection.phrases
  | loop l => [l.body]

/-- The texts of a node that are emitted as they stand. -/
def Node.fixedTexts : Node → List String
  | raw text => [text]
  | loop l => [l.opening, l.separator, l.closing]
  | _ => []

/-- All phrases are aligned, and no marker stands outside of them. -/
def Node.Aligned (n : Node) : Prop :=
  (∀ p ∈ n.phrases, p.Aligned) ∧ ∀ text ∈ n.fixedTexts, '?' ∉ text.toList

instance (n : Node) : Decidable n.Aligned :=
  inferInstanceAs (Decidable ((∀ p ∈ n.phrases, p.Aligned) ∧ _))

/-! ### Slots in their places -/

variable {cs before : List Char} {ss : List Slot}

namespace Layout

@[simp] theorem spelled_append (gs hs : List Glyph) :
    spelled (gs ++ hs) = spelled gs ++ spelled hs := List.map_append

@[simp] theorem slots_append (gs hs : List Glyph) : slots (gs ++ hs) = slots gs ++ slots hs :=
  List.filterMap_append

theorem weave_nil (cs : List Char) : weave cs [] = cs.map .char := by
  induction cs with
  | nil => rfl
  | cons c cs ih => rw [weave, ih, List.map_cons]

@[simp] theorem weave_marker (cs : List Char) (s : Slot) (ss : List Slot) :
    weave ('?' :: cs) (s :: ss) = .slot s :: weave cs ss := if_pos rfl

theorem weave_of_ne {c : Char} (h : c ≠ '?') (cs : List Char) (ss : List Slot) :
    weave (c :: cs) ss = .char c :: weave cs ss := by
  cases ss with
  | nil => rfl
  | cons s ss => exact if_neg h

theorem weave_append_marker (h : '?' ∉ before) (cs : List Char) (s : Slot) (ss : List Slot) :
    weave (before ++ '?' :: cs) (s :: ss) = before.map .char ++ .slot s :: weave cs ss := by
  induction before with
  | nil => exact weave_marker cs s ss
  | cons c before ih =>
      rw [List.mem_cons, not_or] at h
      rw [List.cons_append, weave_of_ne (Ne.symm h.1), ih h.2]
      rfl

/-- Slots are written as the markers in whose places they are put. -/
theorem spelled_weave (cs : List Char) (ss : List Slot) : spelled (weave cs ss) = cs := by
  induction cs generalizing ss with
  | nil => rfl
  | cons c cs ih =>
      by_cases hc : c = '?'
      · subst hc
        cases ss with
        | nil => exact congrArg ('?' :: ·) (ih [])
        | cons s ss => exact congrArg ('?' :: ·) (ih ss)
      · rw [weave_of_ne hc]
        exact congrArg (c :: ·) (ih ss)

/-- With a slot for each marker, all slots are put in their places and no marker is left over. -/
theorem slots_weave (h : cs.count '?' = ss.length) :
    slots (weave cs ss) = ss ∧ Glyph.char '?' ∉ weave cs ss := by
  induction cs generalizing ss with
  | nil =>
      obtain rfl := List.eq_nil_of_length_eq_zero h.symm
      exact ⟨rfl, List.not_mem_nil⟩
  | cons c cs ih =>
      by_cases hc : c = '?'
      · subst hc
        rw [List.count_cons_self] at h
        obtain ⟨s, ss, rfl⟩ := List.exists_cons_of_length_eq_add_one h.symm
        obtain ⟨hslots, hstray⟩ := ih (Nat.succ.inj h)
        rw [weave_marker]
        exact ⟨congrArg (s :: ·) hslots, by simpa using hstray⟩
      · rw [List.count_cons_of_ne hc] at h
        obtain ⟨hslots, hstray⟩ := ih h
        rw [weave_of_ne hc]
        exact ⟨hslots, by simpa [Ne.symm hc] using hstray⟩

end Layout

/-! ### Templates -/

namespace Placeholder

variable {expr rest : List Char}

/-- One placeholder more at a time: what holds of a text without placeholders, and of a text with
one if it holds of the text behind it, holds of all texts. -/
theorem next?_induction {holds : List Char → Prop} (hnone : ∀ cs, next? cs = none → holds cs)
    (hsome : ∀ cs before expr rest, next? cs = some (before, expr, rest) → holds rest → holds cs)
    (cs : List Char) : holds cs := by
  induction hn : cs.length using Nat.strong_induction_on generalizing cs with
  | _ n ih =>
      subst hn
      cases hnext : next? cs with
      | none => exact hnone cs hnext
      | some p => exact hsome cs p.1 p.2.1 p.2.2 hnext (ih _ (length_rest_lt_of_next? hnext) _ rfl)

theorem extractChars_of_none (h : next? cs = none) : extractChars cs = (cs, []) := by
  rw [extractChars]
  split <;> simp_all

theorem extractChars_of_some (h : next? cs = some (before, expr, rest)) :
    extractChars cs =
      (before ++ '?' :: (extractChars rest).1, Text.trim expr :: (extractChars rest).2) := by
  rw [extractChars]
  split <;> simp_all

/-- A template without a `?` of its own has a marker for each placeholder. -/
theorem count_extractChars (h : '?' ∉ cs) :
    (extractChars cs).1.count '?' = (extractChars cs).2.length := by
  induction cs using next?_induction with
  | hnone cs hnext =>
      rw [extractChars_of_none hnext]
      exact List.count_eq_zero.2 h
  | hsome cs before expr rest hnext ih =>
      rw [eq_of_next? hnext] at h
      simp only [List.mem_append, List.mem_cons, not_or] at h
      rw [extractChars_of_some hnext]
      simp [List.count_eq_zero.2 h.1.1.1, ih h.2.2]

variable {item? : Option (String × Value)}

theorem glyphs_of_none (h : next? cs = none) : glyphs item? cs = cs.map .char := by
  rw [glyphs]
  split
  · rfl
  · rename_i hnext
    rw [h] at hnext
    cases hnext

theorem glyphs_of_some (h : next? cs = some (before, expr, rest)) :
    glyphs item? cs =
      before.map .char ++ .slot ⟨String.ofList (Text.trim expr), item?⟩ :: glyphs item? rest := by
  rw [glyphs]
  split
  · rename_i hnext
    rw [h] at hnext
    cases hnext
  · rename_i hnext
    rw [h] at hnext
    cases hnext
    rfl

theorem weave_extractChars (h : '?' ∉ cs) (item? : Option (String × Value)) :
    weave (extractChars cs).1
      ((extractChars cs).2.map fun expr => ⟨String.ofList expr, item?⟩) = glyphs item? cs := by
  induction cs using next?_induction with
  | hnone cs hnext =>
      rw [extractChars_of_none hnext, glyphs_of_none hnext]
      exact weave_nil cs
  | hsome cs before expr rest hnext ih =>
      rw [eq_of_next? hnext] at h
      simp only [List.mem_append, List.mem_cons, not_or] at h
      rw [extractChars_of_some hnext, glyphs_of_some hnext]
      dsimp only
      rw [List.map_cons, weave_append_marker h.1.1.1, ih h.2.2]

end Placeholder

namespace Phrase

variable {template : String}

theorem aligned_ofTemplate (h : '?' ∉ template.toList) : (ofTemplate template).Aligned := by
  have hcount := Placeholder.count_extractChars h
  simpa [Aligned, ofTemplate, Placeholder.extract] using hcount

/-- Each slot stands where its placeholder stood in the template. -/
theorem glyphs_ofTemplate (h : '?' ∉ template.toList) (item? : Option (String × Value)) :
    (ofTemplate template).glyphs item? = Placeholder.glyphs item? template.toList := by
  have hweave := Placeholder.weave_extractChars h item?
  simpa [glyphs, ofTemplate, Placeholder.extract, Function.comp_def] using hweave

end Phrase

end SqlAccess
