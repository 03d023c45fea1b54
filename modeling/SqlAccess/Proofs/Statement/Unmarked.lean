/-
**No placeholder is left in a statement.**

The text of a node is refused if it holds the mark that opens a placeholder, and what is written
between the texts of nodes cannot complete one: it holds neither of the two characters of the mark.
What is written around and between the bodies of a loop is not looked at.  So a mark in a finished
statement comes from a loop whose texts, put together, hold one.

Main definitions:

* `SqlAccess.Placeholder.Marked` — a text in which a placeholder is opened;
* `SqlAccess.Loop.outline` — the text of a loop over so many items.

Main results:

* `SqlAccess.Placeholder.marked_append_iff`, `SqlAccess.Placeholder.marked_trim_iff`,
  `SqlAccess.Placeholder.marked_intercalate_iff` — what is done to texts makes and hides no mark;
* `SqlAccess.Node.marked_render_iff` — what one node adds;
* `SqlAccess.assemble_marked_iff` — **a finished statement holds a mark just if a loop of it does**;
* `SqlAccess.loop_text_unchecked` — such a loop.
-/

import SqlAccess.Proofs.Statement.ItemScope
import SqlAccess.Proofs.Text.Trim

set_option autoImplicit false

namespace SqlAccess

/-! ### Marks -/

namespace Placeholder

variable {c : Char} {cs ds : List Char} {parts : List (List Char)}

/-- A placeholder is opened in the text. -/
def Marked (cs : List Char) : Prop := mark <:+: cs

theorem occurs_iff {text : String} : occurs text = true ↔ Marked text.toList := Text.occursIn_iff

theorem not_marked_nil : ¬ Marked [] := by simp [Marked, mark]

theorem marked_cons_iff : Marked (c :: cs) ↔ c = '#' ∧ cs.head? = some '{' ∨ Marked cs := by
  have hprefix : mark <+: c :: cs ↔ c = '#' ∧ cs.head? = some '{' := by
    rw [mark, List.cons_prefix_cons, eq_comm]
    cases cs with
    | nil => simp
    | cons d cs => simp [List.cons_prefix_cons, eq_comm]
  rw [Marked, List.infix_cons_iff, hprefix, Marked]

/-- A text without a hash in front neither has a mark nor begins one. -/
theorem marked_append_left (h : '#' ∉ cs) (ds : List Char) :
    Marked (cs ++ ds) ↔ Marked ds := by
  induction cs with
  | nil => rfl
  | cons c cs ih =>
      rw [List.mem_cons, not_or] at h
      rw [List.cons_append, marked_cons_iff, ih h.2]
      exact or_iff_right fun hc => h.1 hc.1.symm

theorem not_marked_of_not_mem (h : '#' ∉ cs) : ¬ Marked cs := by
  have hcs := marked_append_left h []
  rw [List.append_nil] at hcs
  exact fun hm => not_marked_nil (hcs.1 hm)

/-- No mark straddles the place before a text that does not begin with a brace. -/
theorem marked_append_iff (h : ds.head? ≠ some '{') (cs : List Char) :
    Marked (cs ++ ds) ↔ Marked cs ∨ Marked ds := by
  induction cs with
  | nil => exact (or_iff_right not_marked_nil).symm
  | cons c cs ih =>
      have hhead : (cs ++ ds).head? = some '{' ↔ cs.head? = some '{' := by
        cases cs with
        | nil => exact iff_of_false h nofun
        | cons d cs => rfl
      rw [List.cons_append, marked_cons_iff, marked_cons_iff, hhead, ih, or_assoc]

/-- Blanks outside neither have marks nor take part in one. -/
theorem marked_trim_iff (cs : List Char) : Marked (Text.trim cs) ↔ Marked cs := by
  obtain ⟨b₁, b₂, h₁, h₂, he⟩ := Text.exists_blanks_trim cs
  have hblank {b : List Char} (hb : Text.allBlank b = true) : '#' ∉ b ∧ b.head? ≠ some '{' := by
    refine ⟨fun hmem => absurd (Text.allBlank_iff.1 hb _ hmem) (by decide), fun hhead => ?_⟩
    exact absurd (Text.allBlank_iff.1 hb _ (List.mem_of_mem_head? hhead)) (by decide)
  symm
  calc Marked cs ↔ Marked (b₁ ++ (Text.trim cs ++ b₂)) := by rw [← he]
    _ ↔ Marked (Text.trim cs) ∨ Marked b₂ := by
      rw [marked_append_left (hblank h₁).1, marked_append_iff (hblank h₂).2]
    _ ↔ Marked (Text.trim cs) := or_iff_left (not_marked_of_not_mem (hblank h₂).1)

/-- What separates texts and has neither character of the mark does not matter. -/
theorem marked_intercalate_iff {sep : List Char} (hne : sep ≠ []) (hhash : '#' ∉ sep)
    (hbrace : sep.head? ≠ some '{') :
    Marked (sep.intercalate parts) ↔ ∃ part ∈ parts, Marked part := by
  induction parts with
  | nil => simp [not_marked_nil]
  | cons part parts ih =>
      cases parts with
      | nil => simp
      | cons next parts =>
          have hhead : (sep ++ sep.intercalate (next :: parts)).head? ≠ some '{' := by
            rwa [List.head?_append_of_ne_nil sep hne]
          rw [List.intercalate_cons_cons, List.append_assoc, marked_append_iff hhead,
            marked_append_left hhash, ih]
          simp only [List.mem_cons, exists_eq_or_imp]

/-- Texts that follow one another, none of which begins with a brace. -/
theorem marked_flatten_iff (h : ∀ part ∈ parts, part ≠ [] ∧ part.head? ≠ some '{') :
    Marked parts.flatten ↔ ∃ part ∈ parts, Marked part := by
  induction parts with
  | nil => simp [not_marked_nil]
  | cons part parts ih =>
      rw [List.forall_mem_cons] at h
      have hhead : parts.flatten.head? ≠ some '{' := by
        cases parts with
        | nil => exact nofun
        | cons next parts =>
            obtain ⟨hne, hbrace⟩ := h.2 next List.mem_cons_self
            rwa [List.flatten_cons, List.head?_append_of_ne_nil next hne]
      rw [List.flatten_cons, marked_append_iff hhead, ih h.2]
      simp only [List.mem_cons, exists_eq_or_imp]

end Placeholder

open Placeholder

variable {scope : Scope}

/-! ### Phrases and clauses -/

theorem not_marked_of_check {text : String} (h : checkUnmarked text = .ok ()) :
    ¬ Marked text.toList := by
  rw [← occurs_iff]
  intro hocc
  rw [checkUnmarked, if_pos hocc] at h
  cases h

/-- A phrase that is rendered keeps its text, which has no mark. -/
theorem Phrase.not_marked_of_render {p : Phrase} {f : Fragment} (h : p.render scope = .ok f) :
    ¬ Marked f.text.toList := by
  obtain ⟨_, hcheck, h⟩ := Except.bind_eq_ok_iff.1 h
  obtain ⟨args, -, h⟩ := Except.bind_eq_ok_iff.1 h
  cases h
  exact not_marked_of_check hcheck

namespace Clause

variable {c : Clause} {f : Fragment}

/-- No member has a mark. -/
def Unmarked (c : Clause) : Prop := ∀ f ∈ c.fragments, ¬ Marked f.text.toList

theorem Unmarked.push (hc : c.Unmarked) (hf : ¬ Marked f.text.toList) :
    (c.push f.text f.args).Unmarked := by
  rw [Clause.push]
  split
  · exact hc
  · intro g hg
    rcases List.mem_append.1 hg with hg | hg
    · exact hc g hg
    · obtain rfl := List.mem_singleton.1 hg
      rwa [Text.trimmed, String.toList_ofList, marked_trim_iff]

theorem unmarked_of_renderClause {phrases : List Phrase} (h : renderClause scope phrases = .ok c) :
    c.Unmarked := by
  refine Except.foldlM_ok (fun _ c => c.Unmarked) (fun _ hf => nomatch hf) ?_ h
  intro done p c c' _ hc hstep
  obtain ⟨f, hf, hstep⟩ := Except.bind_eq_ok_iff.1 hstep
  cases hstep
  exact hc.push (p.not_marked_of_render hf)

/-- What joins a member begins with a blank and has no mark. -/
theorem joined_eq (f : Fragment) :
    ∃ before, (joined f).toList = ' ' :: before ++ f.text.toList ∧ '#' ∉ ' ' :: before := by
  rw [joined]
  split
  · exact ⟨[], by simp, by decide⟩
  · exact ⟨"AND ".toList, by simp, by decide⟩

theorem not_marked_whereText (hc : c.Unmarked) : ¬ Marked c.whereText.toList := by
  have hopening : '#' ∉ "WHERE 1=1".toList := by decide
  have htext : c.whereText.toList =
      "WHERE 1=1".toList ++ (c.fragments.map fun f => (joined f).toList).flatten := by
    simp [whereText, List.flatMap_def, Function.comp_def]
  rw [htext, marked_append_left hopening, marked_flatten_iff]
  · rintro ⟨part, hpart, hmark⟩
    obtain ⟨f, hf, rfl⟩ := List.mem_map.1 hpart
    obtain ⟨before, heq, hbefore⟩ := joined_eq f
    rw [heq, marked_append_left hbefore] at hmark
    exact hc f hf hmark
  · intro part hpart
    obtain ⟨f, -, rfl⟩ := List.mem_map.1 hpart
    obtain ⟨before, heq, -⟩ := joined_eq f
    rw [heq]
    exact ⟨by simp, by simp⟩

theorem not_marked_setText (hc : c.Unmarked) : ¬ Marked c.setText.toList := by
  have hopening : '#' ∉ "SET ".toList := by decide
  rw [setText, String.toList_append, marked_append_left hopening, String.toList_intercalate,
    marked_intercalate_iff (by decide) (by decide) (by decide)]
  rintro ⟨part, hpart, hmark⟩
  obtain ⟨text, htext, rfl⟩ := List.mem_map.1 hpart
  obtain ⟨f, hf, rfl⟩ := List.mem_map.1 htext
  -- an assignment is the beginning of its member
  have hprefix : (assignment f).toList <+: f.text.toList := by
    rw [assignment, String.toList_ofList]
    exact (List.rdropWhile_prefix _ _).trans (List.rdropWhile_prefix _ _)
  exact hc f hf (hmark.trans hprefix.isInfix)

end Clause

/-! ### Builders -/

namespace Builder

variable {b b' : Builder} {c : Clause}

/-- One of the parts has a mark. -/
def Marked (b : Builder) : Prop := ∃ part ∈ b.parts, Placeholder.Marked part.toList

theorem marked_concat_iff {part : String} {args : List Value} :
    Builder.Marked ⟨b.parts ++ [part], args⟩ ↔ b.Marked ∨ Placeholder.Marked part.toList := by
  simp only [Marked, List.mem_append, List.mem_singleton, or_and_right, exists_or,
    exists_eq_left]

theorem marked_push_iff (b : Builder) (text : String) (args : List Value) :
    (b.push text args).Marked ↔ b.Marked ∨ Placeholder.Marked text.toList := by
  rw [push]
  split
  · rename_i hblank
    have htext : Text.trim text.toList = [] := Text.trim_eq_nil_iff.2 hblank
    rw [← marked_trim_iff, htext, or_iff_left not_marked_nil]
    rfl
  · rw [marked_concat_iff, Text.trimmed, String.toList_ofList, marked_trim_iff]

theorem marked_pushWhere_iff (hc : c.Unmarked) : (b.pushWhere c).Marked ↔ b.Marked := by
  rw [pushWhere]
  split
  · rfl
  · rw [marked_concat_iff, or_iff_left (c.not_marked_whereText hc)]

theorem marked_of_pushSet? (hc : c.Unmarked) (h : b.pushSet? c = .ok b') :
    b'.Marked ↔ b.Marked := by
  rw [pushSet?] at h
  split at h
  · cases h
  · obtain rfl := Except.ok.inj h
    rw [marked_concat_iff, or_iff_left (c.not_marked_setText hc)]

theorem marked_phrases_iff {phrases : List Phrase} (h : phrases.foldlM (fun b p => do
    let fragment ← p.render scope
    return b.push fragment.text fragment.args) b = .ok b') : b'.Marked ↔ b.Marked := by
  refine Except.foldlM_ok (fun _ b' => b'.Marked ↔ b.Marked) .rfl ?_ h
  intro done p b₁ b₂ _ hb hstep
  obtain ⟨f, hf, hstep⟩ := Except.bind_eq_ok_iff.1 hstep
  cases hstep
  rw [marked_push_iff, or_iff_left (p.not_marked_of_render hf), hb]

end Builder

/-! ### Loops and nodes -/

namespace Loop

variable {l : Loop} {bodies : List Fragment}

/-- The text of a loop over so many items. -/
def outline (l : Loop) (count : Nat) : String :=
  l.opening ++ l.separator.intercalate (List.replicate count l.body.text) ++ l.closing

/-- All bodies have the text of the body. -/
theorem texts_of_bodies {items : List Value}
    (h : List.Forall₂ (fun item f => l.itemBody scope item = .ok f) items bodies) :
    bodies.map Fragment.text = List.replicate items.length l.body.text := by
  induction h with
  | nil => rfl
  | cons hbody _ ih =>
      obtain ⟨args, -, hbody⟩ := Except.bind_eq_ok_iff.1 hbody
      cases hbody
      rw [List.map_cons, ih, List.length_cons, List.replicate_succ]

/-- What a loop adds is its outline for the items it has. -/
theorem outline_of_render (h : l.render scope = .ok bodies) :
    ∃ items, l.items scope = .ok items ∧ (l.joined bodies).text = l.outline items.length := by
  obtain ⟨_, -, h⟩ := Except.bind_eq_ok_iff.1 h
  obtain ⟨items, hitems, h⟩ := Except.bind_eq_ok_iff.1 h
  have htexts := texts_of_bodies (Except.forall₂_of_mapM h)
  exact ⟨items, hitems, by rw [joined, outline, htexts]⟩

/-- The loop runs over so many items that its outline has a mark. -/
def Marks (scope : Scope) (l : Loop) : Prop :=
  ∃ items, l.items scope = .ok items ∧ Placeholder.occurs (l.outline items.length) = true

end Loop

/-- **What a node adds has a mark only if the node is a loop whose outline has one.** -/
theorem Node.marked_render_iff {n : Node} {b b' : Builder} (h : n.render scope b = .ok b') :
    b'.Marked ↔ b.Marked ∨ ∃ l, n = .loop l ∧ l.Marks scope := by
  -- all nodes but loops leave the marks as they are
  have hother (hn : ∀ l, n ≠ .loop l) (hb : b'.Marked ↔ b.Marked) :
      b'.Marked ↔ b.Marked ∨ ∃ l, n = .loop l ∧ l.Marks scope := by
    rw [hb, or_iff_left]
    rintro ⟨l, hl, -⟩
    exact hn l hl
  cases n with
  | empty =>
      cases h
      exact hother nofun .rfl
  | raw text =>
      obtain ⟨_, hcheck, h⟩ := Except.bind_eq_ok_iff.1 h
      cases h
      exact hother nofun (by rw [Builder.marked_push_iff, or_iff_left (not_marked_of_check hcheck)])
  | simple phrase =>
      obtain ⟨f, hf, h⟩ := Except.bind_eq_ok_iff.1 h
      cases h
      exact hother nofun
        (by rw [Builder.marked_push_iff, or_iff_left (phrase.not_marked_of_render hf)])
  | branch selection => exact hother nofun (Builder.marked_phrases_iff h)
  | whereClause selection =>
      obtain ⟨c, hc, h⟩ := Except.bind_eq_ok_iff.1 h
      cases h
      exact hother nofun (Builder.marked_pushWhere_iff (Clause.unmarked_of_renderClause hc))
  | setClause selection =>
      obtain ⟨c, hc, h⟩ := Except.bind_eq_ok_iff.1 h
      exact hother nofun (Builder.marked_of_pushSet? (Clause.unmarked_of_renderClause hc) h)
  | loop l =>
      rw [l.render_node] at h
      obtain ⟨f, hf, h⟩ := Except.map_eq_ok_iff.1 h
      obtain ⟨bodies, hbodies, rfl⟩ := Except.map_eq_ok_iff.1 hf
      obtain ⟨items, hitems, htext⟩ := l.outline_of_render hbodies
      subst h
      rw [Builder.marked_push_iff, htext, ← occurs_iff]
      refine or_congr_right ⟨fun hmark => ⟨l, rfl, items, hitems, hmark⟩, ?_⟩
      rintro ⟨l', hl, items', hitems', hmark⟩
      cases hl
      rw [hitems] at hitems'
      cases hitems'
      exact hmark

/-! ### Statements -/

/-- **A finished statement holds the mark of a placeholder exactly if some loop of it does**: if the
opening text of a loop, its bodies with their separators and its closing text, put together for the
items it runs over, hold one.  A statement without such a loop has none, and all other text that
has one is refused. -/
theorem assemble_marked_iff (nodes : List Node) (scope : Scope) (built : BoundSql)
    (h : assemble nodes scope = .ok built) :
    Placeholder.occurs built.sql = true ↔ ∃ l, .loop l ∈ nodes ∧ l.Marks scope := by
  obtain ⟨b, hb, rfl⟩ := Except.map_eq_ok_iff.1 h
  have hmarks : b.Marked ↔ ∃ l, .loop l ∈ nodes ∧ l.Marks scope := by
    refine Except.foldlM_ok (fun done b => b.Marked ↔ ∃ l, .loop l ∈ done ∧ l.Marks scope) ?_ ?_ hb
    · exact iff_of_false (fun ⟨_, hpart, _⟩ => nomatch hpart) (fun ⟨_, hl, _⟩ => nomatch hl)
    · intro done n b b' _ hkept hstep
      rw [Node.marked_render_iff hstep, hkept]
      simp only [List.mem_append, List.mem_singleton, or_and_right, exists_or,
        eq_comm (a := Node.loop _)]
  rw [← hmarks, occurs_iff, Builder.finish, Builder.sql, String.toList_intercalate,
    marked_intercalate_iff (by decide) (by decide) (by decide)]
  simp [Builder.Marked]

/-- A statement whose texts hold a hash and braces, but no mark. -/
def hashedQuery : List Node := [
  .raw "SELECT 'a#' || '\x7b' FROM t",
  .whereClause (.chain [⟨.const true, .ofTemplate "b = #\x7bb\x7d -- #"⟩]),
  .loop ⟨"ids", "id", ", ", "AND c IN (", ") -- #", .ofTemplate "#\x7bid\x7d"⟩]

/-- Values for it. -/
def hashedScope : Scope := ⟨[("b", .int 1), ("ids", .list [.int 2, .int 3])]⟩

theorem hashedQuery_unmarked :
    ∃ built, assemble hashedQuery hashedScope = .ok built ∧
      built.sql = "SELECT 'a#' || '\x7b' FROM t WHERE 1=1 AND b = ? -- # AND c IN (?, ?) -- #" ∧
      Placeholder.occurs built.sql = false := by
  have hrun : (assemble hashedQuery hashedScope).map BoundSql.sql =
      .ok "SELECT 'a#' || '\x7b' FROM t WHERE 1=1 AND b = ? -- # AND c IN (?, ?) -- #" := by
    decide +kernel
  obtain ⟨built, hbuilt, hsql⟩ := Except.map_eq_ok_iff.1 hrun
  refine ⟨built, hbuilt, hsql, Bool.eq_false_iff.2 fun hmark => ?_⟩
  obtain ⟨l, hl, items, hitems, houtline⟩ := (assemble_marked_iff _ _ built hbuilt).1 hmark
  obtain rfl : l = ⟨"ids", "id", ", ", "AND c IN (", ") -- #", .ofTemplate "#\x7bid\x7d"⟩ := by
    simpa [hashedQuery] using hl
  cases hitems
  exact absurd houtline (by decide +kernel)

/-- **The texts around the bodies of a loop are not looked at**: what opens a placeholder there is
emitted. -/
theorem loop_text_unchecked :
    (assemble [.loop ⟨"ids", "id", ", ", "#\x7b", "\x7d", .ofTemplate "#\x7bid\x7d"⟩]
        ⟨[("ids", .list [.int 1])]⟩).map
      (fun built => (built.sql, built.args.map Value.render, Placeholder.occurs built.sql)) =
      .ok ("#\x7b?\x7d", ["1"], true) := by decide +kernel

end SqlAccess
