/-
**Templates cut at their placeholders.**

A text with placeholders is literal text, a placeholder, literal text, and so on to the literal text
after the last placeholder.  Each text is cut in one way only if every placeholder is opened as far
left as it can be and closed by the next brace.  Statements and keys go by this one cut: a statement
has a marker in the place of each placeholder, a key has the text of a value there, and what stands
between the placeholders is the same in both.

Main definitions:

* `SqlAccess.Placeholder.Spent` — a text in which no mark is closed any more;
* `SqlAccess.Placeholder.Template` — literal texts and the expressions between them;
* `SqlAccess.Placeholder.Template.filled` — the literal texts with other texts between them;
* `SqlAccess.Placeholder.Template.Leftmost` — each placeholder is opened as far left as can be;
* `SqlAccess.Placeholder.cut` — the template that a text is.

Main results:

* `SqlAccess.Placeholder.next?_eq_some_iff`, `SqlAccess.Placeholder.next?_eq_none_iff` — the first
  placeholder, by the text around it;
* `SqlAccess.Placeholder.source_cut`, `SqlAccess.Placeholder.cut_source` — texts and leftmost
  templates are the same;
* `SqlAccess.Placeholder.extract_cuts_leftmost` — **what is taken out of a text, and what is left**;
* `SqlAccess.Placeholder.splice_fills_extracted` — **keys see the placeholders of statements**.
-/

import SqlAccess.Proofs.Statement.Unmarked

set_option autoImplicit false

namespace SqlAccess.Placeholder

variable {c : Char} {cs before expr rest after : List Char}

/-! ### Where a mark stands -/

instance (cs : List Char) : Decidable (Marked cs) :=
  decidable_of_iff (Text.occursIn mark cs = true) Text.occursIn_iff

/-- What ends a text without the character `c` stands behind each `c` of the text. -/
theorem suffix_of_not_mem {tail : List Char} (hc : c ∉ tail) (h : tail <:+ before ++ c :: rest) :
    tail <:+ rest := by
  rcases List.suffix_or_suffix_of_suffix h (List.suffix_append before (c :: rest)) with hs | hs
  · rcases List.suffix_cons_iff.1 hs with rfl | hs
    · exact absurd List.mem_cons_self hc
    · exact hs
  · exact absurd (hs.subset List.mem_cons_self) hc

/-- Behind an unmarked text and a character that is no part of a mark, marks start anew. -/
theorem mark_suffix_of_append (hbefore : ¬ Marked before) (hc : c ∉ mark)
    (h : mark ++ after <:+ before ++ c :: rest) : mark ++ after <:+ rest := by
  induction before with
  | nil =>
      rcases List.suffix_cons_iff.1 h with heq | h
      · obtain rfl := (List.cons.inj heq).1
        exact absurd List.mem_cons_self hc
      · exact h
  | cons d before ih =>
      rw [marked_cons_iff, not_or] at hbefore
      rcases List.suffix_cons_iff.1 h with heq | h
      · obtain ⟨rfl, hbrace⟩ := List.cons.inj heq
        cases before with
        | nil =>
            obtain rfl := (List.cons.inj hbrace).1
            exact absurd (by decide) hc
        | cons e before =>
            obtain rfl := (List.cons.inj hbrace).1
            exact absurd ⟨rfl, rfl⟩ hbefore.1
      · exact ih hbefore.2 h

/-! ### The first placeholder -/

theorem cutAt?_mark_append (h : ¬ Marked before) (rest : List Char) :
    Text.cutAt? mark (before ++ (mark ++ rest)) = some (before, rest) := by
  induction before with
  | nil => rfl
  | cons c before ih =>
      rw [marked_cons_iff, not_or] at h
      have hpre : mark.isPrefixOf? (c :: (before ++ (mark ++ rest))) = none := by
        cases hpre : mark.isPrefixOf? (c :: (before ++ (mark ++ rest))) with
        | none => rfl
        | some more =>
            obtain ⟨rfl, heq⟩ := List.cons.inj (Text.eq_append_of_isPrefixOf? hpre)
            cases before with
            | nil => cases (List.cons.inj heq).1
            | cons d before =>
                obtain rfl := (List.cons.inj heq).1
                exact absurd ⟨rfl, rfl⟩ h.1
      rw [List.cons_append, Text.cutAt?, hpre]
      dsimp only
      rw [ih h.2]
      rfl

/-- The cut at the first mark is pinned down by what it leaves: no mark is in the first part. -/
theorem cutAt?_mark_eq_some_iff :
    Text.cutAt? mark cs = some (before, rest) ↔
      cs = before ++ (mark ++ rest) ∧ ¬ Marked before := by
  constructor
  · intro h
    refine ⟨by rw [Text.eq_of_cutAt? h, List.append_assoc], ?_⟩
    induction cs generalizing before with
    | nil => cases h
    | cons c cs ih =>
        rw [Text.cutAt?] at h
        split at h
        · obtain ⟨rfl, -⟩ := Prod.mk.inj (Option.some.inj h)
          exact not_marked_nil
        · rename_i hpre
          obtain ⟨⟨front, more⟩, hp, hq⟩ := Option.map_eq_some_iff.1 h
          obtain ⟨rfl, rfl⟩ := Prod.mk.inj hq
          rw [marked_cons_iff, not_or]
          refine ⟨?_, ih hp⟩
          rintro ⟨rfl, hhead⟩
          obtain ⟨tail, rfl⟩ := List.head?_eq_some_iff.1 hhead
          rw [Text.eq_of_cutAt? hp] at hpre
          cases hpre
  · rintro ⟨rfl, h⟩
    exact cutAt?_mark_append h rest

/-- **The first placeholder** is opened by the first mark and closed by the next brace. -/
theorem next?_eq_some_iff :
    next? cs = some (before, expr, rest) ↔
      cs = before ++ (mark ++ expr ++ '}' :: rest) ∧ ¬ Marked before ∧ '}' ∉ expr := by
  constructor
  · intro h
    obtain ⟨⟨front, more⟩, hp, h⟩ := Option.bind_eq_some_iff.1 h
    obtain ⟨⟨body, tail⟩, hq, h⟩ := Option.map_eq_some_iff.1 h
    cases h
    obtain ⟨rfl, hmark⟩ := cutAt?_mark_eq_some_iff.1 hp
    obtain ⟨heq, hbrace⟩ := Text.cut?_eq_some_iff.1 hq
    exact ⟨by rw [show more = _ from heq, List.append_assoc], hmark, hbrace⟩
  · rintro ⟨rfl, hmark, hbrace⟩
    rw [next?, List.append_assoc, cutAt?_mark_append hmark, Option.bind_some,
      Text.cut?_append_cons hbrace]
    rfl

/-- No mark in the text is followed by a closing brace. -/
def Spent (cs : List Char) : Prop := ∀ after, mark ++ after <:+ cs → '}' ∉ after

/-- What stands behind some mark stands behind the first. -/
theorem suffix_of_cutAt?_mark (h : Text.cutAt? mark cs = some (before, rest))
    (hafter : mark ++ after <:+ cs) : after <:+ rest := by
  induction cs generalizing before with
  | nil => cases h
  | cons c cs ih =>
      rw [Text.cutAt?] at h
      split at h
      · rename_i more hpre
        obtain ⟨-, rfl⟩ := Prod.mk.inj (Option.some.inj h)
        rw [Text.eq_append_of_isPrefixOf? hpre] at hafter
        rcases List.suffix_cons_iff.1 hafter with heq | hafter
        · obtain rfl : after = more := List.append_cancel_left heq
          exact List.suffix_rfl
        · rcases List.suffix_cons_iff.1 hafter with heq | hafter
          · cases (List.cons.inj heq).1
          · exact (List.suffix_append mark after).trans hafter
      · rename_i hpre
        obtain ⟨⟨front, more⟩, hp, hq⟩ := Option.map_eq_some_iff.1 h
        obtain ⟨-, rfl⟩ := Prod.mk.inj hq
        rcases List.suffix_cons_iff.1 hafter with heq | hafter
        · rw [← heq] at hpre
          cases hpre
        · exact ih hp hafter

/-- There is no placeholder where every mark is left open. -/
theorem next?_eq_none_iff : next? cs = none ↔ Spent cs := by
  constructor
  · intro h after hafter hbrace
    cases hcut : Text.cutAt? mark cs with
    | none =>
        have hmark : ¬ Marked cs := by
          rw [Marked, ← Text.occursIn_iff, Text.occursIn, hcut]
          simp
        exact hmark ((List.prefix_append mark after).isInfix.trans hafter.isInfix)
    | some p =>
        rw [next?, hcut, Option.bind_some, Option.map_eq_none_iff, Text.cut?_eq_none_iff] at h
        exact h ((suffix_of_cutAt?_mark hcut hafter).subset hbrace)
  · intro h
    cases hnext : next? cs with
    | none => rfl
    | some p =>
        obtain ⟨before, expr, rest⟩ := p
        obtain ⟨rfl, -, -⟩ := next?_eq_some_iff.1 hnext
        refine absurd ?_ (h (expr ++ '}' :: rest) ⟨before, by simp⟩)
        simp

instance (cs : List Char) : Decidable (Spent cs) :=
  decidable_of_iff (next? cs = none) next?_eq_none_iff

/-! ### Templates -/

/-- A text with placeholders. -/
inductive Template where
  /-- The literal text after the last placeholder. -/
  | last (text : List Char)
  /-- A literal text, the expression of the placeholder behind it, and what follows. -/
  | token (before expr : List Char) (rest : Template)

namespace Template

/-- The expressions as they are written. -/
def exprs : Template → List (List Char)
  | last _ => []
  | token _ expr rest => expr :: rest.exprs

/-- The paths: the expressions without the blanks around them. -/
def paths (t : Template) : List String := t.exprs.map fun expr => String.ofList (Text.trim expr)

/-- The literal texts with another text in the place of each placeholder, from left to right. -/
def filled : Template → List (List Char) → List Char
  | last text, _ => text
  | token before _ rest, texts => before ++ (texts.headD [] ++ rest.filled texts.tail)

/-- The text as it is written. -/
def source (t : Template) : List Char := t.filled (t.exprs.map fun expr => mark ++ expr ++ ['}'])

/-- The text with a marker in the place of each placeholder. -/
def marked (t : Template) : List Char := t.filled (t.exprs.map fun _ => ['?'])

/-- Each placeholder is opened as far left as it can be, and closed by the next brace. -/
def Leftmost : Template → Prop
  | last text => Spent text
  | token before expr rest => ¬ Marked before ∧ '}' ∉ expr ∧ rest.Leftmost

/-- A template is leftmost or not, placeholder by placeholder. -/
def decideLeftmost : (t : Template) → Decidable t.Leftmost
  | last text => inferInstanceAs (Decidable (Spent text))
  | token before expr rest =>
    have := rest.decideLeftmost
    inferInstanceAs (Decidable (¬ Marked before ∧ '}' ∉ expr ∧ rest.Leftmost))

instance (t : Template) : Decidable t.Leftmost := t.decideLeftmost

@[simp] theorem source_last (text : List Char) : (last text).source = text := rfl

@[simp] theorem source_token (before expr : List Char) (rest : Template) :
    (token before expr rest).source = before ++ (mark ++ expr ++ '}' :: rest.source) := by
  simp [source, exprs, filled]

@[simp] theorem paths_token (before expr : List Char) (rest : Template) :
    (token before expr rest).paths = String.ofList (Text.trim expr) :: rest.paths := rfl

@[simp] theorem marked_token (before expr : List Char) (rest : Template) :
    (token before expr rest).marked = before ++ '?' :: rest.marked := rfl

variable {t : Template}

/-- **What is left of the marks**: those which no brace follows, each with all that is behind it. -/
theorem Leftmost.mark_suffix_iff (h : t.Leftmost) (after : List Char) :
    mark ++ after <:+ t.marked ↔ mark ++ after <:+ t.source ∧ '}' ∉ after := by
  induction t with
  | last text => exact ⟨fun hs => ⟨hs, h after hs⟩, fun hs => hs.1⟩
  | token before expr rest ih =>
      obtain ⟨hbefore, -, hrest⟩ := h
      rw [marked_token, source_token]
      constructor
      · intro hs
        obtain ⟨hs, hbrace⟩ := (ih hrest).1 (mark_suffix_of_append hbefore (by decide) hs)
        refine ⟨hs.trans ⟨before ++ (mark ++ expr ++ ['}']), ?_⟩, hbrace⟩
        simp
      · rintro ⟨hs, hbrace⟩
        have hmark : '}' ∉ mark ++ after := by simpa [mark] using hbrace
        rw [← List.append_assoc] at hs
        have htail := (ih hrest).2 ⟨suffix_of_not_mem hmark hs, hbrace⟩
        exact htail.trans ⟨before ++ ['?'], by simp⟩

/-- No placeholder is left, nor does one come about. -/
theorem Leftmost.spent_marked (h : t.Leftmost) : Spent t.marked :=
  fun after hs => ((h.mark_suffix_iff after).1 hs).2

end Template

/-! ### The cut -/

/-- The template that a text is. -/
def cut (cs : List Char) : Template :=
  match _h : next? cs with
  | none => .last cs
  | some (before, expr, rest) => .token before expr (cut rest)
  termination_by cs.length
  decreasing_by exact length_rest_lt_of_next? _h

theorem cut_of_none (h : next? cs = none) : cut cs = .last cs := by
  rw [cut]
  split <;> simp_all

theorem cut_of_some (h : next? cs = some (before, expr, rest)) :
    cut cs = .token before expr (cut rest) := by
  rw [cut]
  split <;> simp_all

/-- Nothing is lost. -/
theorem source_cut (cs : List Char) : (cut cs).source = cs := by
  induction cs using next?_induction with
  | hnone cs h => rw [cut_of_none h, Template.source_last]
  | hsome cs before expr rest h ih =>
      rw [cut_of_some h, Template.source_token, ih]
      exact (next?_eq_some_iff.1 h).1.symm

theorem leftmost_cut (cs : List Char) : (cut cs).Leftmost := by
  induction cs using next?_induction with
  | hnone cs h =>
      rw [cut_of_none h]
      exact next?_eq_none_iff.1 h
  | hsome cs before expr rest h ih =>
      obtain ⟨-, hbefore, hexpr⟩ := next?_eq_some_iff.1 h
      rw [cut_of_some h]
      exact ⟨hbefore, hexpr, ih⟩

/-- A text is a leftmost template in one way only. -/
theorem cut_source {t : Template} (h : t.Leftmost) : cut t.source = t := by
  induction t with
  | last text => exact cut_of_none (next?_eq_none_iff.2 h)
  | token before expr rest ih =>
      obtain ⟨hbefore, hexpr, hrest⟩ := h
      have hnext : next? (Template.token before expr rest).source =
          some (before, expr, rest.source) :=
        next?_eq_some_iff.2 ⟨Template.source_token before expr rest, hbefore, hexpr⟩
      rw [cut_of_some hnext, ih hrest]

/-! ### Statements -/

theorem extractChars_eq_cut (cs : List Char) :
    extractChars cs = ((cut cs).marked, (cut cs).exprs.map Text.trim) := by
  induction cs using next?_induction with
  | hnone cs h =>
      rw [cut_of_none h, extractChars_of_none h]
      rfl
  | hsome cs before expr rest h ih =>
      rw [cut_of_some h, extractChars_of_some h, ih]
      rfl

/-- A statement has a marker for each placeholder of its template. -/
theorem extract_eq {t : Template} {text : String} (htext : t.source = text.toList)
    (h : t.Leftmost) : extract text = (String.ofList t.marked, t.paths) := by
  rw [extract, extractChars_eq_cut, ← htext, cut_source h]
  simp [Template.paths]

/-- **A text is cut into literal texts and expressions in one way**, each placeholder opened as far
left as it can be and closed by the next brace, and what is taken out of it are the trimmed
expressions of this cut, in their order, with a marker left in the place of each.  Nothing more can
be taken out of what is left.  A mark is left exactly if no brace follows it in the text, and what
follows it is left as well. -/
theorem extract_cuts_leftmost (text : String) :
    (∃! t : Template, t.source = text.toList ∧ t.Leftmost) ∧
    (∀ t : Template, t.source = text.toList → t.Leftmost →
      extract text = (String.ofList t.marked, t.paths)) ∧
    extract (extract text).1 = ((extract text).1, []) ∧
    ∀ after, mark ++ after <:+ (extract text).1.toList ↔
      mark ++ after <:+ text.toList ∧ '}' ∉ after := by
  have hsource := source_cut text.toList
  have hleft := leftmost_cut text.toList
  have hextract := extract_eq hsource hleft
  refine ⟨⟨cut text.toList, ⟨hsource, hleft⟩, ?_⟩, fun t htext h => extract_eq htext h, ?_, ?_⟩
  · rintro t ⟨htext, h⟩
    rw [← htext, cut_source h]
  · rw [hextract]
    exact extract_eq (t := .last (cut text.toList).marked) (by simp) hleft.spent_marked
  · intro after
    rw [hextract, String.toList_ofList, hleft.mark_suffix_iff after, hsource]

/-- A stray brace, a mark within an expression, a marker of the text's own, an empty expression and
a mark that is left open. -/
def oddTemplate : Template :=
  .token "#a\x7d#".toList " #\x7bx ".toList (.token " b ? ".toList [] (.last "c#\x7by #".toList))

theorem extract_cuts_leftmost_of_odd :
    oddTemplate.source = "#a\x7d##\x7b #\x7bx \x7d b ? #\x7b\x7dc#\x7by #".toList ∧
      oddTemplate.Leftmost ∧
      extract "#a\x7d##\x7b #\x7bx \x7d b ? #\x7b\x7dc#\x7by #" =
        ("#a\x7d#? b ? ?c#\x7by #", ["#\x7bx", ""]) ∧
      extract "#a\x7d#? b ? ?c#\x7by #" = ("#a\x7d#? b ? ?c#\x7by #", []) ∧
      mark ++ "y #".toList <:+ "#a\x7d#? b ? ?c#\x7by #".toList := by
  obtain ⟨-, htemplate, hagain, hmarks⟩ :=
    extract_cuts_leftmost "#a\x7d##\x7b #\x7bx \x7d b ? #\x7b\x7dc#\x7by #"
  have hsource : oddTemplate.source =
      "#a\x7d##\x7b #\x7bx \x7d b ? #\x7b\x7dc#\x7by #".toList := by decide
  have hleft : oddTemplate.Leftmost := by decide
  have hextract : extract "#a\x7d##\x7b #\x7bx \x7d b ? #\x7b\x7dc#\x7by #" =
      ("#a\x7d#? b ? ?c#\x7by #", ["#\x7bx", ""]) := by
    rw [htemplate oddTemplate hsource hleft]
    decide
  rw [hextract] at hagain hmarks
  exact ⟨hsource, hleft, hextract, hagain, (hmarks "y #".toList).2 (by decide)⟩

/-! ### Keys -/

variable {scope : Scope}

theorem spliceChars_of_none (h : next? cs = none) : spliceChars scope cs = .ok cs := by
  rw [spliceChars]
  split <;> simp_all

theorem spliceChars_of_some (h : next? cs = some (before, expr, rest)) :
    spliceChars scope cs =
      match scope.lookup? (String.ofList (Text.trim expr)) with
      | none => .error (.unresolvedArgument (String.ofList (Text.trim expr)))
      | some value => (spliceChars scope rest).map fun text =>
          before ++ value.render.toList ++ text := by
  rw [spliceChars]
  split
  · simp_all
  · rename_i hnext
    cases h.symm.trans hnext
    rfl

/-- The literal texts with the plain texts of values between them. -/
def Template.valued (t : Template) (values : List Value) : List Char :=
  t.filled (values.map fun v => v.render.toList)

theorem spliceChars_eq_cut (scope : Scope) (cs : List Char) :
    spliceChars scope cs = (resolveArgs scope.lookup? (cut cs).paths).map (cut cs).valued := by
  induction cs using next?_induction with
  | hnone cs h =>
      rw [cut_of_none h, spliceChars_of_none h]
      rfl
  | hsome cs before expr rest h ih =>
      rw [cut_of_some h, spliceChars_of_some h, ih, Template.paths_token, resolveArgs]
      cases scope.lookup? (String.ofList (Text.trim expr)) with
      | none => rfl
      | some value =>
          cases resolveArgs scope.lookup? (cut rest).paths with
          | error fault => rfl
          | ok values => simp [Except.map, Template.valued, Template.filled]

/-- **A key has the values of the placeholders that a statement sees.**  Where the statement of a
text has the markers of a cut, the key has, in their places, the plain texts of the values that the
paths of the statement lead to; literal text stays as it is, and no value is looked at again.  There
is no key exactly if one of the paths leads nowhere, and the first of these is reported. -/
theorem splice_fills_extracted (template : String) (scope : Scope) :
    ∃ t : Template, t.source = template.toList ∧ t.Leftmost ∧
      extract template = (String.ofList t.marked, t.paths) ∧
      (∀ fault, splice template scope = .error fault ↔
        ∃ path, fault = .unresolvedArgument path ∧
          (extract template).2.find? (fun p => (scope.lookup? p).isNone) = some path) ∧
      ∀ key, splice template scope = .ok key ↔
        ∃ values, (extract template).2.map scope.lookup? = values.map some ∧
          key = String.ofList (t.valued values) := by
  have hextract := extract_eq (source_cut template.toList) (leftmost_cut template.toList)
  refine ⟨cut template.toList, source_cut _, leftmost_cut _, hextract, ?_, ?_⟩
  · intro fault
    rw [hextract, splice, spliceChars_eq_cut, Except.map_eq_error_iff, Except.map_eq_error_iff,
      resolveArgs_eq_error_iff]
  · intro key
    rw [hextract, splice, spliceChars_eq_cut, Except.map_eq_ok_iff]
    constructor
    · rintro ⟨text, htext, rfl⟩
      obtain ⟨values, hvalues, rfl⟩ := Except.map_eq_ok_iff.1 htext
      exact ⟨values, resolveArgs_eq_ok_iff.1 hvalues, rfl⟩
    · rintro ⟨values, hvalues, rfl⟩
      exact ⟨_, Except.map_eq_ok_iff.2 ⟨values, resolveArgs_eq_ok_iff.2 hvalues, rfl⟩, rfl⟩

/-- A placeholder in a value is text like any other. -/
example : splice "u:#\x7b a \x7d?#\x7b" ⟨[("a", .text "#\x7bb\x7d"), ("b", .int 1)]⟩ =
    .ok "u:#\x7bb\x7d?#\x7b" := by decide +kernel

end SqlAccess.Placeholder
