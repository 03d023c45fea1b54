/-
**Printing and reading conditions.**

A condition that was read is printed without braces of its own making, and blanks are not printed.
The text that comes out is nevertheless read as the same condition.  What carries the proof is a
comparison of the printed text with the part that was read: printing brings up no separator and no
brace that was not there, closes what it opens and puts no blank at either end.

Main definitions:

* `SqlAccess.Condition.Printed` — the comparison.

Main results:

* `SqlAccess.Condition.Printed.join`, `SqlAccess.Condition.Printed.group`,
  `SqlAccess.Condition.printed_of_readsUnit` — what printing a node keeps;
* `SqlAccess.Condition.Reads.printed_and_reads` — **a part that was read and what is printed for it
  denote the same condition**;
* `SqlAccess.Condition.parse_render` — the same of whole texts.
-/

import SqlAccess.Proofs.Text.Word
import SqlAccess.Proofs.Condition.Reading

set_option autoImplicit false

namespace SqlAccess.Condition

variable {table : Table} {cs left right body l r text : List Char} {sep : Char}

/-! ### Printed texts -/

/-- How a text that is printed for a part compares with the part. -/
structure Printed (cs text : List Char) : Prop where
  trimmed : Text.trim text = text
  wellBraced : WellBraced text
  noBrace : NoBrace cs → NoBrace text
  cut_none : ∀ sep, IsSeparator sep → cutTopLevel sep 0 cs = none → cutTopLevel sep 0 text = none

namespace Printed

/-- Between two printed texts a separator is found where it was put. -/
theorem cutTopLevel_join (hl : Printed left l) (hsep : IsSeparator sep)
    (hnone : cutTopLevel sep 0 left = none) (r : List Char) :
    cutTopLevel sep 0 (l ++ sep :: r) = some (l, r) := by
  rw [cutTopLevel_append_of_none (hl.cut_none sep hsep hnone), hl.wellBraced.depthAfter,
    cutTopLevel_cons_sep hsep.ne_open hsep.ne_close]
  simp

/-- Two sides of a cut, printed and joined again. -/
theorem join (hsep : IsSeparator sep) (hcut : cutTopLevel sep 0 cs = some (left, right))
    (hl : Printed left l) (hr : Printed right r) : Printed cs (l ++ sep :: r) where
  trimmed := Text.trim_append_cons hl.trimmed hsep.isBlank hr.trimmed
  wellBraced := by
    refine hl.wellBraced.append ⟨?_, ?_⟩
    · rw [braceDepth?_cons_of_ne hsep.ne_open hsep.ne_close, hr.wellBraced.paired]
    · rw [opensNested_cons_of_ne hsep.ne_open hsep.ne_close, hr.wellBraced.flat]
  noBrace h := by
    rw [eq_of_cutTopLevel hcut, noBrace_append_iff, noBrace_cons_iff] at h
    rw [noBrace_append_iff, noBrace_cons_iff]
    exact ⟨hl.noBrace h.1, h.2.1, hr.noBrace h.2.2⟩
  cut_none other hother hnone := by
    obtain ⟨hleft, hright⟩ :=
      cutTopLevel_eq_none_of_some hsep hnone hcut
    have hne : sep ≠ other := by
      rintro rfl
      rw [hnone] at hcut
      cases hcut
    rw [cutTopLevel_append_of_none (hl.cut_none other hother hleft), hl.wellBraced.depthAfter,
      cutTopLevel_cons_of_ne hsep.ne_open hsep.ne_close fun h => hne h.1,
      hr.cut_none other hother hright]
    rfl

/-- The body of a group, printed and put in braces again. -/
theorem group (hgroup : groupBody? (Text.trim cs) = some body) (hbody : Printed body text) :
    Printed cs ('{' :: (text ++ ['}'])) := by
  obtain ⟨htrim, hbare⟩ := groupBody?_eq_some_iff.1 hgroup
  have htext : NoBrace text := hbody.noBrace hbare
  refine ⟨?_, ⟨?_, ?_⟩, ?_, ?_⟩
  · refine Text.trim_eq_self_iff.2 ⟨?_, ?_⟩
    · simp [show Text.isBlank '{' = false from by decide]
    · simp [List.getLast?_cons, show Text.isBlank '}' = false from by decide]
  · rw [braceDepth?_cons_open, braceDepth?_append, htext.braceDepth?]
    rfl
  · rw [opensNested_cons_open, opensNested_append, htext.opensNested, htext.depthAfter]
    rfl
  · intro h
    -- the part itself has the brace that opens the group
    have hmem : '{' ∈ Text.trim cs := by simp [htrim]
    exact absurd (Text.mem_of_mem_trim hmem) h.1
  · intro sep _ _
    rw [cutTopLevel_cons_open, cutTopLevel_append_of_none (htext.cutTopLevel_succ sep 0),
      htext.depthAfter, cutTopLevel_cons_close]
    rfl

end Printed

/-! ### Printed units -/

theorem dot_not_mem_keyword (op : Operator) : '.' ∉ op.keyword.toList := by cases op <;> decide

theorem trim_keyword (op : Operator) : Text.trim op.keyword.toList = op.keyword.toList := by
  cases op <;> decide

theorem noBrace_dot_keyword (op : Operator) : NoBrace ('.' :: op.keyword.toList) := by
  cases op <;> exact ⟨by decide, by decide⟩

theorem separator_not_mem_keyword (op : Operator) (hsep : IsSeparator sep) :
    sep ∉ '.' :: op.keyword.toList := by
  cases hsep <;> cases op <;> decide

theorem ofText?_keyword (op : Operator) : Operator.ofText? op.keyword.toList = some op := by
  cases op <;> decide

/-- A text that names an operator holds no brace. -/
theorem noBrace_of_ofText? {after : List Char} {op : Operator}
    (h : Operator.ofText? after = some op) : NoBrace after := by
  have hsame := List.find?_some h
  obtain ⟨b₁, b₂, h₁, h₂, he⟩ := Text.exists_blanks_trim after
  -- neither brace has another case
  have hnot : ∀ c, c.toLower ∉ op.keyword.toList.map Char.toLower → c ∉ Text.trim after := by
    intro c hc hmem
    obtain ⟨d, hd, hdc⟩ := Text.exists_toLower_eq_of_sameIgnoringCase hsame hmem
    exact hc (hdc ▸ List.mem_map_of_mem hd)
  rw [he, noBrace_append_iff, noBrace_append_iff]
  refine ⟨noBrace_of_allBlank h₁, ⟨hnot _ ?_, hnot _ ?_⟩, noBrace_of_allBlank h₂⟩
  · cases op <;> decide
  · cases op <;> decide

/-- A position says nothing that a part could lack. -/
theorem printed_digits (cs : List Char) (n : Nat) : Printed cs (Text.digits n) := by
  have hdigit : ∀ c ∈ Text.digits n, c.isDigit = true := fun c hc => Text.isDigit_of_mem_digits hc
  have hbare : NoBrace (Text.digits n) :=
    ⟨fun h => absurd (hdigit _ h) (by decide), fun h => absurd (hdigit _ h) (by decide)⟩
  have hblank : ∀ c ∈ Text.digits n, Text.isBlank c = false := fun c hc =>
    Text.isBlank_of_isWordChar (Text.isWordChar_of_isDigit (hdigit c hc))
  refine ⟨?_, hbare.wellBraced, fun _ => hbare, ?_⟩
  · refine Text.trim_eq_self_iff.2 ⟨fun c hc => hblank c ?_, fun c hc => hblank c ?_⟩
    · exact List.mem_of_mem_head? hc
    · exact List.mem_of_getLast? hc
  · intro sep hsep _
    refine cutTopLevel_eq_none_of_not_mem (fun hmem => ?_) 0
    exact absurd (hdigit sep hmem) (by simp [hsep.isDigit])

/-- The field of a unit, as far as it was written. -/
theorem printed_trim {before after : List Char} (hcs : WellBraced cs)
    (hunit : Text.trim cs = before ++ '.' :: after) (hafter : NoBrace after) :
    Printed cs (Text.trim before) := by
  have hdot : NoBrace ('.' :: after) := noBrace_cons_iff.2 ⟨by decide, hafter⟩
  have hnil : NoBrace [] := ⟨List.not_mem_nil, List.not_mem_nil⟩
  have hbefore : WellBraced before := by
    have htrim := hcs.trim
    rw [hunit] at htrim
    exact WellBraced.of_append_noBrace hnil hdot htrim
  refine ⟨Text.trim_trim before, hbefore.trim, fun h => h.mono fun c hc => ?_, ?_⟩
  · refine Text.mem_of_mem_trim ?_
    rw [hunit]
    exact List.mem_append_left _ (Text.mem_of_mem_trim hc)
  · intro sep hsep hnone
    refine cutTopLevel_trim_of_none hsep ?_
    -- a separator in the field would be one of the part
    have htrim := cutTopLevel_trim_of_none hsep hnone
    rw [hunit] at htrim
    refine Option.eq_none_iff_forall_ne_some.2 fun p hp => ?_
    rw [cutTopLevel_append_of_some hp] at htrim
    cases htrim

/-- A field with its operator. -/
theorem Printed.dot_keyword (h : Printed cs text) (op : Operator) :
    Printed cs (text ++ '.' :: op.keyword.toList) where
  trimmed := Text.trim_append_cons h.trimmed (by decide) (trim_keyword op)
  wellBraced := h.wellBraced.append (noBrace_dot_keyword op).wellBraced
  noBrace hcs := noBrace_append_iff.2 ⟨h.noBrace hcs, noBrace_dot_keyword op⟩
  cut_none sep hsep hnone := by
    rw [cutTopLevel_append_of_none (h.cut_none sep hsep hnone),
      cutTopLevel_eq_none_of_not_mem (separator_not_mem_keyword op hsep)]
    rfl

theorem indexValue_digits {n : Nat} (h : n ≤ maxIndex) : indexValue (Text.digits n) = n := by
  rw [indexValue, Text.digitsValue_digits, Nat.min_eq_left h]

theorem indexValue_le (cs : List Char) : indexValue cs ≤ maxIndex := Nat.min_le_right _ _

/-- A field that is printed is read as the same field. -/
theorem ofText_render_of_ofText (cs : List Char) :
    Field.ofText (Field.ofText cs).render.toList = Field.ofText cs := by
  by_cases h : Text.isDigits cs = true
  · have hfield : Field.ofText cs = .index (indexValue cs) := if_pos h
    rw [hfield, Field.render, String.toList_ofList, Field.ofText,
      if_pos (Text.isDigits_digits _), indexValue_digits (indexValue_le cs)]
  · have hfield : Field.ofText cs = .name (String.ofList cs) := if_neg h
    rw [hfield, Field.render, String.toList_ofList, hfield]

theorem render_toList (p : Predicate) :
    p.render.toList = p.field.render.toList ++ '.' :: p.op.keyword.toList := by
  simp [Predicate.render]

/-- A unit that was read and what is printed for it. -/
theorem printed_of_readsUnit {p : Predicate} (hcs : WellBraced cs)
    (h : ReadsUnit table (Text.trim cs) p) :
    Printed cs p.render.toList ∧ ReadsUnit table p.render.toList p := by
  -- both kinds of unit come down to a field that is printed and read back
  have hkey : ∀ field, Printed cs field.render.toList → field.render.toList ≠ [] →
      Field.ofText field.render.toList = field → ∀ op, resolve table field op = .ok p →
      Printed cs p.render.toList ∧ ReadsUnit table p.render.toList p := by
    intro field hprinted hne hfield op hcolumn
    obtain ⟨rfl, rfl, -⟩ := resolve_eq_ok hcolumn
    rw [render_toList]
    refine ⟨hprinted.dot_keyword p.op,
      .dotted (dot_not_mem_keyword p.op) ?_ (ofText?_keyword p.op) ?_⟩
    · rwa [hprinted.trimmed]
    · rw [hprinted.trimmed, hfield, hcolumn]
  generalize hunit : Text.trim cs = unit at h
  cases h with
  | index hdigits hcolumn =>
      have hofText : Field.ofText unit = .index (indexValue unit) := if_pos hdigits
      rw [← hofText] at hcolumn
      refine hkey _ ?_ ?_ (ofText_render_of_ofText unit) _ hcolumn
      · rw [hofText, Field.render, String.toList_ofList]
        exact printed_digits cs _
      · rw [hofText, Field.render, String.toList_ofList]
        exact Text.digits_ne_nil _
  | @dotted before after op _ hdot hne hop hcolumn =>
      refine hkey _ ?_ ?_ (ofText_render_of_ofText _) _ hcolumn
      · by_cases hdigits : Text.isDigits (Text.trim before) = true
        · rw [Field.ofText, if_pos hdigits, Field.render, String.toList_ofList]
          exact printed_digits cs _
        · rw [Field.ofText, if_neg hdigits, Field.render, String.toList_ofList]
          exact printed_trim hcs hunit (noBrace_of_ofText? hop)
      · by_cases hdigits : Text.isDigits (Text.trim before) = true
        · rw [Field.ofText, if_pos hdigits, Field.render, String.toList_ofList]
          exact Text.digits_ne_nil _
        · rw [Field.ofText, if_neg hdigits, Field.render, String.toList_ofList]
          exact hne

/-- A printed unit is no group: it ends with its operator. -/
theorem groupBody?_render (p : Predicate) : groupBody? p.render.toList = none := by
  refine Option.eq_none_iff_forall_ne_some.2 fun body h => ?_
  have hlast := congrArg List.getLast? (groupBody?_eq_some_iff.1 h).1
  rw [render_toList, List.getLast?_append_of_ne_nil _ (List.cons_ne_nil _ _),
    ← List.cons_append, List.getLast?_concat] at hlast
  exact (noBrace_dot_keyword p.op).2 (List.mem_of_getLast? hlast)

/-! ### Printed conditions -/

/-- **A part that was read and what is printed for it denote the same condition.** -/
theorem Reads.printed_and_reads {c : Condition} (h : Reads table cs c) :
    WellBraced cs → Printed cs c.render.toList ∧ Reads table c.render.toList c := by
  induction h with
  | @or cs left right l r hcut _ _ ihl ihr =>
      intro hcs
      obtain ⟨hleft, hright⟩ := hcs.of_cutTopLevel .or hcut
      obtain ⟨hpl, hl⟩ := ihl hleft
      obtain ⟨hpr, hr⟩ := ihr hright
      have hrender : (Condition.or l r).render.toList =
          l.render.toList ++ '|' :: r.render.toList := by simp [Condition.render]
      rw [hrender]
      refine ⟨Printed.join .or hcut hpl hpr, .or ?_ hl hr⟩
      exact hpl.cutTopLevel_join .or (cutTopLevel_left_eq_none hcut) _
  | @and cs left right l r hor hcut _ _ ihl ihr =>
      intro hcs
      obtain ⟨hleft, hright⟩ := hcs.of_cutTopLevel .and hcut
      obtain ⟨hpl, hl⟩ := ihl hleft
      obtain ⟨hpr, hr⟩ := ihr hright
      have hrender : (Condition.and l r).render.toList =
          l.render.toList ++ '&' :: r.render.toList := by simp [Condition.render]
      have hprinted := Printed.join .and hcut hpl hpr
      rw [hrender]
      refine ⟨hprinted, .and (hprinted.cut_none _ .or hor) ?_ hl hr⟩
      exact hpl.cutTopLevel_join .and (cutTopLevel_left_eq_none hcut) _
  | @group cs body c hor hand hgroup _ ih =>
      intro hcs
      have hbare := (groupBody?_eq_some_iff.1 hgroup).2
      obtain ⟨hpbody, hbody⟩ := ih hbare.wellBraced
      have hrender : (Condition.group c).render.toList = '{' :: (c.render.toList ++ ['}']) := by
        simp [Condition.render]
      have hprinted := Printed.group hgroup hpbody
      rw [hrender]
      refine ⟨hprinted, .group (hprinted.cut_none _ .or hor)
        (hprinted.cut_none _ .and hand) ?_ hbody⟩
      rw [hprinted.trimmed]
      exact groupBody?_eq_some_iff.2 ⟨rfl, hpbody.noBrace hbare⟩
  | @unit cs p hor hand hgroup hunit =>
      intro hcs
      obtain ⟨hprinted, hreads⟩ := printed_of_readsUnit hcs hunit
      refine ⟨hprinted, .unit (hprinted.cut_none _ .or hor)
        (hprinted.cut_none _ .and hand) ?_ ?_⟩
      · rw [Condition.render, hprinted.trimmed]
        exact groupBody?_render p
      · rw [Condition.render, hprinted.trimmed]
        exact hreads

/-- **Reading what is printed for a condition that was read gives the condition again.** -/
theorem parse_render {table : Table} {source : String} {c : Condition}
    (h : parse table source = .ok c) : parse table c.render = .ok c := by
  obtain ⟨hbraces, hreads⟩ := parse_eq_ok_iff.1 h
  obtain ⟨hprinted, hagain⟩ := hreads.printed_and_reads hbraces
  exact parse_eq_ok_iff.2 ⟨hprinted.wellBraced, hagain⟩

/-- A name with braces, a separator and a dot of its own, a position with a zero in front, blanks
and lower case. -/
theorem parse_render_of_braced_name :
    ∃ c, parse ⟨"t", [⟨"status", "INT"⟩, ⟨"a.\x7bb|c\x7d d", "TEXT"⟩]⟩
        " \x7b01 & STATUS.lt\x7d|a.\x7bb|c\x7d d . isnull" = .ok c ∧
      c.render = "\x7b1.EQ&STATUS.LT\x7d|a.\x7bb|c\x7d d.ISNULL" ∧
      parse ⟨"t", [⟨"status", "INT"⟩, ⟨"a.\x7bb|c\x7d d", "TEXT"⟩]⟩ c.render = .ok c := by
  have h : parse ⟨"t", [⟨"status", "INT"⟩, ⟨"a.\x7bb|c\x7d d", "TEXT"⟩]⟩
      " \x7b01 & STATUS.lt\x7d|a.\x7bb|c\x7d d . isnull" =
      .ok (.or (.group (.and (.simple ⟨.index 1, ⟨"status", "INT"⟩, .eq⟩)
          (.simple ⟨.name "STATUS", ⟨"status", "INT"⟩, .lt⟩)))
        (.simple ⟨.name "a.\x7bb|c\x7d d", ⟨"a.\x7bb|c\x7d d", "TEXT"⟩, .isNull⟩)) := by
    decide +kernel
  exact ⟨_, h, by decide, parse_render h⟩

end SqlAccess.Condition
