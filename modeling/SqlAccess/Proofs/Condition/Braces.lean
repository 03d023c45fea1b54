/-
**Braces and cuts.**

Three scans of a condition keep count of the open braces: the test that they pair up, the test that
none is nested, and the search for a separator outside them.  This module says how each of them
runs through a text that is put together from pieces, and what a cut leaves of a text whose braces
are in order.

Main definitions:

* `SqlAccess.Condition.IsSeparator` — the characters that join conditions;
* `SqlAccess.Condition.depthAfter` — the braces left open by a text;
* `SqlAccess.Condition.NoBrace` — texts without braces;
* `SqlAccess.Condition.WellBraced` — what the test of the braces accepts.

Main results:

* `SqlAccess.Condition.braceDepth?_append`, `SqlAccess.Condition.opensNested_append` — the tests,
  piece by piece;
* `SqlAccess.Condition.cutTopLevel_append_of_some`,
  `SqlAccess.Condition.cutTopLevel_append_of_none` — the search, piece by piece;
* `SqlAccess.Condition.cutTopLevel_eq_none_of_some` — a cut at one separator brings up no other;
* `SqlAccess.Condition.WellBraced.of_cutTopLevel` — the two sides of a cut are in order as well;
* `SqlAccess.Condition.cutTopLevel_trim_of_some`, `SqlAccess.Condition.cutTopLevel_trim_of_none` —
  blanks outside do not hinder the search.
-/

import SqlAccess.Condition.Parser
import SqlAccess.Proofs.Text.Trim

set_option autoImplicit false

namespace SqlAccess.Condition

variable {sep : Char} {depth : Nat} {cs ds left right : List Char}

/-! ### Separators -/

/-- The characters that join conditions. -/
inductive IsSeparator : Char → Prop where
  | or : IsSeparator '|'
  | and : IsSeparator '&'

namespace IsSeparator

theorem ne_open (h : IsSeparator sep) : sep ≠ '{' := by cases h <;> decide

theorem ne_close (h : IsSeparator sep) : sep ≠ '}' := by cases h <;> decide

theorem isBlank (h : IsSeparator sep) : Text.isBlank sep = false := by cases h <;> decide

theorem isDigit (h : IsSeparator sep) : sep.isDigit = false := by cases h <;> decide

end IsSeparator

/-! ### One character -/

/-- A character opens a group, closes one or does neither. -/
theorem eq_brace_or_ne (c : Char) : c = '{' ∨ c = '}' ∨ (c ≠ '{' ∧ c ≠ '}') := by
  by_cases ho : c = '{'
  · exact Or.inl ho
  · by_cases hc : c = '}'
    · exact Or.inr (Or.inl hc)
    · exact Or.inr (Or.inr ⟨ho, hc⟩)

theorem braceDepth?_cons_open (depth : Nat) (cs : List Char) :
    braceDepth? depth ('{' :: cs) = braceDepth? (depth + 1) cs := by simp [braceDepth?]

theorem braceDepth?_cons_close (depth : Nat) (cs : List Char) :
    braceDepth? (depth + 1) ('}' :: cs) = braceDepth? depth cs := by simp [braceDepth?]

theorem braceDepth?_cons_close_zero (cs : List Char) : braceDepth? 0 ('}' :: cs) = none := by
  simp [braceDepth?]

theorem braceDepth?_cons_of_ne {c : Char} (ho : c ≠ '{') (hc : c ≠ '}') :
    braceDepth? depth (c :: cs) = braceDepth? depth cs := by simp [braceDepth?, ho, hc]

theorem opensNested_cons_open (depth : Nat) (cs : List Char) :
    opensNested depth ('{' :: cs) = (depth != 0 || opensNested (depth + 1) cs) := by
  simp [opensNested]

theorem opensNested_cons_close (depth : Nat) (cs : List Char) :
    opensNested depth ('}' :: cs) = opensNested (depth - 1) cs := by simp [opensNested]

theorem opensNested_cons_of_ne {c : Char} (ho : c ≠ '{') (hc : c ≠ '}') :
    opensNested depth (c :: cs) = opensNested depth cs := by simp [opensNested, ho, hc]

theorem cutTopLevel_cons_open (sep : Char) (depth : Nat) (cs : List Char) :
    cutTopLevel sep depth ('{' :: cs) =
      (cutTopLevel sep (depth + 1) cs).map fun p => ('{' :: p.1, p.2) := by simp [cutTopLevel]

theorem cutTopLevel_cons_close (sep : Char) (depth : Nat) (cs : List Char) :
    cutTopLevel sep depth ('}' :: cs) =
      (cutTopLevel sep (depth - 1) cs).map fun p => ('}' :: p.1, p.2) := by simp [cutTopLevel]

theorem cutTopLevel_cons_sep (ho : sep ≠ '{') (hc : sep ≠ '}') (cs : List Char) :
    cutTopLevel sep 0 (sep :: cs) = some ([], cs) := by simp [cutTopLevel, ho, hc]

theorem cutTopLevel_cons_of_ne {c : Char} (ho : c ≠ '{') (hc : c ≠ '}')
    (hs : ¬(c = sep ∧ depth = 0)) :
    cutTopLevel sep depth (c :: cs) =
      (cutTopLevel sep depth cs).map fun p => (c :: p.1, p.2) := by
  simp [cutTopLevel, ho, hc, hs]

/-- How many braces are open after the text, when `depth` were before; closing one too many counts
for nothing. -/
def depthAfter : Nat → List Char → Nat
  | depth, [] => depth
  | depth, c :: cs =>
    depthAfter (if c = '{' then depth + 1 else if c = '}' then depth - 1 else depth) cs

theorem depthAfter_cons_open (depth : Nat) (cs : List Char) :
    depthAfter depth ('{' :: cs) = depthAfter (depth + 1) cs := by simp [depthAfter]

theorem depthAfter_cons_close (depth : Nat) (cs : List Char) :
    depthAfter depth ('}' :: cs) = depthAfter (depth - 1) cs := by simp [depthAfter]

theorem depthAfter_cons_of_ne {c : Char} (ho : c ≠ '{') (hc : c ≠ '}') :
    depthAfter depth (c :: cs) = depthAfter depth cs := by simp [depthAfter, ho, hc]

/-! ### The tests, piece by piece -/

theorem braceDepth?_append (depth : Nat) (cs ds : List Char) :
    braceDepth? depth (cs ++ ds) = (braceDepth? depth cs).bind fun d => braceDepth? d ds := by
  induction cs generalizing depth with
  | nil => rfl
  | cons c cs ih =>
      rw [List.cons_append]
      rcases eq_brace_or_ne c with rfl | rfl | ⟨ho, hc⟩
      · rw [braceDepth?_cons_open, braceDepth?_cons_open, ih]
      · cases depth with
        | zero => rw [braceDepth?_cons_close_zero, braceDepth?_cons_close_zero]; rfl
        | succ depth => rw [braceDepth?_cons_close, braceDepth?_cons_close, ih]
      · rw [braceDepth?_cons_of_ne ho hc, braceDepth?_cons_of_ne ho hc, ih]

theorem depthAfter_of_braceDepth? {d : Nat} (h : braceDepth? depth cs = some d) :
    depthAfter depth cs = d := by
  induction cs generalizing depth with
  | nil => simpa [braceDepth?, depthAfter] using h
  | cons c cs ih =>
      rcases eq_brace_or_ne c with rfl | rfl | ⟨ho, hc⟩
      · rw [braceDepth?_cons_open] at h
        rw [depthAfter_cons_open, ih h]
      · cases depth with
        | zero => simp [braceDepth?_cons_close_zero] at h
        | succ depth =>
            rw [braceDepth?_cons_close] at h
            rw [depthAfter_cons_close, Nat.add_sub_cancel, ih h]
      · rw [braceDepth?_cons_of_ne ho hc] at h
        rw [depthAfter_cons_of_ne ho hc, ih h]

theorem opensNested_append (depth : Nat) (cs ds : List Char) :
    opensNested depth (cs ++ ds) =
      (opensNested depth cs || opensNested (depthAfter depth cs) ds) := by
  induction cs generalizing depth with
  | nil => rfl
  | cons c cs ih =>
      rw [List.cons_append]
      rcases eq_brace_or_ne c with rfl | rfl | ⟨ho, hc⟩
      · rw [opensNested_cons_open, opensNested_cons_open, depthAfter_cons_open, ih, Bool.or_assoc]
      · rw [opensNested_cons_close, opensNested_cons_close, depthAfter_cons_close, ih]
      · rw [opensNested_cons_of_ne ho hc, opensNested_cons_of_ne ho hc,
          depthAfter_cons_of_ne ho hc, ih]

/-! ### The search, piece by piece -/

/-- A separator found in the first piece is the one found in the whole. -/
theorem cutTopLevel_append_of_some (h : cutTopLevel sep depth cs = some (left, right))
    (ds : List Char) : cutTopLevel sep depth (cs ++ ds) = some (left, right ++ ds) := by
  induction cs generalizing depth left with
  | nil => simp [cutTopLevel] at h
  | cons c cs ih =>
      -- every character but the separator itself passes the search on to the rest
      have step : ∀ d, (cutTopLevel sep d cs).map (fun p => (c :: p.1, p.2)) = some (left, right) →
          (cutTopLevel sep d (cs ++ ds)).map (fun p => (c :: p.1, p.2)) =
            some (left, right ++ ds) := by
        intro d hd
        obtain ⟨⟨l, r⟩, hp, hq⟩ := Option.map_eq_some_iff.1 hd
        obtain ⟨rfl, rfl⟩ := Prod.mk.inj hq
        rw [ih hp]
        rfl
      rw [List.cons_append]
      rcases eq_brace_or_ne c with rfl | rfl | ⟨ho, hc⟩
      · rw [cutTopLevel_cons_open] at h ⊢
        exact step _ h
      · rw [cutTopLevel_cons_close] at h ⊢
        exact step _ h
      · by_cases hs : c = sep ∧ depth = 0
        · obtain ⟨rfl, rfl⟩ := hs
          rw [cutTopLevel_cons_sep ho hc] at h ⊢
          obtain ⟨rfl, rfl⟩ := Prod.mk.inj (Option.some.inj h)
          rfl
        · rw [cutTopLevel_cons_of_ne ho hc hs] at h ⊢
          exact step _ h

/-- Past a piece without separator the search goes on at the depth that the piece leaves. -/
theorem cutTopLevel_append_of_none (h : cutTopLevel sep depth cs = none) (ds : List Char) :
    cutTopLevel sep depth (cs ++ ds) =
      (cutTopLevel sep (depthAfter depth cs) ds).map fun p => (cs ++ p.1, p.2) := by
  induction cs generalizing depth with
  | nil => simp [depthAfter]
  | cons c cs ih =>
      have step : ∀ d, (cutTopLevel sep d cs).map (fun p => (c :: p.1, p.2)) = none →
          (cutTopLevel sep d (cs ++ ds)).map (fun p => (c :: p.1, p.2)) =
            (cutTopLevel sep (depthAfter d cs) ds).map fun p => (c :: cs ++ p.1, p.2) := by
        intro d hd
        rw [ih (Option.map_eq_none_iff.1 hd), Option.map_map]
        rfl
      rw [List.cons_append]
      rcases eq_brace_or_ne c with rfl | rfl | ⟨ho, hc⟩
      · rw [cutTopLevel_cons_open] at h ⊢
        rw [depthAfter_cons_open]
        exact step _ h
      · rw [cutTopLevel_cons_close] at h ⊢
        rw [depthAfter_cons_close]
        exact step _ h
      · by_cases hs : c = sep ∧ depth = 0
        · obtain ⟨rfl, rfl⟩ := hs
          simp [cutTopLevel_cons_sep ho hc] at h
        · rw [cutTopLevel_cons_of_ne ho hc hs] at h ⊢
          rw [depthAfter_cons_of_ne ho hc]
          exact step _ h

/-- Only what is there can be found. -/
theorem cutTopLevel_eq_none_of_not_mem (h : sep ∉ cs) (depth : Nat) :
    cutTopLevel sep depth cs = none := by
  refine Option.eq_none_iff_forall_ne_some.2 fun p hp => h ?_
  rw [eq_of_cutTopLevel hp]
  simp

/-- At the separator that is found no brace is open. -/
theorem depthAfter_of_cutTopLevel (h : cutTopLevel sep depth cs = some (left, right)) :
    depthAfter depth left = 0 := by
  induction cs generalizing depth left with
  | nil => simp [cutTopLevel] at h
  | cons c cs ih =>
      have step : ∀ d, (cutTopLevel sep d cs).map (fun p => (c :: p.1, p.2)) = some (left, right) →
          ∃ l, left = c :: l ∧ depthAfter d l = 0 := by
        intro d hd
        obtain ⟨⟨l, r⟩, hp, hq⟩ := Option.map_eq_some_iff.1 hd
        obtain ⟨rfl, rfl⟩ := Prod.mk.inj hq
        exact ⟨l, rfl, ih hp⟩
      rcases eq_brace_or_ne c with rfl | rfl | ⟨ho, hc⟩
      · rw [cutTopLevel_cons_open] at h
        obtain ⟨l, rfl, hl⟩ := step _ h
        rw [depthAfter_cons_open, hl]
      · rw [cutTopLevel_cons_close] at h
        obtain ⟨l, rfl, hl⟩ := step _ h
        rw [depthAfter_cons_close, hl]
      · by_cases hs : c = sep ∧ depth = 0
        · obtain ⟨rfl, rfl⟩ := hs
          rw [cutTopLevel_cons_sep ho hc] at h
          obtain ⟨rfl, -⟩ := Prod.mk.inj (Option.some.inj h)
          rfl
        · rw [cutTopLevel_cons_of_ne ho hc hs] at h
          obtain ⟨l, rfl, hl⟩ := step _ h
          rw [depthAfter_cons_of_ne ho hc, hl]

/-- The separator that is found is the first. -/
theorem cutTopLevel_left_eq_none (h : cutTopLevel sep depth cs = some (left, right)) :
    cutTopLevel sep depth left = none := by
  refine Option.eq_none_iff_forall_ne_some.2 fun p hp => ?_
  -- a separator before it would have been found in the whole text
  have hwhole := cutTopLevel_append_of_some hp (sep :: right)
  rw [← eq_of_cutTopLevel h, h] at hwhole
  have hlen := congrArg List.length (eq_of_cutTopLevel hp)
  rw [← (Prod.mk.inj (Option.some.inj hwhole)).1, List.length_append, List.length_cons] at hlen
  omega

/-- A cut at one separator brings up no other. -/
theorem cutTopLevel_eq_none_of_some {other : Char} (hsep : IsSeparator sep)
    (hnone : cutTopLevel other depth cs = none)
    (h : cutTopLevel sep depth cs = some (left, right)) :
    cutTopLevel other depth left = none ∧ cutTopLevel other 0 right = none := by
  rw [eq_of_cutTopLevel h] at hnone
  have hleft : cutTopLevel other depth left = none := by
    refine Option.eq_none_iff_forall_ne_some.2 fun p hp => ?_
    rw [cutTopLevel_append_of_some hp] at hnone
    exact Option.some_ne_none _ hnone
  rw [cutTopLevel_append_of_none hleft, depthAfter_of_cutTopLevel h,
    Option.map_eq_none_iff] at hnone
  refine ⟨hleft, ?_⟩
  by_cases he : sep = other
  · subst he
    simp [cutTopLevel_cons_sep hsep.ne_open hsep.ne_close] at hnone
  · rw [cutTopLevel_cons_of_ne hsep.ne_open hsep.ne_close fun hs => he hs.1] at hnone
    exact Option.map_eq_none_iff.1 hnone

/-! ### Texts without braces -/

/-- A text without braces. -/
def NoBrace (cs : List Char) : Prop := '{' ∉ cs ∧ '}' ∉ cs

theorem noBrace_cons_iff {c : Char} :
    NoBrace (c :: cs) ↔ (c ≠ '{' ∧ c ≠ '}') ∧ NoBrace cs := by
  simp only [NoBrace, List.mem_cons, not_or]
  tauto

theorem noBrace_append_iff : NoBrace (cs ++ ds) ↔ NoBrace cs ∧ NoBrace ds := by
  simp only [NoBrace, List.mem_append, not_or]
  tauto

theorem NoBrace.mono (h : NoBrace ds) (hsub : ∀ c ∈ cs, c ∈ ds) : NoBrace cs :=
  ⟨fun hc => h.1 (hsub _ hc), fun hc => h.2 (hsub _ hc)⟩

theorem noBrace_of_allBlank (h : Text.allBlank cs = true) : NoBrace cs :=
  ⟨fun hc => absurd (Text.allBlank_iff.1 h _ hc) (by decide),
    fun hc => absurd (Text.allBlank_iff.1 h _ hc) (by decide)⟩

namespace NoBrace

theorem braceDepth? (h : NoBrace cs) (depth : Nat) : braceDepth? depth cs = some depth := by
  induction cs with
  | nil => rfl
  | cons c cs ih =>
      obtain ⟨⟨ho, hc⟩, hcs⟩ := noBrace_cons_iff.1 h
      rw [braceDepth?_cons_of_ne ho hc, ih hcs]

theorem depthAfter (h : NoBrace cs) (depth : Nat) : depthAfter depth cs = depth :=
  depthAfter_of_braceDepth? (h.braceDepth? depth)

theorem opensNested (h : NoBrace cs) (depth : Nat) : opensNested depth cs = false := by
  induction cs with
  | nil => rfl
  | cons c cs ih =>
      obtain ⟨⟨ho, hc⟩, hcs⟩ := noBrace_cons_iff.1 h
      rw [opensNested_cons_of_ne ho hc, ih hcs]

/-- Inside a group there is no separator to be found. -/
theorem cutTopLevel_succ (h : NoBrace cs) (sep : Char) (depth : Nat) :
    cutTopLevel sep (depth + 1) cs = none := by
  induction cs with
  | nil => rfl
  | cons c cs ih =>
      obtain ⟨⟨ho, hc⟩, hcs⟩ := noBrace_cons_iff.1 h
      rw [cutTopLevel_cons_of_ne ho hc (by omega), ih hcs]
      rfl

end NoBrace

/-! ### Braces in order -/

/-- The braces pair up and are not nested. -/
structure WellBraced (cs : List Char) : Prop where
  paired : braceDepth? 0 cs = some 0
  flat : opensNested 0 cs = false

theorem testBraces_eq_ok_iff {source : String} :
    testBraces source = .ok () ↔ WellBraced source.toList := by
  unfold testBraces
  constructor
  · intro h
    split at h
    · cases h
    · rename_i hpaired
      split at h
      · cases h
      · rename_i hflat
        exact ⟨not_not.1 hpaired, Bool.eq_false_iff.2 hflat⟩
  · rintro ⟨hpaired, hflat⟩
    rw [if_neg (not_not.2 hpaired), if_neg (by simp [hflat])]

theorem NoBrace.wellBraced (h : NoBrace cs) : WellBraced cs := ⟨h.braceDepth? 0, h.opensNested 0⟩

/-- Behind a text that closes its groups, a text is read as if it stood alone. -/
theorem wellBraced_append_iff (h : braceDepth? 0 cs = some 0) :
    WellBraced (cs ++ ds) ↔ WellBraced cs ∧ WellBraced ds := by
  have hdepth : depthAfter 0 cs = 0 := depthAfter_of_braceDepth? h
  constructor
  · rintro ⟨hpaired, hflat⟩
    rw [braceDepth?_append, h, Option.bind_some] at hpaired
    rw [opensNested_append, hdepth, Bool.or_eq_false_iff] at hflat
    exact ⟨⟨h, hflat.1⟩, ⟨hpaired, hflat.2⟩⟩
  · rintro ⟨hcs, hds⟩
    refine ⟨?_, ?_⟩
    · rw [braceDepth?_append, h, Option.bind_some, hds.paired]
    · rw [opensNested_append, hdepth, hcs.flat, hds.flat]
      rfl

namespace WellBraced

theorem append (hcs : WellBraced cs) (hds : WellBraced ds) : WellBraced (cs ++ ds) :=
  (wellBraced_append_iff hcs.paired).2 ⟨hcs, hds⟩

theorem depthAfter (h : WellBraced cs) : depthAfter 0 cs = 0 := depthAfter_of_braceDepth? h.paired

/-- A text in order stays so without text that holds no braces, at either end. -/
theorem of_append_noBrace (hcs : NoBrace cs) (hds : NoBrace ds) {mid : List Char}
    (h : WellBraced (cs ++ (mid ++ ds))) : WellBraced mid := by
  have hmid := ((wellBraced_append_iff (hcs.braceDepth? 0)).1 h).2
  have hpaired : braceDepth? 0 mid = some 0 := by
    have hp := hmid.paired
    rw [braceDepth?_append] at hp
    obtain ⟨d, hd, he⟩ := Option.bind_eq_some_iff.1 hp
    rw [hds.braceDepth?] at he
    rw [hd, he]
  exact ((wellBraced_append_iff hpaired).1 hmid).1

theorem trim (h : WellBraced cs) : WellBraced (Text.trim cs) := by
  obtain ⟨b₁, b₂, h₁, h₂, he⟩ := Text.exists_blanks_trim cs
  rw [he] at h
  exact of_append_noBrace (noBrace_of_allBlank h₁) (noBrace_of_allBlank h₂) h

/-- The two sides of a cut are in order. -/
theorem of_cutTopLevel (hsep : IsSeparator sep) (h : WellBraced cs)
    (hcut : cutTopLevel sep 0 cs = some (left, right)) : WellBraced left ∧ WellBraced right := by
  rw [eq_of_cutTopLevel hcut] at h
  have hleft : braceDepth? 0 left = some 0 := by
    have hp := h.paired
    rw [braceDepth?_append] at hp
    obtain ⟨d, hd, -⟩ := Option.bind_eq_some_iff.1 hp
    rw [hd, ← depthAfter_of_braceDepth? hd, depthAfter_of_cutTopLevel hcut]
  obtain ⟨hl, hr⟩ := (wellBraced_append_iff hleft).1 h
  refine ⟨hl, ?_, ?_⟩
  · rw [← braceDepth?_cons_of_ne hsep.ne_open hsep.ne_close, hr.paired]
  · rw [← opensNested_cons_of_ne hsep.ne_open hsep.ne_close, hr.flat]

end WellBraced

/-! ### Cuts and blanks -/

theorem cutTopLevel_blanks_append (hsep : IsSeparator sep) (hcs : Text.allBlank cs = true)
    (ds : List Char) :
    cutTopLevel sep 0 (cs ++ ds) = (cutTopLevel sep 0 ds).map fun p => (cs ++ p.1, p.2) := by
  have hmem : sep ∉ cs := fun h => by simpa [hsep.isBlank] using Text.allBlank_iff.1 hcs sep h
  rw [cutTopLevel_append_of_none (cutTopLevel_eq_none_of_not_mem hmem 0),
    (noBrace_of_allBlank hcs).depthAfter]

theorem cutTopLevel_append_blanks (hsep : IsSeparator sep) (hds : Text.allBlank ds = true)
    (cs : List Char) :
    cutTopLevel sep 0 (cs ++ ds) = (cutTopLevel sep 0 cs).map fun p => (p.1, p.2 ++ ds) := by
  have hmem : sep ∉ ds := fun h => by simpa [hsep.isBlank] using Text.allBlank_iff.1 hds sep h
  cases h : cutTopLevel sep 0 cs with
  | none =>
      rw [cutTopLevel_append_of_none h, cutTopLevel_eq_none_of_not_mem hmem]
      rfl
  | some p => exact cutTopLevel_append_of_some h ds

/-- Blanks outside do not hide a separator, nor do they show one. -/
theorem cutTopLevel_trim_of_none (hsep : IsSeparator sep)
    (h : cutTopLevel sep 0 cs = none) : cutTopLevel sep 0 (Text.trim cs) = none := by
  obtain ⟨b₁, b₂, h₁, h₂, he⟩ := Text.exists_blanks_trim cs
  rw [he, cutTopLevel_blanks_append hsep h₁, cutTopLevel_append_blanks hsep h₂] at h
  exact Option.map_eq_none_iff.1 (Option.map_eq_none_iff.1 h)

/-- Trimming changes the two sides of a cut by blanks only. -/
theorem cutTopLevel_trim_of_some (hsep : IsSeparator sep)
    (h : cutTopLevel sep 0 cs = some (left, right)) :
    ∃ l r, cutTopLevel sep 0 (Text.trim cs) = some (l, r) ∧ Text.trim l = Text.trim left ∧
      Text.trim r = Text.trim right := by
  obtain ⟨b₁, b₂, h₁, h₂, he⟩ := Text.exists_blanks_trim cs
  rw [he, cutTopLevel_blanks_append hsep h₁, cutTopLevel_append_blanks hsep h₂] at h
  obtain ⟨q, hq, hqe⟩ := Option.map_eq_some_iff.1 h
  obtain ⟨⟨l, r⟩, hp, rfl⟩ := Option.map_eq_some_iff.1 hq
  obtain ⟨rfl, rfl⟩ := Prod.mk.inj hqe
  exact ⟨l, r, hp, (Text.trim_blanks_append h₁).symm, (Text.trim_append_blanks h₂).symm⟩

end SqlAccess.Condition
