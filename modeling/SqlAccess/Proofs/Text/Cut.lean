/-
**Laws of cutting at a character.**

Main results:

* `SqlAccess.Text.cut?_eq_some_iff`, `SqlAccess.Text.cut?_eq_none_iff` — the cut at the first
  occurrence;
* `SqlAccess.Text.cutLast?_eq_some_iff`, `SqlAccess.Text.cutLast?_eq_none_iff` — the cut at the last
  one;
* `SqlAccess.Text.fields_of_not_mem`, `SqlAccess.Text.fields_append_cons` — the pieces between all
  of them;
* `SqlAccess.Text.occursIn_iff` — what it is to occur in a text;
* `SqlAccess.Text.takeWhile_append_of_head?`, `SqlAccess.Text.dropWhile_append_of_head?` — where a
  run of characters ends.
-/

import Mathlib.Data.List.DropRight
import SqlAccess.Text.Cut

set_option autoImplicit false

namespace SqlAccess.Text

variable {sep : Char} {cs before rest : List Char}

theorem cut?_append_cons (h : sep ∉ before) (rest : List Char) :
    cut? sep (before ++ sep :: rest) = some (before, rest) := by
  induction before with
  | nil => simp [cut?]
  | cons c before ih =>
      have hc : c ≠ sep := fun hc => h (by simp [hc])
      have hbefore : sep ∉ before := fun hb => h (List.mem_cons_of_mem _ hb)
      rw [List.cons_append, cut?, if_neg hc, ih hbefore]
      rfl

theorem cut?_eq_none_iff : cut? sep cs = none ↔ sep ∉ cs := by
  induction cs with
  | nil => simp [cut?]
  | cons c cs ih =>
      by_cases hc : c = sep
      · simp [cut?, hc]
      · rw [cut?, if_neg hc, Option.map_eq_none_iff, ih, List.mem_cons, not_or]
        exact ⟨fun h => ⟨Ne.symm hc, h⟩, fun h => h.2⟩

/-- The cut is pinned down by what it leaves: the separator is not in the first part. -/
theorem cut?_eq_some_iff :
    cut? sep cs = some (before, rest) ↔ cs = before ++ sep :: rest ∧ sep ∉ before := by
  constructor
  · intro h
    refine ⟨eq_of_cut? h, ?_⟩
    induction cs generalizing before with
    | nil => simp [cut?] at h
    | cons c cs ih =>
        by_cases hc : c = sep
        · rw [cut?, if_pos hc] at h
          obtain ⟨rfl, -⟩ := Prod.mk.inj (Option.some.inj h)
          exact List.not_mem_nil
        · rw [cut?, if_neg hc] at h
          obtain ⟨⟨l, r⟩, hp, hq⟩ := Option.map_eq_some_iff.1 h
          obtain ⟨rfl, rfl⟩ := Prod.mk.inj hq
          exact List.not_mem_cons_of_ne_of_not_mem (Ne.symm hc) (ih hp)
  · rintro ⟨rfl, h⟩
    exact cut?_append_cons h rest

theorem cutLast?_eq_none_iff : cutLast? sep cs = none ↔ sep ∉ cs := by
  rw [cutLast?, Option.map_eq_none_iff, cut?_eq_none_iff, List.mem_reverse]

theorem cutLast?_eq_some_iff :
    cutLast? sep cs = some (before, rest) ↔ cs = before ++ sep :: rest ∧ sep ∉ rest := by
  constructor
  · intro h
    obtain ⟨⟨l, r⟩, hp, hq⟩ := Option.map_eq_some_iff.1 h
    obtain ⟨rfl, rfl⟩ := Prod.mk.inj hq
    obtain ⟨he, hl⟩ := cut?_eq_some_iff.1 hp
    refine ⟨?_, by simpa using hl⟩
    rw [← List.reverse_reverse cs, he]
    simp
  · rintro ⟨rfl, h⟩
    have hrev : sep ∉ rest.reverse := by simpa using h
    have he : (before ++ sep :: rest).reverse = rest.reverse ++ sep :: before.reverse := by simp
    rw [cutLast?, he, cut?_append_cons hrev]
    simp

/-- The run at the end without the last separator. -/
theorem rtakeWhile_append_cons (h : sep ∉ rest) (before : List Char) :
    (before ++ sep :: rest).rtakeWhile (· != sep) = rest := by
  have hpos : ∀ c ∈ rest.reverse, (c != sep) = true := by
    intro c hc
    exact bne_iff_ne.2 fun he => h (he ▸ List.mem_reverse.1 hc)
  have hrev : (before ++ sep :: rest).reverse = rest.reverse ++ sep :: before.reverse := by simp
  rw [List.rtakeWhile, hrev, List.takeWhile_append_of_pos hpos,
    List.takeWhile_cons_of_neg (by simp)]
  simp

theorem rdropWhile_append_cons (h : sep ∉ rest) (before : List Char) :
    (before ++ sep :: rest).rdropWhile (· != sep) = before ++ [sep] := by
  refine List.append_cancel_right (?_ : _ ++ rest = _ ++ rest)
  calc (before ++ sep :: rest).rdropWhile (· != sep) ++ rest
      = (before ++ sep :: rest).rdropWhile (· != sep) ++
          (before ++ sep :: rest).rtakeWhile (· != sep) := by rw [rtakeWhile_append_cons h]
    _ = before ++ sep :: rest := List.rdropWhile_append_rtakeWhile
    _ = before ++ [sep] ++ rest := by simp

/-! ### All pieces -/

theorem fields_of_not_mem (h : sep ∉ cs) : fields sep cs = [cs] := by
  induction cs with
  | nil => rfl
  | cons c cs ih =>
      rw [List.mem_cons, not_or] at h
      rw [fields, if_neg (Ne.symm h.1), ih h.2]

/-- The first piece ends at the first separator. -/
theorem fields_append_cons (h : sep ∉ before) (rest : List Char) :
    fields sep (before ++ sep :: rest) = before :: fields sep rest := by
  induction before with
  | nil => rw [List.nil_append, fields, if_pos rfl]
  | cons c before ih =>
      rw [List.mem_cons, not_or] at h
      rw [List.cons_append, fields, if_neg (Ne.symm h.1), ih h.2]

theorem exists_fields_eq_cons (sep : Char) (cs : List Char) :
    ∃ piece pieces, fields sep cs = piece :: pieces := by
  cases h : cut? sep cs with
  | none => exact ⟨cs, [], fields_of_not_mem (cut?_eq_none_iff.1 h)⟩
  | some p =>
      obtain ⟨rfl, hbefore⟩ := cut?_eq_some_iff.1 h
      exact ⟨p.1, fields sep p.2, fields_append_cons hbefore p.2⟩

/-! ### Occurrences -/

/-- To occur is to stand somewhere in one piece. -/
theorem occursIn_iff {needle : List Char} : occursIn needle cs = true ↔ needle <:+: cs := by
  induction cs with
  | nil => simp [occursIn, cutAt?, List.infix_nil]
  | cons c cs ih =>
      rw [List.infix_cons_iff, ← ih, occursIn, occursIn, cutAt?]
      cases hpre : needle.isPrefixOf? (c :: cs) with
      | some rest =>
          have hbegins : needle <+: c :: cs := ⟨rest, (eq_append_of_isPrefixOf? hpre).symm⟩
          simp [hbegins]
      | none =>
          have hbegins : ¬ needle <+: c :: cs := by
            rintro ⟨rest, hrest⟩
            rw [List.isPrefixOf?_eq_some_iff_append_eq.2 hrest] at hpre
            cases hpre
          simp [hbegins]

/-! ### Runs at the beginning -/

variable {p : Char → Bool}

/-- A run ends where a character of another kind follows. -/
theorem takeWhile_append_of_head? (hcs : ∀ c ∈ cs, p c = true)
    (hrest : ∀ c ∈ rest.head?, p c = false) : (cs ++ rest).takeWhile p = cs := by
  rw [List.takeWhile_append_of_pos hcs]
  cases rest with
  | nil => simp
  | cons c rest => rw [List.takeWhile_cons_of_neg (by simp [hrest c rfl]), List.append_nil]

theorem dropWhile_append_of_head? (hcs : ∀ c ∈ cs, p c = true)
    (hrest : ∀ c ∈ rest.head?, p c = false) : (cs ++ rest).dropWhile p = rest := by
  rw [List.dropWhile_append_of_pos hcs]
  cases rest with
  | nil => rfl
  | cons c rest => rw [List.dropWhile_cons_of_neg (by simp [hrest c rfl])]

end SqlAccess.Text
