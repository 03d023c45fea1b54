/-
**Laws of trimming.**

A text is its trimmed part with blanks on both sides, and blanks outside are all that trimming
looks at.  The texts that trimming leaves alone are those with no blank at either end.

Main results:

* `SqlAccess.Text.dropTrailing_append`, `SqlAccess.Text.exists_dropTrailing_append` — a run at the
  end is dropped, and nothing else;
* `SqlAccess.Text.exists_blanks_trim` — what trimming cuts off;
* `SqlAccess.Text.trim_blanks_append`, `SqlAccess.Text.trim_append_blanks` — blanks outside do not
  matter;
* `SqlAccess.Text.trim_eq_self_iff` — the trimmed texts;
* `SqlAccess.Text.trim_eq_nil_iff` — the texts of which nothing is left.
-/

import Mathlib.Data.List.DropRight
import SqlAccess.Text.Blank

set_option autoImplicit false

namespace SqlAccess.Text

variable {cs ds : List Char}

/-! ### Blanks -/

theorem allBlank_iff : allBlank cs = true ↔ ∀ c ∈ cs, isBlank c = true := by simp [allBlank]

@[simp] theorem allBlank_append :
    allBlank (cs ++ ds) = true ↔ allBlank cs = true ∧ allBlank ds = true := by
  simp [allBlank_iff, or_imp, forall_and]

/-! ### Runs at the end -/

section

variable {p : Char → Bool}

/-- A run at the end is dropped, and so is what was the end before it. -/
theorem dropTrailing_append (h : ∀ c ∈ ds, p c = true) :
    dropTrailing p (cs ++ ds) = dropTrailing p cs := by
  have hrev : ∀ c ∈ ds.reverse, p c = true := by simpa using h
  rw [dropTrailing, List.reverse_append, List.dropWhile_append_of_pos hrev]
  rfl

/-- Something is dropped before the last part only if nothing is left of that. -/
theorem dropTrailing_append_eq_ite (p : Char → Bool) (cs ds : List Char) :
    dropTrailing p (cs ++ ds) =
      if dropTrailing p ds = [] then dropTrailing p cs else cs ++ dropTrailing p ds := by
  simp only [dropTrailing, List.reverse_append, List.dropWhile_append, List.isEmpty_iff,
    List.reverse_eq_nil_iff]
  split <;> simp

/-- Behind a character of another kind nothing is dropped. -/
theorem dropTrailing_eq_self (h : ∀ c ∈ cs.getLast?, p c = false) : dropTrailing p cs = cs :=
  List.rdropWhile_eq_self_iff.2 fun hne => by simp [h _ (List.getLast?_eq_some_getLast hne)]

theorem eq_false_of_mem_getLast?_dropTrailing {c : Char} (h : c ∈ (dropTrailing p cs).getLast?) :
    p c = false := by
  have hne : cs.rdropWhile p ≠ [] := List.ne_nil_of_mem (List.mem_of_mem_getLast? h)
  have hc : (cs.rdropWhile p).getLast hne = c :=
    Option.some.inj ((List.getLast?_eq_some_getLast hne).symm.trans h)
  simpa [hc] using List.rdropWhile_last_not p cs hne

/-- What is dropped is a run. -/
theorem exists_dropTrailing_append (p : Char → Bool) (cs : List Char) :
    ∃ run, (∀ c ∈ run, p c = true) ∧ cs = dropTrailing p cs ++ run :=
  ⟨cs.rtakeWhile p, fun _ hc => List.mem_rtakeWhile_imp hc,
    List.rdropWhile_append_rtakeWhile.symm⟩

end

/-! ### What is cut off -/

theorem trimEnd_eq_rdropWhile : trimEnd cs = cs.rdropWhile isBlank := rfl

/-- Blanks, the trimmed text, blanks. -/
theorem exists_blanks_trim (cs : List Char) :
    ∃ b₁ b₂, allBlank b₁ = true ∧ allBlank b₂ = true ∧ cs = b₁ ++ (trim cs ++ b₂) := by
  refine ⟨cs.takeWhile isBlank, (trimStart cs).rtakeWhile isBlank, ?_, ?_, ?_⟩
  · exact allBlank_iff.2 fun c hc => List.mem_takeWhile_imp hc
  · exact allBlank_iff.2 fun c hc => List.mem_rtakeWhile_imp hc
  · rw [trim, trimEnd_eq_rdropWhile, List.rdropWhile_append_rtakeWhile, trimStart,
      List.takeWhile_append_dropWhile]

theorem mem_of_mem_trim {c : Char} (h : c ∈ trim cs) : c ∈ cs := by
  obtain ⟨b₁, b₂, -, -, he⟩ := exists_blanks_trim cs
  rw [he]
  simp [h]

/-! ### Blanks outside -/

theorem trimStart_blanks_append (h : allBlank cs = true) :
    trimStart (cs ++ ds) = trimStart ds :=
  List.dropWhile_append_of_pos (allBlank_iff.1 h)

theorem trim_blanks_append (h : allBlank cs = true) : trim (cs ++ ds) = trim ds := by
  rw [trim, trimStart_blanks_append h, trim]

theorem trimEnd_append_blanks (h : allBlank ds = true) : trimEnd (cs ++ ds) = trimEnd cs :=
  dropTrailing_append (allBlank_iff.1 h)

theorem trim_append_blanks (h : allBlank ds = true) : trim (cs ++ ds) = trim cs := by
  rw [trim, trim, trimStart, trimStart, List.dropWhile_append]
  split
  · -- all of `cs` is blank, so nothing is left on either side
    rename_i hcs
    rw [List.isEmpty_iff.1 hcs, ← List.nil_append (List.dropWhile isBlank ds)]
    refine trimEnd_append_blanks (allBlank_iff.2 fun c hc => allBlank_iff.1 h c ?_)
    exact (List.dropWhile_sublist isBlank).subset hc
  · exact trimEnd_append_blanks h

@[simp] theorem trim_trim (cs : List Char) : trim (trim cs) = trim cs := by
  obtain ⟨b₁, b₂, h₁, h₂, he⟩ := exists_blanks_trim cs
  calc trim (trim cs) = trim (b₁ ++ (trim cs ++ b₂)) := by
        rw [trim_blanks_append h₁, trim_append_blanks h₂]
    _ = trim cs := by rw [← he]

/-! ### Trimmed texts -/

/-- Trimming leaves a text alone exactly when neither end is blank. -/
theorem trim_eq_self_iff :
    trim cs = cs ↔ (∀ c ∈ cs.head?, isBlank c = false) ∧ ∀ c ∈ cs.getLast?, isBlank c = false := by
  constructor
  · intro h
    have hstart : trimStart cs = cs := by
      refine (List.dropWhile_suffix isBlank).sublist.eq_of_length_le ?_
      calc cs.length = (trim cs).length := by rw [h]
        _ ≤ (trimStart cs).length := by
          rw [trim, trimEnd_eq_rdropWhile]
          exact (List.rdropWhile_prefix isBlank _).length_le
    have hend : cs.rdropWhile isBlank = cs := by
      rwa [trim, hstart, trimEnd_eq_rdropWhile] at h
    constructor
    · intro c hc
      obtain ⟨rest, rfl⟩ := List.head?_eq_some_iff.1 hc
      exact Bool.eq_false_iff.2 (List.dropWhile_eq_self_iff.1 hstart (Nat.succ_pos _))
    · intro c hc
      obtain ⟨rest, rfl⟩ := List.getLast?_eq_some_iff.1 hc
      simpa using List.rdropWhile_eq_self_iff.1 hend (by simp)
  · rintro ⟨hhead, hlast⟩
    have hstart : trimStart cs = cs := by
      refine List.dropWhile_eq_self_iff.2 fun hl => ?_
      simpa using hhead cs[0] (by simp [List.head?_eq_getElem?, hl])
    have hend : cs.rdropWhile isBlank = cs := by
      refine List.rdropWhile_eq_self_iff.2 fun hl => ?_
      simpa using hlast _ (List.getLast?_eq_some_getLast hl)
    rw [trim, hstart, trimEnd_eq_rdropWhile, hend]

/-- Two trimmed texts stay trimmed when a character that is not blank joins them. -/
theorem trim_append_cons {c : Char} (hcs : trim cs = cs) (hc : isBlank c = false)
    (hds : trim ds = ds) : trim (cs ++ c :: ds) = cs ++ c :: ds := by
  have hhead := (trim_eq_self_iff.1 hcs).1
  have hlast := (trim_eq_self_iff.1 hds).2
  refine trim_eq_self_iff.2 ⟨?_, ?_⟩
  · cases cs with
    | nil => simpa using hc
    | cons d cs => simpa using hhead
  · intro e he
    rw [List.getLast?_append_of_ne_nil _ (List.cons_ne_nil c ds)] at he
    cases ds with
    | nil =>
        obtain rfl : c = e := by simpa using he
        exact hc
    | cons d ds => exact hlast e (by simpa using he)

/-- Nothing is left exactly of blanks. -/
theorem trim_eq_nil_iff : trim cs = [] ↔ allBlank cs = true := by
  constructor
  · intro h
    obtain ⟨b₁, b₂, h₁, h₂, he⟩ := exists_blanks_trim cs
    rw [he, h]
    simp [h₁, h₂]
  · intro h
    simpa using @trim_append_blanks [] cs h

end SqlAccess.Text
