/-
**Laws of words and digits.**

Main definitions:

* `SqlAccess.Text.IsWord` — a keyword as a word.

Main results:

* `SqlAccess.Text.isDigits_digits`, `SqlAccess.Text.digitsValue_digits` — the digits of a number
  read back;
* `SqlAccess.Text.isAlpha_toLower` — letters remain letters in lower case;
* `SqlAccess.Text.exists_toLower_eq_of_sameIgnoringCase` — texts that differ in case only have the
  same letters;
* `SqlAccess.Text.isBlank_of_isWordChar` — no character of a word is blank;
* `SqlAccess.Text.exists_of_beginsWithKeyword`, `SqlAccess.Text.beginsWithKeyword_append` — what a
  text begins with if it begins with a keyword, and what makes no difference to it.
-/

import SqlAccess.Text.Blank
import SqlAccess.Text.Word

set_option autoImplicit false

namespace SqlAccess.Text

theorem isDigit_of_mem_digits {n : Nat} {c : Char} (h : c ∈ digits n) : c.isDigit = true :=
  Nat.isDigit_of_mem_toDigits (by decide) (by decide) h

theorem digits_ne_nil (n : Nat) : digits n ≠ [] := Nat.toDigits_ne_nil

theorem isDigits_digits (n : Nat) : isDigits (digits n) = true := by
  simp only [isDigits, Bool.and_eq_true, Bool.not_eq_true', List.all_eq_true]
  exact ⟨by simpa using digits_ne_nil n, fun c hc => isDigit_of_mem_digits hc⟩

/-- The digits of a number denote it. -/
theorem digitsValue_digits (n : Nat) : digitsValue (digits n) = n := by
  rw [digitsValue, ← Nat.ofDigitChars_eq_foldl]
  exact Nat.ofDigitChars_ten_toDigits

/-- No zero stands in front of other digits. -/
theorem eq_zero_of_head?_digits {n : Nat} (h : (digits n).head? = some '0') : n = 0 := by
  induction n using Nat.strongRecOn with
  | _ n ih =>
    by_cases hn : n < 10
    · have hall : ∀ n < 10, Nat.digitChar n = '0' → n = 0 := by decide
      rw [digits, Nat.toDigits_of_lt_base hn] at h
      exact hall n hn (Option.some.inj h)
    · obtain ⟨c, ds, hds⟩ := List.exists_cons_of_ne_nil (digits_ne_nil (n / 10))
      rw [digits, Nat.toDigits_of_base_le (by decide) (Nat.le_of_not_lt hn), ← digits, hds] at h
      have hzero : n / 10 = 0 := ih (n / 10) (by omega) (by rw [hds]; exact h)
      omega

theorem ne_nil_of_isDigits {cs : List Char} (h : isDigits cs = true) : cs ≠ [] := by
  rintro rfl
  cases h

theorem isDigit_of_isDigits {cs : List Char} (h : isDigits cs = true) {c : Char} (hc : c ∈ cs) :
    c.isDigit = true := by
  simp only [isDigits, Bool.and_eq_true, List.all_eq_true] at h
  exact h.2 c hc

/-! ### Letters -/

theorem isAlpha_iff {c : Char} :
    c.isAlpha = true ↔ 65 ≤ c.toNat ∧ c.toNat ≤ 90 ∨ 97 ≤ c.toNat ∧ c.toNat ≤ 122 := by
  have hupper : c.isUpper = true ↔ 65 ≤ c.toNat ∧ c.toNat ≤ 90 := decide_eq_true_iff
  have hlower : c.isLower = true ↔ 97 ≤ c.toNat ∧ c.toNat ≤ 122 :=
    Bool.and_eq_true_iff.trans (and_congr decide_eq_true_iff decide_eq_true_iff)
  exact Bool.or_eq_true_iff.trans (or_congr hupper hlower)

theorem toNat_toLower (c : Char) :
    c.toLower.toNat = if 65 ≤ c.toNat ∧ c.toNat ≤ 90 then c.toNat + 32 else c.toNat := by
  by_cases hupper : 65 ≤ c.toNat ∧ c.toNat ≤ 90
  · have hlower : c.toLower.val = c.val + 32 := congrArg Char.val (dif_pos hupper)
    have hlt : c.toNat + 32 < 2 ^ 32 :=
      Nat.lt_of_le_of_lt (Nat.add_le_add_right hupper.2 32) (by decide)
    calc c.toLower.val.toNat = (c.val + 32).toNat := by rw [hlower]
      _ = (c.toNat + 32) % 2 ^ 32 := UInt32.toNat_add c.val 32
      _ = c.toNat + 32 := Nat.mod_eq_of_lt hlt
      _ = _ := (if_pos hupper).symm
  · have hsame : c.toLower = c := dif_neg hupper
    rw [hsame, if_neg hupper]

/-- Letters remain letters, and nothing else becomes one. -/
theorem isAlpha_toLower (c : Char) : c.toLower.isAlpha = c.isAlpha := by
  rw [Bool.eq_iff_iff, isAlpha_iff, isAlpha_iff, toNat_toLower]
  split <;> omega

/-! ### Words -/

theorem isWordChar_of_isDigit {c : Char} (h : c.isDigit = true) : isWordChar c = true := by
  simp [isWordChar, Char.isAlphanum, h]

theorem isWordChar_of_isAlpha {c : Char} (h : c.isAlpha = true) : isWordChar c = true := by
  simp [isWordChar, Char.isAlphanum, h]

/-- Letters, digits and the underscore, by their numbers. -/
theorem isWordChar_iff {c : Char} :
    isWordChar c = true ↔ (65 ≤ c.toNat ∧ c.toNat ≤ 90 ∨ 97 ≤ c.toNat ∧ c.toNat ≤ 122) ∨
      48 ≤ c.toNat ∧ c.toNat ≤ 57 ∨ c.toNat = 95 := by
  have hdigit : c.isDigit = true ↔ 48 ≤ c.toNat ∧ c.toNat ≤ 57 :=
    Bool.and_eq_true_iff.trans (and_congr decide_eq_true_iff decide_eq_true_iff)
  have hunder : (c == '_') = true ↔ c.toNat = 95 := beq_iff_eq.trans Char.toNat_inj.symm
  rw [isWordChar, Char.isAlphanum, Bool.or_eq_true_iff, Bool.or_eq_true_iff, isAlpha_iff, hdigit,
    hunder, or_assoc]

/-- The characters of words remain such, and nothing else becomes one. -/
theorem isWordChar_toLower (c : Char) : isWordChar c.toLower = isWordChar c := by
  rw [Bool.eq_iff_iff, isWordChar_iff, isWordChar_iff, toNat_toLower]
  split <;> omega

theorem isBlank_of_isWordChar {c : Char} (h : isWordChar c = true) : isBlank c = false := by
  have hrange := isWordChar_iff.1 h
  simp only [isBlank, Bool.or_eq_false_iff, Bool.and_eq_false_iff, beq_eq_false_iff_ne, ne_eq,
    decide_eq_false_iff_not]
  omega

/-- Each character of one of two texts that differ in case only stands, in some case, in the
other. -/
theorem exists_toLower_eq_of_sameIgnoringCase {a b : List Char} (h : sameIgnoringCase a b = true)
    {c : Char} (hc : c ∈ b) : ∃ d ∈ a, d.toLower = c.toLower := by
  have hmem : c.toLower ∈ a.map Char.toLower := by
    rw [eq_of_beq h]
    exact List.mem_map_of_mem hc
  exact List.mem_map.1 hmem

/-! ### Keywords -/

/-- A keyword as a word: characters of words, of which the first is a letter. -/
structure IsWord (keyword : List Char) : Prop where
  letter : keyword.head?.any Char.isAlpha = true
  chars : ∀ k ∈ keyword, isWordChar k = true

variable {keyword cs : List Char}

theorem isWord_iff :
    (keyword.head?.any Char.isAlpha && keyword.all isWordChar) = true ↔ IsWord keyword := by
  rw [Bool.and_eq_true, List.all_eq_true]
  exact ⟨fun h => ⟨h.1, h.2⟩, fun h => ⟨h.letter, h.chars⟩⟩

instance (keyword : List Char) : Decidable (IsWord keyword) := decidable_of_iff _ isWord_iff

theorem IsWord.exists_cons (h : IsWord keyword) :
    ∃ k rest, keyword = k :: rest ∧ k.isAlpha = true := by
  cases keyword with
  | nil => cases h.letter
  | cons k rest => exact ⟨k, rest, rfl, h.letter⟩

theorem beginsWithKeyword_cons_cons (k c : Char) (keyword cs : List Char) :
    beginsWithKeyword (k :: keyword) (c :: cs) =
      (c.toLower == k.toLower && beginsWithKeyword keyword cs) := by
  simp only [beginsWithKeyword, sameIgnoringCase, List.length_cons, List.take_succ_cons,
    List.drop_succ_cons, List.map_cons, List.cons_beq_cons, Bool.and_assoc]

/-- A text begins with the character of a keyword that it begins with. -/
theorem head?_toLower_of_beginsWithKeyword (hne : keyword ≠ [])
    (h : beginsWithKeyword keyword cs = true) :
    keyword.head?.map Char.toLower = cs.head?.map Char.toLower := by
  obtain ⟨k, keyword, rfl⟩ := List.exists_cons_of_ne_nil hne
  cases cs with
  | nil => cases h
  | cons c cs =>
      rw [beginsWithKeyword_cons_cons, Bool.and_eq_true, beq_iff_eq] at h
      simp [h.1]

/-- A text that begins with a keyword goes on with no character of a word. -/
theorem exists_of_beginsWithKeyword (hchars : ∀ k ∈ keyword, isWordChar k = true)
    (h : beginsWithKeyword keyword cs = true) :
    ∃ found rest, cs = found ++ rest ∧ sameIgnoringCase found keyword = true ∧
      (∀ c ∈ found, isWordChar c = true) ∧ rest.head?.any isWordChar = false := by
  simp only [beginsWithKeyword, Bool.and_eq_true, Bool.not_eq_true'] at h
  refine ⟨cs.take keyword.length, cs.drop keyword.length, (List.take_append_drop _ _).symm, h.1,
    fun c hc => ?_, h.2⟩
  have hmem : c.toLower ∈ keyword.map Char.toLower := by
    rw [← eq_of_beq h.1]
    exact List.mem_map_of_mem hc
  obtain ⟨k, hk, heq⟩ := List.mem_map.1 hmem
  rw [← isWordChar_toLower, ← heq, isWordChar_toLower, hchars k hk]

/-- What follows a character of no word makes no difference to the words before it. -/
theorem beginsWithKeyword_append (hchars : ∀ k ∈ keyword, isWordChar k = true)
    (hlast : ∃ c ∈ cs.getLast?, isWordChar c = false) (ds : List Char) :
    beginsWithKeyword keyword (cs ++ ds) = beginsWithKeyword keyword cs := by
  induction keyword generalizing cs with
  | nil =>
      obtain ⟨c, hc, -⟩ := hlast
      obtain ⟨d, cs, rfl⟩ :=
        List.exists_cons_of_ne_nil (List.ne_nil_of_mem (List.mem_of_getLast? hc))
      rfl
  | cons k keyword ih =>
      rw [List.forall_mem_cons] at hchars
      obtain ⟨e, he, hword⟩ := hlast
      cases cs with
      | nil => cases he
      | cons c cs =>
          rw [List.cons_append, beginsWithKeyword_cons_cons, beginsWithKeyword_cons_cons]
          by_cases hc : c.toLower = k.toLower
          · -- a character of the word is not the last one, so that the rest has the same end
            have hfound : isWordChar c = true := by
              rw [← isWordChar_toLower, hc, isWordChar_toLower, hchars.1]
            have hrest : e ∈ cs.getLast? := by
              cases cs with
              | nil =>
                  obtain rfl : c = e := Option.some.inj he
                  rw [hfound] at hword
                  cases hword
              | cons d cs => exact he
            rw [ih hchars.2 ⟨e, hrest, hword⟩]
          · rw [beq_false_of_ne hc, Bool.false_and, Bool.false_and]

end SqlAccess.Text
