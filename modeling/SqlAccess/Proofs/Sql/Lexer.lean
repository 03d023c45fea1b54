/-
**Text read character by character.**

Code, quotes and comments are told apart here in one pass: each character stands in a mode, and it
and the one after it decide the mode of the next.  The characters of code that are found by leaping
over whole quotes and comments are those that stand in code.

Main definitions:

* `SqlAccess.Sql.Mode`, `SqlAccess.Sql.Mode.next` — what a character stands in, and what the next
  one does;
* `SqlAccess.Sql.lexed` — the characters of a text with their modes;
* `SqlAccess.Sql.spotsIn` — **the characters of code**, found in one pass.

Main results:

* `SqlAccess.Sql.spotsIn_quoted`, `SqlAccess.Sql.spotsIn_line`, `SqlAccess.Sql.spotsIn_block` — what
  is passed over inside quotes and comments is what is leapt over;
* `SqlAccess.Sql.spotsFrom_eq_spotsIn` — both ways find the same characters.
-/

import SqlAccess.Sql.Code

set_option autoImplicit false

namespace SqlAccess.Sql

/-! ### Modes -/

/-- What a character stands in. -/
inductive Mode where
  | code
  /-- Between quotes of a kind, the closing one included. -/
  | quoted (quote : Char)
  /-- In a line comment, up to the end of the line. -/
  | line
  /-- It completes the mark that opens a block comment. -/
  | opening
  | block
  /-- It completes the mark that closes a block comment. -/
  | closing
  deriving DecidableEq, Repr, Inhabited

/-- The mode of the next character, which is given if there is one. -/
def Mode.next (m : Mode) (c : Char) (ahead : Option Char) : Mode :=
  match m with
  | code =>
    if isQuote c then quoted c
    else if c = '-' ∧ ahead = some '-' then line
    else if c = '/' ∧ ahead = some '*' then opening
    else code
  | quoted q => if c = q then code else quoted q
  | line => if c = '\n' then code else line
  | opening => block
  | block => if c = '*' ∧ ahead = some '/' then closing else block
  | closing => code

/-- The characters of a text with their modes, if the first is in a given one. -/
def lexed (m : Mode) : List Char → List (Mode × Char)
  | [] => []
  | c :: cs => (m, c) :: lexed (m.next c cs.head?) cs

/-- The characters of code in a text whose first character is in a given mode: all that stand in
code and are neither quotes nor parentheses and begin no comment. -/
def spotsIn (m : Mode) (before : Option Char) (depth : Nat) : List Char → List Spot
  | [] => []
  | c :: cs =>
    let next := m.next c cs.head?
    if m = .code ∧ c = '(' then spotsIn next (some c) (depth + 1) cs
    else if m = .code ∧ c = ')' then spotsIn next (some c) (depth - 1) cs
    else if m = .code ∧ next = .code then
      ⟨c, depth, before, c :: cs⟩ :: spotsIn next (some c) depth cs
    else spotsIn next (some c) depth cs

/-! ### Passing over quotes and comments -/

variable {m : Mode} {before : Option Char} {depth : Nat} {c mark : Char} {cs : List Char}

theorem spotsIn_cons_of_ne_code (h : m ≠ .code) :
    spotsIn m before depth (c :: cs) = spotsIn (m.next c cs.head?) (some c) depth cs := by
  simp only [spotsIn, h, false_and, if_false]

theorem skipPast_cons_self (mark : Char) (cs : List Char) : skipPast mark (mark :: cs) = cs := by
  simp [skipPast]

theorem skipPast_cons_of_ne (h : c ≠ mark) (cs : List Char) :
    skipPast mark (c :: cs) = skipPast mark cs := by
  simp [skipPast, h]

theorem spotsIn_quoted (mark : Char) (before : Option Char) (depth : Nat) (cs : List Char) :
    spotsIn (.quoted mark) before depth cs =
      spotsIn .code (some mark) depth (skipPast mark cs) := by
  induction cs generalizing before with
  | nil => rfl
  | cons c cs ih =>
      rw [spotsIn_cons_of_ne_code (m := .quoted mark) nofun]
      by_cases hc : c = mark
      · rw [hc, skipPast_cons_self, Mode.next, if_pos rfl]
      · rw [skipPast_cons_of_ne hc, Mode.next, if_neg hc, ih]

theorem spotsIn_line (before : Option Char) (depth : Nat) (cs : List Char) :
    spotsIn .line before depth cs = spotsIn .code (some '\n') depth (skipPast '\n' cs) := by
  induction cs generalizing before with
  | nil => rfl
  | cons c cs ih =>
      rw [spotsIn_cons_of_ne_code (m := .line) nofun]
      by_cases hc : c = '\n'
      · rw [hc, skipPast_cons_self, Mode.next, if_pos rfl]
      · rw [skipPast_cons_of_ne hc, Mode.next, if_neg hc, ih]

theorem skipBlock_cons_of_closing (cs : List Char) : skipBlock ('*' :: '/' :: cs) = cs := by
  have hprefix : ['*', '/'].isPrefixOf? ('*' :: '/' :: cs) = some cs := rfl
  rw [skipBlock, Text.cutAt?, hprefix]

theorem skipBlock_cons_of_not (h : ¬ (c = '*' ∧ cs.head? = some '/')) :
    skipBlock (c :: cs) = skipBlock cs := by
  have hprefix : ['*', '/'].isPrefixOf? (c :: cs) = none := by
    cases hrest : ['*', '/'].isPrefixOf? (c :: cs) with
    | none => rfl
    | some rest =>
        obtain ⟨rfl, rfl⟩ := List.cons.inj (Text.eq_append_of_isPrefixOf? hrest)
        exact absurd ⟨rfl, rfl⟩ h
  unfold skipBlock
  rw [Text.cutAt?, hprefix]
  cases hcut : Text.cutAt? ['*', '/'] cs <;> simp

theorem spotsIn_block (before : Option Char) (depth : Nat) (cs : List Char) :
    spotsIn .block before depth cs = spotsIn .code (some '/') depth (skipBlock cs) := by
  induction cs generalizing before with
  | nil => rfl
  | cons c cs ih =>
      rw [spotsIn_cons_of_ne_code (m := .block) nofun, Mode.next]
      by_cases hclosing : c = '*' ∧ cs.head? = some '/'
      · obtain ⟨rfl, hhead⟩ := hclosing
        obtain ⟨cs, rfl⟩ := List.head?_eq_some_iff.1 hhead
        rw [if_pos ⟨rfl, rfl⟩, skipBlock_cons_of_closing,
          spotsIn_cons_of_ne_code (m := .closing) nofun, Mode.next]
      · rw [if_neg hclosing, skipBlock_cons_of_not hclosing, ih]

/-! ### The two ways -/

/-- **The characters of code are those that stand in code.** -/
theorem spotsFrom_eq_spotsIn (before : Option Char) (depth : Nat) (cs : List Char) :
    spotsFrom before depth cs = spotsIn .code before depth cs := by
  induction before, depth, cs using spotsFrom.induct with
  | case1 before depth => rw [spotsFrom, spotsIn]
  | case2 before depth c cs hquote ih =>
      have hopen : c ≠ '(' := by rintro rfl; cases hquote
      have hclose : c ≠ ')' := by rintro rfl; cases hquote
      rw [spotsFrom, if_pos hquote, ih]
      simp [spotsIn, Mode.next, hquote, hopen, hclose, spotsIn_quoted]
  | case3 before depth c cs hquote hline ih =>
      obtain ⟨rfl, hhead⟩ := hline
      obtain ⟨cs, rfl⟩ := List.head?_eq_some_iff.1 hhead
      rw [spotsFrom, if_neg hquote, if_pos ⟨rfl, rfl⟩, ih, skipPast_cons_of_ne (by decide)]
      simp [spotsIn, Mode.next, isQuote, spotsIn_line]
  | case4 before depth c cs hquote hline hblock ih =>
      obtain ⟨rfl, hhead⟩ := hblock
      obtain ⟨cs, rfl⟩ := List.head?_eq_some_iff.1 hhead
      rw [spotsFrom, if_neg hquote, if_neg hline, if_pos ⟨rfl, rfl⟩, ih]
      simp [spotsIn, Mode.next, isQuote, spotsIn_block]
  | case5 before depth cs hquote hline hblock ih =>
      rw [spotsFrom, if_neg hquote, if_neg hline, if_neg hblock, if_pos rfl, ih]
      simp [spotsIn, Mode.next, isQuote]
  | case6 before depth cs hquote hline hblock hopen ih =>
      rw [spotsFrom, if_neg hquote, if_neg hline, if_neg hblock, if_neg hopen, if_pos rfl, ih]
      simp [spotsIn, Mode.next, isQuote]
  | case7 before depth c cs hquote hline hblock hopen hclose ih =>
      rw [spotsFrom, if_neg hquote, if_neg hline, if_neg hblock, if_neg hopen, if_neg hclose, ih]
      simp [spotsIn, Mode.next, hquote, hline, hblock, hopen, hclose]

end SqlAccess.Sql
