/-
**The places of a text.**

Whoever reads a text is at each character in a place: what the character stands in, and how many
parentheses are open there.  The place past a text is all that what follows has to know of it, so
that readings are put together like the texts.  One thing is to be heeded at a seam: the last
character of a text may begin or end a comment together with the first one of the next.

Main definitions:

* `SqlAccess.Sql.Place`, `SqlAccess.Sql.Place.next` — a place, and the place past a character;
* `SqlAccess.Sql.Place.past`, `SqlAccess.Sql.Place.placed` — **the place past a text, and the
  characters of a text with their places**;
* `SqlAccess.Sql.Place.Leads` — a text that leads from place to place, whatever follows;
* `SqlAccess.Sql.Calm` — a text in which no quote, no comment and no parenthesis can begin or end;
* `SqlAccess.Sql.Place.Fits` — what a place tells of the next character.

Main results:

* `SqlAccess.Sql.spotsIn_cons` — the characters of code are those in certain places;
* `SqlAccess.Sql.Place.past_append`, `SqlAccess.Sql.Place.placed_append` — texts put together;
* `SqlAccess.Sql.Place.past_congr` — which next characters make a difference;
* `SqlAccess.Sql.Place.eq_or_line_of_past_calm` — a calm text that leads to code begins in code or
  ends a line comment.
-/

import SqlAccess.Proofs.Sql.Lexer

set_option autoImplicit false

namespace SqlAccess.Sql

/-! ### Places -/

/-- What a character stands in, and how many parentheses are open there. -/
structure Place where
  mode : Mode
  depth : Nat
  deriving DecidableEq, Repr, Inhabited

namespace Place

/-- In code and outside all parentheses, where a text begins. -/
def start : Place := ⟨.code, 0⟩

/-- The place of the next character, which is given if there is one. -/
def next (p : Place) (c : Char) (ahead : Option Char) : Place where
  mode := p.mode.next c ahead
  depth :=
    if p.mode = .code ∧ c = '(' then p.depth + 1
    else if p.mode = .code ∧ c = ')' then p.depth - 1
    else p.depth

/-- The place past a text, when the character after it is given if there is one. -/
def past (p : Place) (ahead : Option Char) : List Char → Place
  | [] => p
  | c :: cs => (p.next c (cs.head?.or ahead)).past ahead cs

/-- The characters of a text with their places, if the first is in a given one. -/
def placed (p : Place) : List Char → List (Place × Char)
  | [] => []
  | c :: cs => (p, c) :: (p.next c cs.head?).placed cs

/-- The text leads from place to place, whatever follows it. -/
def Leads (p : Place) (cs : List Char) (q : Place) : Prop := ∀ ahead, p.past ahead cs = q

/-- Whether a character in this place is offered as one of code. -/
def Offers (p : Place) (c : Char) (ahead : Option Char) : Prop :=
  p.mode = .code ∧ p.mode.next c ahead = .code ∧ c ≠ '(' ∧ c ≠ ')'

instance (p : Place) (c : Char) (ahead : Option Char) : Decidable (p.Offers c ahead) :=
  inferInstanceAs (Decidable (_ ∧ _))

end Place

variable {p q r : Place} {ahead other before : Option Char} {c : Char} {cs ds : List Char}
  {depth : Nat}

/-- The characters of code are found by following the places. -/
theorem spotsIn_cons (p : Place) (before : Option Char) (c : Char) (cs : List Char) :
    spotsIn p.mode before p.depth (c :: cs) =
      (if p.Offers c cs.head? then [⟨c, p.depth, before, c :: cs⟩] else []) ++
        spotsIn (p.next c cs.head?).mode (some c) (p.next c cs.head?).depth cs := by
  rw [spotsIn, Place.next]
  unfold Place.Offers
  by_cases hmode : p.mode = .code
  · by_cases hopen : c = '('
    · simp [hmode, hopen]
    · by_cases hclose : c = ')'
      · simp [hmode, hclose]
      · by_cases hnext : Mode.code.next c cs.head? = .code
        · simp [hmode, hopen, hclose, hnext]
        · simp [hmode, hopen, hclose, hnext]
  · simp [hmode]

namespace Place

/-! ### Texts put together -/

theorem past_append (p : Place) (ahead : Option Char) (cs ds : List Char) :
    p.past ahead (cs ++ ds) = (p.past (ds.head?.or ahead) cs).past ahead ds := by
  induction cs generalizing p with
  | nil => rfl
  | cons c cs ih => rw [List.cons_append, past, past, List.head?_append, Option.or_assoc, ih]

theorem placed_append (p : Place) (cs ds : List Char) :
    p.placed (cs ++ ds) = p.placed cs ++ (p.past ds.head? cs).placed ds := by
  induction cs generalizing p with
  | nil => rfl
  | cons c cs ih =>
      rw [List.cons_append, placed, placed, past, List.cons_append, List.head?_append]
      cases cs with
      | nil => rfl
      | cons d cs => rw [ih]; rfl

theorem Leads.nil (p : Place) : p.Leads [] p := fun _ => rfl

theorem Leads.append (h : p.Leads cs q) (h' : q.Leads ds r) : p.Leads (cs ++ ds) r := by
  intro ahead
  rw [past_append, h, h']

theorem Leads.placed_append (h : p.Leads cs q) (ds : List Char) :
    p.placed (cs ++ ds) = p.placed cs ++ q.placed ds := by
  rw [Place.placed_append, h]

/-! ### What follows a text -/

/-- The next character neither begins nor ends a comment together with the one before it. -/
def Settles (ahead : Option Char) : Prop :=
  ahead ≠ some '-' ∧ ahead ≠ some '*' ∧ ahead ≠ some '/'

instance (ahead : Option Char) : Decidable (Settles ahead) :=
  inferInstanceAs (Decidable (_ ∧ _))

theorem next_congr (h : Settles ahead) (h' : Settles other) (p : Place) (c : Char) :
    p.next c ahead = p.next c other := by
  have hmode : p.mode.next c ahead = p.mode.next c other := by
    cases p.mode with
    | code => simp [Mode.next, h.1, h.2.1, h'.1, h'.2.1]
    | block => simp [Mode.next, h.2.2, h'.2.2]
    | _ => rfl
  rw [next, next, hmode]

/-- Of two next characters that settle, either may follow. -/
theorem past_congr (h : Settles ahead) (h' : Settles other) (p : Place) (cs : List Char) :
    p.past ahead cs = p.past other cs := by
  induction cs generalizing p with
  | nil => rfl
  | cons c cs ih =>
      have hnext : p.next c (cs.head?.or ahead) = p.next c (cs.head?.or other) := by
        cases cs with
        | nil => exact next_congr h h' p c
        | cons d cs => rfl
      rw [past, past, hnext, ih]

/-- The quote is one, and the mark of a comment is completed by the next character. -/
def Fits (p : Place) (ahead : Option Char) : Prop :=
  match p.mode with
  | .quoted q => isQuote q = true
  | .opening => ahead = some '*'
  | .closing => ahead = some '/'
  | .code | .line | .block => True

theorem fits_start (ahead : Option Char) : start.Fits ahead := trivial

theorem Fits.next (h : p.Fits (some c)) (ahead : Option Char) : (p.next c ahead).Fits ahead := by
  obtain ⟨m, depth⟩ := p
  change (Place.mk (m.next c ahead) _).Fits ahead
  cases m with
  | code =>
      by_cases hquote : isQuote c = true
      · rw [Mode.next, if_pos hquote]
        exact hquote
      · by_cases hline : c = '-' ∧ ahead = some '-'
        · rw [Mode.next, if_neg hquote, if_pos hline]
          trivial
        · by_cases hblock : c = '/' ∧ ahead = some '*'
          · rw [Mode.next, if_neg hquote, if_neg hline, if_pos hblock]
            exact hblock.2
          · rw [Mode.next, if_neg hquote, if_neg hline, if_neg hblock]
            trivial
  | quoted q =>
      rw [Mode.next]
      split
      · trivial
      · exact h
  | line =>
      rw [Mode.next]
      split <;> trivial
  | opening => trivial
  | block =>
      rw [Mode.next]
      split
      · rename_i hclosing
        exact hclosing.2
      · trivial
  | closing => trivial

theorem Fits.past (h : p.Fits (cs.head?.or ahead)) : (p.past ahead cs).Fits ahead := by
  induction cs generalizing p with
  | nil => exact h
  | cons c cs ih => exact ih (h.next _)

end Place

/-! ### Calm texts -/

/-- The characters that quote, begin a comment or are parentheses. -/
def stirring : List Char := ['\'', '"', '\x60', '-', '/', '(', ')']

/-- No character of the text is such a one. -/
def Calm (cs : List Char) : Prop := ∀ c ∈ cs, c ∉ stirring

theorem calm_iff : cs.any stirring.contains = false ↔ Calm cs := by
  simp only [List.any_eq_false, List.contains_iff_mem, Calm]

instance (cs : List Char) : Decidable (Calm cs) := decidable_of_iff _ calm_iff

theorem not_mem_stirring {f : Char → Bool} (hf : stirring.any f = false) (h : f c = true) :
    c ∉ stirring :=
  fun hc => List.any_eq_false.1 hf c hc h

namespace Calm

theorem of_forall {f : Char → Bool} (hf : stirring.any f = false) (h : ∀ c ∈ cs, f c = true) :
    Calm cs :=
  fun c hc => not_mem_stirring hf (h c hc)

theorem append (h : Calm cs) (h' : Calm ds) : Calm (cs ++ ds) := by
  intro c hc
  rcases List.mem_append.1 hc with hc | hc
  · exact h c hc
  · exact h' c hc

theorem next_eq (h : c ∉ stirring) (depth : Nat) (ahead : Option Char) :
    (⟨.code, depth⟩ : Place).next c ahead = ⟨.code, depth⟩ := by
  simp only [stirring, List.mem_cons, List.not_mem_nil, or_false, not_or] at h
  simp [Place.next, Mode.next, isQuote, h]

theorem offers (h : c ∉ stirring) (depth : Nat) (ahead : Option Char) :
    (⟨.code, depth⟩ : Place).Offers c ahead := by
  refine ⟨rfl, congrArg Place.mode (next_eq h depth ahead), ?_, ?_⟩
  · rintro rfl
    exact h (by decide)
  · rintro rfl
    exact h (by decide)

theorem leads (h : Calm cs) (depth : Nat) :
    (⟨.code, depth⟩ : Place).Leads cs ⟨.code, depth⟩ := by
  intro ahead
  induction cs with
  | nil => rfl
  | cons c cs ih =>
      rw [Calm, List.forall_mem_cons] at h
      rw [Place.past, next_eq h.1, ih h.2]

theorem placed (h : Calm cs) (depth : Nat) :
    (⟨.code, depth⟩ : Place).placed cs = cs.map (⟨.code, depth⟩, ·) := by
  induction cs with
  | nil => rfl
  | cons c cs ih =>
      rw [Calm, List.forall_mem_cons] at h
      rw [Place.placed, next_eq h.1, ih h.2, List.map_cons]

end Calm

namespace Place

/-- A calm text does not end quotes and block comments. -/
theorem mode_past_of_calm (h : Calm cs) (hstar : '*' ∉ cs) (ahead : Option Char)
    (hmode : (∃ c, p.mode = .quoted c ∧ isQuote c = true) ∨ p.mode = .block) :
    (p.past ahead cs).mode = p.mode := by
  induction cs generalizing p with
  | nil => rfl
  | cons c cs ih =>
      rw [Calm, List.forall_mem_cons] at h
      rw [List.mem_cons, not_or] at hstar
      have hnext (a : Option Char) : (p.next c a).mode = p.mode := by
        change p.mode.next c a = p.mode
        rcases hmode with ⟨q, hq, hquote⟩ | hblock
        · have hne : c ≠ q := by
            rintro rfl
            refine h.1 ?_
            simp only [isQuote, Bool.or_eq_true, beq_iff_eq] at hquote
            rcases hquote with (rfl | rfl) | rfl <;> decide
          rw [hq, Mode.next, if_neg hne]
        · rw [hblock, Mode.next, if_neg fun hc => hstar.1 hc.1.symm]
      rw [past, ih h.2 hstar.2 (by rwa [hnext]), hnext]

/-- **A calm text that leads to code begins there**, or it ends a line comment. -/
theorem eq_or_line_of_past_calm (h : Calm cs) (hstar : '*' ∉ cs) (hfits : p.Fits ahead)
    (hahead : Settles ahead) (hp : p.past none cs = ⟨.code, depth⟩) :
    p = ⟨.code, depth⟩ ∨ p.mode = .line := by
  obtain ⟨m, d⟩ := p
  have hkept := mode_past_of_calm (p := ⟨m, d⟩) h hstar none
  rw [hp] at hkept
  cases m with
  | code => exact .inl ((h.leads d none).symm.trans hp)
  | quoted q => exact nomatch hkept (.inl ⟨q, rfl, hfits⟩)
  | line => exact .inr rfl
  | opening => exact absurd hfits hahead.2.1
  | block => exact nomatch hkept (.inr rfl)
  | closing => exact absurd hfits hahead.2.2

end Place

end SqlAccess.Sql
