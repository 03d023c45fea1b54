/-
**Accepted identifiers.**

A text that passes the test of identifiers is one or more parts joined by dots, each a word or a
text between double quotes in which a double quote stands twice.  Whoever comes to such a text in
code leaves it in code, with as many parentheses open as before, and has met no comment: its
characters stand between double quotes, or in code if they are those of a word, a dot or a double
quote.

Main definitions:

* `SqlAccess.Sql.Doubled`, `SqlAccess.Sql.IsPart`, `SqlAccess.Sql.IsIdentifier` — the grammar;
* `SqlAccess.Sql.InName`, `SqlAccess.Sql.Place.Names` — the places of a text of names.

Main results:

* `SqlAccess.Sql.isIdentifier_of_test` — **what is accepted follows the grammar**;
* `SqlAccess.Sql.IsIdentifier.names` — **an identifier leads from code back to code**.
-/

import Mathlib.Data.List.TakeWhile
import SqlAccess.Proofs.Sql.Place
import SqlAccess.Sql.Identifier

set_option autoImplicit false

namespace SqlAccess.Sql

variable {cs ds part rest : List Char} {c : Char} {seen depth : Nat} {p q r : Place}

/-! ### The grammar -/

/-- What stands between double quotes: each double quote in it is written twice. -/
inductive Doubled : List Char → Prop where
  | nil : Doubled []
  | quote {cs : List Char} : Doubled cs → Doubled ('"' :: '"' :: cs)
  | char {c : Char} {cs : List Char} : c ≠ '"' → Doubled cs → Doubled (c :: cs)

/-- A part of an identifier. -/
inductive IsPart : List Char → Prop where
  | word {c : Char} {cs : List Char} :
      isStart c = true → (∀ d ∈ cs, isFollow d = true) → IsPart (c :: cs)
  | quoted {cs : List Char} : Doubled cs → cs ≠ [] → IsPart ('"' :: (cs ++ ['"']))

/-- One or more parts joined by dots. -/
inductive IsIdentifier : List Char → Prop where
  | part {part : List Char} : IsPart part → IsIdentifier part
  | dot {part cs : List Char} :
      IsPart part → IsIdentifier cs → IsIdentifier (part ++ '.' :: cs)

theorem isFollow_of_isStart (h : isStart c = true) : isFollow c = true := by
  simp only [isStart, Bool.or_eq_true] at h
  simp only [isFollow, Char.isAlphanum, Bool.or_eq_true]
  rcases h with hunder | halpha
  · exact .inl (.inl hunder)
  · exact .inr (.inl halpha)

/-! ### What is accepted -/

theorem exists_doubled_of_skipQuotedPart (h : skipQuotedPart seen cs = .ok rest) :
    ∃ body, Doubled body ∧ cs = body ++ '"' :: rest ∧ (seen = 0 → body ≠ []) := by
  fun_induction skipQuotedPart seen cs with
  | case1 => cases h
  | case2 seen cs ih =>
      obtain ⟨body, hbody, rfl, -⟩ := ih h
      exact ⟨'"' :: '"' :: body, .quote hbody, rfl, fun _ => List.cons_ne_nil _ _⟩
  | case3 => cases h
  | case4 seen cs hseen =>
      cases h
      exact ⟨[], .nil, rfl, fun hzero => absurd hzero hseen⟩
  | case5 seen c cs _ hc ih =>
      obtain ⟨body, hbody, rfl, -⟩ := ih h
      exact ⟨c :: body, .char hc hbody, rfl, fun _ => List.cons_ne_nil _ _⟩

theorem exists_part_of_skipPlainPart (h : skipPlainPart cs = .ok rest) :
    ∃ part, IsPart part ∧ cs = part ++ rest := by
  cases cs with
  | nil => cases h
  | cons c cs =>
      rw [skipPlainPart] at h
      split at h
      · rename_i hstart
        cases h
        refine ⟨c :: cs.takeWhile isFollow, .word hstart fun d hd => List.mem_takeWhile_imp hd, ?_⟩
        rw [List.cons_append, List.takeWhile_append_dropWhile]
      · split at h <;> cases h

theorem exists_part_of_skipPart (h : skipPart cs = .ok rest) :
    ∃ part, IsPart part ∧ cs = part ++ rest := by
  unfold skipPart at h
  split at h
  · obtain ⟨body, hbody, rfl, hne⟩ := exists_doubled_of_skipQuotedPart h
    exact ⟨'"' :: (body ++ ['"']), .quoted hbody (hne rfl), by simp⟩
  · exact exists_part_of_skipPlainPart h

theorem isIdentifier_of_checkParts (h : checkParts cs = .ok ()) : IsIdentifier cs := by
  fun_induction checkParts cs with
  | case1 => cases h
  | case2 cs hskip =>
      obtain ⟨part, hpart, rfl⟩ := exists_part_of_skipPart hskip
      rw [List.append_nil]
      exact .part hpart
  | case3 => cases h
  | case4 cs rest _ hskip ih =>
      obtain ⟨part, hpart, rfl⟩ := exists_part_of_skipPart hskip
      exact .dot hpart (ih h)
  | case5 => cases h

/-- **What is accepted follows the grammar.** -/
theorem isIdentifier_of_test {text : String} (h : testIdentifier text = .ok ()) :
    IsIdentifier text.toList := by
  simp only [testIdentifier] at h
  split at h
  · cases h
  · split at h
    · cases h
    · exact isIdentifier_of_checkParts h

/-! ### The places of names -/

/-- A character between double quotes, or one in code that may stand in a name. -/
def InName (depth : Nat) (x : Place × Char) : Prop :=
  x.1 = ⟨.quoted '"', depth⟩ ∨
    x.1 = ⟨.code, depth⟩ ∧ (isFollow x.2 = true ∨ x.2 = '.' ∨ x.2 = '"')

/-- The text leads from place to place, and on the way are characters of names. -/
structure Place.Names (depth : Nat) (p : Place) (cs : List Char) (q : Place) : Prop where
  leads : p.Leads cs q
  inName : ∀ x ∈ p.placed cs, InName depth x

namespace Place.Names

theorem nil (depth : Nat) (p : Place) : p.Names depth [] p where
  leads := .nil p
  inName := nofun

theorem append (h : p.Names depth cs q) (h' : q.Names depth ds r) :
    p.Names depth (cs ++ ds) r where
  leads := h.leads.append h'.leads
  inName x hx := by
    rw [h.leads.placed_append, List.mem_append] at hx
    exact hx.elim (h.inName x) (h'.inName x)

/-- A character and what it leads to. -/
theorem cons (hc : InName depth (p, c)) (hnext : ∀ ahead, p.next c ahead = q)
    (h : q.Names depth cs r) : p.Names depth (c :: cs) r where
  leads ahead := by rw [Place.past, hnext, h.leads]
  inName x hx := by
    rw [Place.placed, hnext] at hx
    rcases List.mem_cons.1 hx with rfl | hx
    · exact hc
    · exact h.inName x hx

/-- The characters of a word. -/
theorem word (h : ∀ d ∈ cs, isFollow d = true) (depth : Nat) :
    (⟨.code, depth⟩ : Place).Names depth cs ⟨.code, depth⟩ := by
  have hcalm : Calm cs := .of_forall (f := isFollow) rfl h
  refine ⟨hcalm.leads depth, fun x hx => ?_⟩
  rw [hcalm.placed, List.mem_map] at hx
  obtain ⟨d, hd, rfl⟩ := hx
  exact .inr ⟨rfl, .inl (h d hd)⟩

/-- A double quote in code. -/
theorem quote (h : (⟨.quoted '"', depth⟩ : Place).Names depth cs q) :
    (⟨.code, depth⟩ : Place).Names depth ('"' :: cs) q :=
  cons (.inr ⟨rfl, .inr (.inr rfl)⟩) (fun _ => rfl) h

/-- A double quote between double quotes. -/
theorem unquote (h : (⟨.code, depth⟩ : Place).Names depth cs q) :
    (⟨.quoted '"', depth⟩ : Place).Names depth ('"' :: cs) q :=
  cons (.inl rfl) (fun _ => rfl) h

end Place.Names

/-- What stands between double quotes leads back there. -/
theorem Doubled.names (h : Doubled cs) (depth : Nat) :
    (⟨.quoted '"', depth⟩ : Place).Names depth cs ⟨.quoted '"', depth⟩ := by
  induction h with
  | nil => exact .nil depth _
  | quote _ ih => exact .unquote (.quote ih)
  | char hc _ ih =>
      refine .cons (.inl rfl) (fun ahead => ?_) ih
      simp [Place.next, Mode.next, hc]

theorem IsPart.names (h : IsPart part) (depth : Nat) :
    (⟨.code, depth⟩ : Place).Names depth part ⟨.code, depth⟩ := by
  cases h with
  | word hstart hfollow =>
      exact .word (List.forall_mem_cons.2 ⟨isFollow_of_isStart hstart, hfollow⟩) depth
  | quoted hbody _ => exact .quote ((hbody.names depth).append (.unquote (.nil depth _)))

/-- **An identifier leads from code back to code**, with as many parentheses open as before. -/
theorem IsIdentifier.names (h : IsIdentifier cs) (depth : Nat) :
    (⟨.code, depth⟩ : Place).Names depth cs ⟨.code, depth⟩ := by
  induction h with
  | part hpart => exact hpart.names depth
  | dot hpart _ ih =>
      refine (hpart.names depth).append (.cons (.inr ⟨rfl, .inr (.inl rfl)⟩) (fun ahead => ?_) ih)
      exact Calm.next_eq (by decide) depth ahead

end SqlAccess.Sql
