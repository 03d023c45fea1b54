/-
**The markers that get a number.**

The markers of a statement are counted by a reader that knows quotes and comments.  They are
numbered by another one, which knows two of the three quotes and no comment.  Both are followed
here through a text, and the numbers go to the counted markers unless something the second reader
overlooks holds a `?` or one of the two quotes.

Main definitions:

* `SqlAccess.Sql.marksFrom` — where a reader finds the markers of a text;
* `SqlAccess.Sql.markerPlaces` — where the counted markers stand;
* `SqlAccess.Postgres.numberedAt` — the text with numbers in given places;
* `SqlAccess.Postgres.barePlaces` — where a `?` stands outside the two quotes;
* `SqlAccess.Sql.Mode.hidden`, `SqlAccess.Sql.Plain` — what the second reader overlooks, and that
  nothing in there disturbs it.

Main results:

* `SqlAccess.Sql.markerPlaces_eq_marksFrom` — the counted markers, found in one pass;
* `SqlAccess.Postgres.numbered_eq_numberedAt_barePlaces` — which places of any text get a number;
* `SqlAccess.Postgres.numbered_eq_iff` — the counted markers are numbered just where both readers
  find the same;
* `SqlAccess.Postgres.numbered_of_plain` — **exactly the counted markers of a plain text are
  numbered**, from one on;
* `SqlAccess.Postgres.numbered_comment` — a `?` in a comment takes the number of a marker.
-/

import Mathlib.Data.List.Sort
import SqlAccess.Postgres.Marker
import SqlAccess.Proofs.Sql.Lexer

set_option autoImplicit false

namespace SqlAccess

namespace Sql

/-! ### The places of markers -/

section Reader

variable {σ : Type} [DecidableEq σ] {next : σ → Char → Option Char → σ} {code s : σ}
  {place p : Nat} {cs : List Char}

/-- Where a reader finds markers in the rest of a text: each `?` it comes to in the state of code.
The first character stands at a place, and `s` is the state there. -/
def marksFrom (next : σ → Char → Option Char → σ) (code s : σ) (place : Nat) :
    List Char → List Nat
  | [] => []
  | c :: cs =>
    if s = code ∧ c = '?' then place :: marksFrom next code (next s c cs.head?) (place + 1) cs
    else marksFrom next code (next s c cs.head?) (place + 1) cs

theorem le_of_mem_marksFrom (h : p ∈ marksFrom next code s place cs) : place ≤ p := by
  induction cs generalizing s place with
  | nil => cases h
  | cons c cs ih =>
      rw [marksFrom] at h
      split at h
      · rcases List.mem_cons.1 h with rfl | h
        · exact Nat.le_refl _
        · exact Nat.le_of_succ_le (ih h)
      · exact Nat.le_of_succ_le (ih h)

theorem pairwise_marksFrom (next : σ → Char → Option Char → σ) (code s : σ) (place : Nat)
    (cs : List Char) : (marksFrom next code s place cs).Pairwise (· < ·) := by
  induction cs generalizing s place with
  | nil => exact .nil
  | cons c cs ih =>
      rw [marksFrom]
      split
      · exact .cons (fun p hp => le_of_mem_marksFrom hp) (ih _ _)
      · exact ih _ _

theorem getElem?_of_mem_marksFrom (h : p ∈ marksFrom next code s place cs) :
    cs[p - place]? = some '?' := by
  induction cs generalizing s place with
  | nil => cases h
  | cons c cs ih =>
      have hrest : p ∈ marksFrom next code (next s c cs.head?) (place + 1) cs →
          (c :: cs)[p - place]? = some '?' := by
        intro hp
        have hle := le_of_mem_marksFrom hp
        obtain ⟨k, rfl⟩ : ∃ k, p = place + 1 + k := ⟨p - (place + 1), by omega⟩
        rw [Nat.add_assoc, Nat.add_sub_cancel_left, Nat.add_comm 1, List.getElem?_cons_succ,
          ← ih hp, Nat.add_sub_cancel_left]
      rw [marksFrom] at h
      split at h
      · rename_i hmark
        rcases List.mem_cons.1 h with rfl | h
        · rw [Nat.sub_self, List.getElem?_cons_zero, hmark.2]
        · exact hrest h
      · exact hrest h

end Reader

/-! ### The counted markers -/

/-- Where the markers among some characters of code stand in a text of a given length. -/
def placesOf (length : Nat) (ss : List Spot) : List Nat :=
  (ss.filter fun s => s.char == '?').map fun s => length - s.text.length

/-- Where the markers stand that are counted in a text. -/
def markerPlaces (cs : List Char) : List Nat := placesOf cs.length (spots cs)

theorem length_markerPlaces (cs : List Char) : (markerPlaces cs).length = markerCount cs := by
  rw [markerPlaces, placesOf, List.length_map, markerCount, List.countP_eq_length_filter]

theorem placesOf_spotsIn (length : Nat) (m : Mode) (before : Option Char) (depth : Nat)
    (cs : List Char) (h : cs.length ≤ length) :
    placesOf length (spotsIn m before depth cs) =
      marksFrom Mode.next .code m (length - cs.length) cs := by
  induction cs generalizing m before depth with
  | nil => rfl
  | cons c cs ih =>
      rw [List.length_cons] at h
      have hplace : length - (c :: cs).length + 1 = length - cs.length := by
        rw [List.length_cons]
        omega
      rw [spotsIn, marksFrom, hplace]
      by_cases hmark : m = .code ∧ c = '?'
      · obtain ⟨rfl, rfl⟩ := hmark
        simp [Mode.next, isQuote, placesOf, ← ih _ (some '?') depth (by omega)]
      · rw [if_neg hmark]
        split
        · exact ih _ _ _ (by omega)
        · split
          · exact ih _ _ _ (by omega)
          · split
            · rename_i hspot
              have hc : c ≠ '?' := fun hc => hmark ⟨hspot.1, hc⟩
              rw [placesOf, List.filter_cons_of_neg (by simpa using hc)]
              exact ih _ _ _ (by omega)
            · exact ih _ _ _ (by omega)

/-- **The counted markers are the `?` in code.** -/
theorem markerPlaces_eq_marksFrom (cs : List Char) :
    markerPlaces cs = marksFrom Mode.next .code .code 0 cs := by
  rw [markerPlaces, spots, spotsFrom_eq_spotsIn, placesOf_spotsIn _ _ _ _ _ (Nat.le_refl _),
    Nat.sub_self]

theorem pairwise_markerPlaces (cs : List Char) : (markerPlaces cs).Pairwise (· < ·) :=
  markerPlaces_eq_marksFrom cs ▸ pairwise_marksFrom _ _ _ _ _

theorem getElem?_of_mem_markerPlaces {cs : List Char} {p : Nat} (h : p ∈ markerPlaces cs) :
    cs[p]? = some '?' := by
  rw [markerPlaces_eq_marksFrom] at h
  exact getElem?_of_mem_marksFrom h

/-! ### What is overlooked -/

/-- Whether a character of this mode stands in a comment, or between quotes that are neither
apostrophes nor double quotes. -/
def Mode.hidden : Mode → Bool
  | line | opening | block | closing => true
  | quoted q => q != '\'' && q != '"'
  | code => false

/-- A hidden character is neither a marker nor one of the two quotes. -/
def Mode.Harmless (p : Mode × Char) : Prop :=
  p.1.hidden = true → p.2 ≠ '?' ∧ p.2 ≠ '\'' ∧ p.2 ≠ '"'

instance (p : Mode × Char) : Decidable (Mode.Harmless p) :=
  inferInstanceAs (Decidable (_ → _))

/-- No marker, apostrophe or double quote stands in a comment or between grave accents. -/
def Plain (cs : List Char) : Prop := ∀ p ∈ lexed .code cs, Mode.Harmless p

instance (cs : List Char) : Decidable (Plain cs) :=
  inferInstanceAs (Decidable (∀ p ∈ lexed .code cs, _))

end Sql

namespace Postgres

open Sql

/-! ### The places that get a number -/

/-- The quote that is open past a character, for a reader that knows two quotes. -/
def quoteNext (quote : Option Char) (c : Char) (_ : Option Char) : Option Char :=
  match quote with
  | some q => if c = q then none else some q
  | none => if c = '\'' ∨ c = '"' then some c else none

/-- Where a `?` stands outside apostrophes and double quotes. -/
def barePlaces (cs : List Char) : List Nat := marksFrom quoteNext none none 0 cs

/-- The rest of a text with a number for each character in one of the places, when its first
character stands at a place and `count` numbers came before. -/
def numberedAt (places : List Nat) (place count : Nat) : List Char → List Char
  | [] => []
  | c :: cs =>
    if place ∈ places then
      '$' :: Text.digits (count + 1) ++ numberedAt places (place + 1) (count + 1) cs
    else c :: numberedAt places (place + 1) count cs

/-- A place that has been passed does not matter any more. -/
theorem numberedAt_cons_of_lt {passed place : Nat} (h : passed < place) (places : List Nat)
    (count : Nat) (cs : List Char) :
    numberedAt (passed :: places) place count cs = numberedAt places place count cs := by
  induction cs generalizing place count with
  | nil => rfl
  | cons c cs ih =>
      have hmem : place ∈ passed :: places ↔ place ∈ places := by
        rw [List.mem_cons, or_iff_right (by omega)]
      simp only [numberedAt, hmem, ih (Nat.lt_succ_of_lt h)]

theorem numberedFrom_eq_numberedAt (quote : Option Char) (place count : Nat) (cs : List Char) :
    numberedFrom quote count cs =
      numberedAt (marksFrom quoteNext none quote place cs) place count cs := by
  induction cs generalizing quote place count with
  | nil => rfl
  | cons c cs ih =>
      -- the places of the rest come after this one
      have hahead (q : Option Char) : place ∉ marksFrom quoteNext none q (place + 1) cs :=
        fun h => Nat.not_succ_le_self _ (le_of_mem_marksFrom h)
      cases quote with
      | some q => simp only [numberedFrom, marksFrom, reduceCtorEq, false_and, if_false,
          numberedAt, if_neg (hahead _), ← ih, quoteNext]
      | none =>
          simp only [numberedFrom, marksFrom, true_and, quoteNext]
          by_cases hquote : c = '\'' ∨ c = '"'
          · have hmark : c ≠ '?' := by rintro rfl; revert hquote; decide
            rw [if_pos hquote, if_neg hmark, if_pos hquote, numberedAt, if_neg (hahead _), ← ih]
          · rw [if_neg hquote, if_neg hquote]
            split
            · rw [numberedAt, if_pos (List.mem_cons_self ..),
                numberedAt_cons_of_lt (Nat.lt_succ_self _), ← ih]
            · rw [numberedAt, if_neg (hahead _), ← ih]

/-- **Which places of a text get a number**: those of a `?` outside the two quotes. -/
theorem numbered_eq_numberedAt_barePlaces (sql : String) :
    (numbered sql).toList = numberedAt (barePlaces sql.toList) 0 0 sql.toList := by
  rw [numbered, String.toList_ofList, numberedFrom_eq_numberedAt none 0 0, barePlaces]

/-! ### Other places, another text -/

/-- Where only markers get numbers, the text tells which of them did. -/
theorem mem_iff_of_numberedAt_eq {ps qs : List Nat} {place count : Nat} {cs : List Char}
    (hps : ∀ p ∈ ps, place ≤ p → cs[p - place]? = some '?')
    (hqs : ∀ q ∈ qs, place ≤ q → cs[q - place]? = some '?')
    (h : numberedAt ps place count cs = numberedAt qs place count cs) {p : Nat} (hp : place ≤ p) :
    p ∈ ps ↔ p ∈ qs := by
  induction cs generalizing place count with
  | nil =>
      constructor <;> intro hmem
      · exact nomatch hps p hmem hp
      · exact nomatch hqs p hmem hp
  | cons c cs ih =>
      have hrest {rs : List Nat} (hrs : ∀ r ∈ rs, place ≤ r → (c :: cs)[r - place]? = some '?') :
          ∀ r ∈ rs, place + 1 ≤ r → cs[r - (place + 1)]? = some '?' := by
        intro r hr hle
        rw [← hrs r hr (by omega), ← List.getElem?_cons_succ (a := c)]
        congr 1
        omega
      have hhead {rs : List Nat} (hrs : ∀ r ∈ rs, place ≤ r → (c :: cs)[r - place]? = some '?')
          (hr : place ∈ rs) : c = '?' := by
        have := hrs place hr (Nat.le_refl _)
        rwa [Nat.sub_self, List.getElem?_cons_zero, Option.some.injEq] at this
      simp only [numberedAt] at h
      by_cases hp' : place ∈ ps <;> by_cases hq' : place ∈ qs
      · rw [if_pos hp', if_pos hq'] at h
        rcases Nat.eq_or_lt_of_le hp with rfl | hlt
        · exact iff_of_true hp' hq'
        · exact ih (hrest hps) (hrest hqs) (List.append_cancel_left h) hlt
      · rw [if_pos hp', if_neg hq', hhead hps hp'] at h
        exact absurd (List.cons.inj h).1 (by decide)
      · rw [if_neg hp', if_pos hq', hhead hqs hq'] at h
        exact absurd (List.cons.inj h).1 (by decide)
      · rw [if_neg hp', if_neg hq'] at h
        rcases Nat.eq_or_lt_of_le hp with rfl | hlt
        · exact iff_of_false hp' hq'
        · exact ih (hrest hps) (hrest hqs) (List.cons.inj h).2 hlt

/-- **The counted markers are numbered just where both readers find the same.** -/
theorem numbered_eq_iff (sql : String) :
    (numbered sql).toList = numberedAt (markerPlaces sql.toList) 0 0 sql.toList ↔
      barePlaces sql.toList = markerPlaces sql.toList := by
  constructor
  · intro h
    rw [numbered_eq_numberedAt_barePlaces] at h
    have hmem (p : Nat) : p ∈ barePlaces sql.toList ↔ p ∈ markerPlaces sql.toList :=
      mem_iff_of_numberedAt_eq (fun p hp _ => getElem?_of_mem_marksFrom hp)
        (fun p hp _ => getElem?_of_mem_markerPlaces hp) h (Nat.zero_le p)
    exact (pairwise_marksFrom _ _ _ _ _).eq_of_mem_iff (pairwise_markerPlaces _) hmem
  · intro h
    rw [numbered_eq_numberedAt_barePlaces, h]

/-! ### The two readers -/

/-- The quote that is open for the reader that knows two of them. -/
def knownQuote (m : Mode) : Option Char :=
  match m with
  | .quoted q => if m.hidden then none else some q
  | _ => none

theorem knownQuote_quoted {q : Char} (h : ¬ (Mode.quoted q).hidden = true) :
    knownQuote (.quoted q) = some q := by
  simp only [knownQuote, if_neg h]

theorem knownQuote_of_hidden {m : Mode} (h : m.hidden = true) : knownQuote m = none := by
  cases m with
  | quoted q => simp only [knownQuote, h, if_true]
  | _ => rfl

/-- What is hidden ends in code or leads to what is hidden. -/
theorem knownQuote_next_of_hidden {m : Mode} (h : m.hidden = true) (c : Char)
    (ahead : Option Char) : knownQuote (m.next c ahead) = none := by
  cases m with
  | code => cases h
  | quoted q =>
      simp only [Mode.next]
      split
      · rfl
      · exact knownQuote_of_hidden h
  | line => simp only [Mode.next]; split <;> rfl
  | opening => rfl
  | block => simp only [Mode.next]; split <;> rfl
  | closing => rfl

/-- In code, the second reader opens the quotes it knows. -/
theorem knownQuote_next_code (c : Char) (ahead : Option Char) :
    knownQuote (Mode.code.next c ahead) = if c = '\'' ∨ c = '"' then some c else none := by
  by_cases hq : c = '\'' ∨ c = '"'
  · rcases hq with rfl | rfl <;> rfl
  · rw [if_neg hq]
    simp only [Mode.next]
    split
    · exact knownQuote_of_hidden (by simpa [Mode.hidden, not_or] using hq)
    · split
      · rfl
      · split <;> rfl

/-- **Past a harmless character the readers still agree** on what is quoted. -/
theorem knownQuote_next {m : Mode} {c : Char} (h : Mode.Harmless (m, c)) (ahead : Option Char) :
    knownQuote (m.next c ahead) = quoteNext (knownQuote m) c ahead := by
  by_cases hm : m.hidden = true
  · obtain ⟨-, happ, hdouble⟩ := h hm
    rw [knownQuote_next_of_hidden hm, knownQuote_of_hidden hm, quoteNext,
      if_neg (not_or.2 ⟨happ, hdouble⟩)]
  · cases m with
    | code => exact knownQuote_next_code c ahead
    | quoted q =>
        rw [knownQuote_quoted hm, quoteNext, Mode.next]
        split
        · rfl
        · exact knownQuote_quoted hm
    | _ => exact absurd rfl hm

/-- A harmless `?` is a marker for both readers or for neither. -/
theorem mark_iff {m : Mode} {c : Char} (h : Mode.Harmless (m, c)) :
    knownQuote m = none ∧ c = '?' ↔ m = .code ∧ c = '?' := by
  refine and_congr_left fun hc => ?_
  have hm : ¬ m.hidden = true := fun hm => (h hm).1 hc
  cases m with
  | code => exact iff_of_true rfl rfl
  | quoted q =>
      rw [knownQuote_quoted hm]
      exact iff_of_false nofun nofun
  | _ => exact absurd rfl hm

/-- **Both readers find the same markers** if nothing disturbs the second. -/
theorem marksFrom_quoteNext (m : Mode) (place : Nat) (cs : List Char)
    (h : ∀ p ∈ lexed m cs, Mode.Harmless p) :
    marksFrom quoteNext none (knownQuote m) place cs = marksFrom Mode.next .code m place cs := by
  induction cs generalizing m place with
  | nil => rfl
  | cons c cs ih =>
      rw [lexed, List.forall_mem_cons] at h
      obtain ⟨hc, hcs⟩ := h
      simp only [marksFrom, mark_iff hc, ← knownQuote_next hc, ih _ _ hcs]

/-! ### Plain texts -/

/-- **Exactly the counted markers of a plain text are numbered**, in order and from one on, and all
else stays as it is. -/
theorem numbered_of_plain (sql : String) (h : Plain sql.toList) :
    (numbered sql).toList = numberedAt (markerPlaces sql.toList) 0 0 sql.toList ∧
      (markerPlaces sql.toList).length = markerCount sql.toList ∧
      (markerPlaces sql.toList).Pairwise (· < ·) ∧
      ∀ p ∈ markerPlaces sql.toList, sql.toList[p]? = some '?' := by
  refine ⟨?_, length_markerPlaces _, pairwise_markerPlaces _,
    fun p hp => getElem?_of_mem_markerPlaces hp⟩
  rw [numbered_eq_iff, markerPlaces_eq_marksFrom]
  exact marksFrom_quoteNext .code 0 _ h

theorem numbered_of_plain_comment :
    Plain "SELECT '?' /* why */ FROM t WHERE a = ? AND b = ?".toList ∧
      (numbered "SELECT '?' /* why */ FROM t WHERE a = ? AND b = ?").toList =
        numberedAt [38, 48] 0 0 "SELECT '?' /* why */ FROM t WHERE a = ? AND b = ?".toList := by
  have hplain : Plain "SELECT '?' /* why */ FROM t WHERE a = ? AND b = ?".toList := by decide
  refine ⟨hplain, (numbered_of_plain _ hplain).1.trans ?_⟩
  rw [markerPlaces_eq_marksFrom]
  rfl

/-- **A `?` in a comment takes the number of a marker**: one marker is counted here, two are
numbered, and the text of the comment changes. -/
theorem numbered_comment :
    markerCount "SELECT a /* why? */ FROM t WHERE b = ?".toList = 1 ∧
      numbered "SELECT a /* why? */ FROM t WHERE b = ?" =
        "SELECT a /* why$1 */ FROM t WHERE b = $2" ∧
      (numbered "SELECT a /* why? */ FROM t WHERE b = ?").toList ≠
        numberedAt (markerPlaces "SELECT a /* why? */ FROM t WHERE b = ?".toList) 0 0
          "SELECT a /* why? */ FROM t WHERE b = ?".toList := by
  rw [← length_markerPlaces, markerPlaces_eq_marksFrom]
  exact ⟨rfl, by decide, by decide⟩

end Postgres

end SqlAccess
