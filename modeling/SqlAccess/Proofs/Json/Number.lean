/-
**Numbers as they are written.**

A number is written as digits, with a sign, a point and an exponent if it needs them.  What is read
from it depends on these parts alone, not on what follows in the document, since neither a digit nor
a point nor an exponent can come next.

Main definitions:

* `SqlAccess.Json.Stops` — what may come after a scalar;
* `SqlAccess.Json.Numeral` — the parts of a number, without a zero in front;
* `SqlAccess.Json.Numeral.read?` — the number that they denote;
* `SqlAccess.Json.floatAgain?` — what is read from the text of a float.

Main results:

* `SqlAccess.Json.Numeral.number?_text` — **a number is read from its parts**, whatever may follow;
* `SqlAccess.Json.Numeral.read?_ofInt` — an integer of sixty-four bits is read as itself;
* `SqlAccess.Json.number?_render_append`, `SqlAccess.Json.exists_float_of_floatAgain?` — a float is
  read as a float, and alike whatever may follow.
-/

import Mathlib.Data.List.TakeDrop
import SqlAccess.Json.Token
import SqlAccess.Proofs.Decimal.Shortest
import SqlAccess.Proofs.Text.Cut

set_option autoImplicit false

namespace SqlAccess.Json

variable {rest : List Char}

/-- What may come after a scalar. -/
def Stops (cs : List Char) : Prop := ∀ c ∈ cs.head?, c ∈ [',', ']', '}', ':']

theorem stops_nil : Stops [] := nofun

theorem Stops.of_cons {c : Char} {cs : List Char} (h : Stops (c :: cs)) :
    c = ',' ∨ c = ']' ∨ c = '}' ∨ c = ':' := by
  simpa using h c rfl

/-! ### Parts of a number -/

/-- The parts of a number. -/
structure Numeral where
  negative : Bool
  whole : List Char
  /-- The digits after the point; without any there is no point. -/
  fraction : List Char
  /-- Whether the exponent is negative, and its digits. -/
  exponent : Option (Bool × List Char)
  whole_ne_nil : whole ≠ []
  isDigit_whole : ∀ c ∈ whole, c.isDigit = true
  /-- No zero stands before another digit. -/
  whole_of_zero : whole.head? = some '0' → whole = ['0']
  isDigit_fraction : ∀ c ∈ fraction, c.isDigit = true
  isDigits_exponent : ∀ e ∈ exponent, Text.isDigits e.2 = true

namespace Numeral

/-- The point and the digits after it, if there are any. -/
def fractionText (n : Numeral) : List Char :=
  if n.fraction.isEmpty then [] else '.' :: n.fraction

/-- The exponent with its sign, if there is one. -/
def exponentText (n : Numeral) : List Char :=
  match n.exponent with
  | none => []
  | some (negative, digits) => 'e' :: (if negative then '-' else '+') :: digits

/-- A number as it is written, its sign aside. -/
def magnitudeText (n : Numeral) : List Char := n.whole ++ (n.fractionText ++ n.exponentText)

/-- A number as it is written. -/
def text (n : Numeral) : List Char := (if n.negative then ['-'] else []) ++ n.magnitudeText

/-- The exponent. -/
def exponentValue (n : Numeral) : Option Int :=
  n.exponent.map fun e => if e.1 then -(Text.digitsValue e.2 : Int) else Text.digitsValue e.2

/-- The number that the parts denote, if there is one. -/
def read? (n : Numeral) : Option Json :=
  numberOf? n.negative n.whole n.fraction n.exponentValue

end Numeral

/-! ### Reading -/

/-- Digits end where another character follows. -/
theorem span_digits {digits : List Char} (hdigits : ∀ c ∈ digits, c.isDigit = true)
    (hrest : ∀ c ∈ rest.head?, c.isDigit = false) :
    (digits ++ rest).span Char.isDigit = (digits, rest) := by
  rw [List.span_eq_takeWhile_dropWhile, Text.takeWhile_append_of_head? hdigits hrest,
    Text.dropWhile_append_of_head? hdigits hrest]

theorem Stops.isDigit_eq_false (h : Stops rest) : ∀ c ∈ rest.head?, c.isDigit = false := by
  cases rest with
  | nil => nofun
  | cons c rest =>
      intro d hd
      obtain rfl : c = d := by simpa using hd
      rcases h.of_cons with rfl | rfl | rfl | rfl <;> rfl

/-- The digits after a point, if one comes first, and the rest. -/
def pointed? (cs : List Char) : Option (List Char × List Char) :=
  match cs with
  | '.' :: rest =>
    let (digits, rest) := rest.span Char.isDigit
    if digits.isEmpty then none else some (digits, rest)
  | rest => some ([], rest)

/-- The number whose sign is behind, and the rest. -/
def unsigned? (negative : Bool) (cs : List Char) : Option (Json × List Char) := do
  let (whole, cs) := cs.span Char.isDigit
  if whole.isEmpty ∨ (whole.head? = some '0' ∧ whole.length ≠ 1) then none
  let (fraction, cs) ← match cs with
    | '.' :: rest =>
      let (digits, rest) := rest.span Char.isDigit
      if digits.isEmpty then none else some (digits, rest)
    | rest => some ([], rest)
  let (exponent, rest) ← exponent? cs
  return (← numberOf? negative whole fraction exponent, rest)

theorem number?_minus (cs : List Char) : number? ('-' :: cs) = unsigned? true cs := rfl

theorem number?_of_ne {cs : List Char} (h : cs.head? ≠ some '-') :
    number? cs = unsigned? false cs := by
  unfold number?
  split
  rename_i hsign
  split at hsign
  · exact absurd rfl h
  · cases hsign
    rfl

/-- What is read once the digits of the whole part are behind. -/
theorem unsigned?_of_span (negative : Bool) {cs whole rest : List Char}
    (hspan : cs.span Char.isDigit = (whole, rest)) :
    unsigned? negative cs =
      if whole.isEmpty ∨ (whole.head? = some '0' ∧ whole.length ≠ 1) then none
      else do
        let f ← pointed? rest
        let e ← exponent? f.2
        return (← numberOf? negative whole f.1 e.1, e.2) := by
  unfold unsigned? pointed?
  rw [hspan]
  dsimp only
  split
  · rfl
  · split
    · split <;> rfl
    · rfl

/-- What is read as a number is denoted by some digits. -/
theorem exists_numberOf? {cs : List Char} {j : Json} (h : number? cs = some (j, rest)) :
    ∃ negative whole fraction exponent, numberOf? negative whole fraction exponent = some j := by
  obtain ⟨negative, cs, h⟩ : ∃ negative cs, unsigned? negative cs = some (j, rest) := by
    by_cases hsign : cs.head? = some '-'
    · obtain ⟨cs, rfl⟩ := List.head?_eq_some_iff.1 hsign
      exact ⟨true, cs, h⟩
    · exact ⟨false, cs, number?_of_ne hsign ▸ h⟩
  rw [unsigned?_of_span negative rfl] at h
  split at h
  · cases h
  · simp only [Option.bind_eq_bind, Option.bind_eq_some_iff] at h
    obtain ⟨f, -, e, -, j', hj, hreturn⟩ := h
    obtain ⟨rfl, -⟩ := Prod.mk.inj (Option.some.inj hreturn)
    exact ⟨_, _, _, _, hj⟩

namespace Numeral

variable (n : Numeral)

theorem whole_eq_cons : ∃ c ds, n.whole = c :: ds ∧ c.isDigit = true := by
  obtain ⟨c, ds, hwhole⟩ := List.exists_cons_of_ne_nil n.whole_ne_nil
  exact ⟨c, ds, hwhole, n.isDigit_whole c (hwhole ▸ List.mem_cons_self)⟩

theorem pointed?_fractionText {cs : List Char} (hdigit : ∀ c ∈ cs.head?, c.isDigit = false)
    (hpoint : cs.head? ≠ some '.') :
    pointed? (n.fractionText ++ cs) = some (n.fraction, cs) := by
  unfold fractionText
  by_cases hempty : n.fraction = []
  · cases cs with
    | nil => simp [hempty, pointed?]
    | cons c cs =>
        have hc : c ≠ '.' := by simpa using hpoint
        simp [hempty, pointed?, hc]
  · have hspan := span_digits n.isDigit_fraction hdigit
    simp [hempty, pointed?, hspan, -List.span_eq_takeWhile_dropWhile]

theorem exponent?_exponentText (hrest : Stops rest) :
    exponent? (n.exponentText ++ rest) = some (n.exponentValue, rest) := by
  unfold exponentText exponentValue
  cases hexponent : n.exponent with
  | none =>
      cases rest with
      | nil => rfl
      | cons c rest =>
          rcases hrest.of_cons with rfl | rfl | rfl | rfl <;> rfl
  | some e =>
      obtain ⟨negative, digits⟩ := e
      have hdigits : Text.isDigits digits = true := n.isDigits_exponent _ hexponent
      have hspan := span_digits (fun c hc => Text.isDigit_of_isDigits hdigits hc)
        hrest.isDigit_eq_false
      have hempty : digits.isEmpty = false := by
        simpa using Text.ne_nil_of_isDigits hdigits
      cases negative <;> simp [exponent?, hspan, hempty, -List.span_eq_takeWhile_dropWhile]

/-- What follows the digits goes on neither with a digit nor with a point. -/
theorem head?_exponentText (hrest : Stops rest) :
    ∀ c ∈ (n.exponentText ++ rest).head?, c.isDigit = false ∧ c ≠ '.' := by
  unfold exponentText
  cases n.exponent with
  | some e => simp
  | none =>
      cases rest with
      | nil => nofun
      | cons c rest => rcases hrest.of_cons with rfl | rfl | rfl | rfl <;> simp

theorem unsigned?_text (negative : Bool) (hrest : Stops rest) :
    unsigned? negative (n.whole ++ (n.fractionText ++ (n.exponentText ++ rest))) =
      (numberOf? negative n.whole n.fraction n.exponentValue).map fun j => (j, rest) := by
  have hhead := n.head?_exponentText hrest
  have hpoint := n.pointed?_fractionText (fun c hc => (hhead c hc).1) fun h => (hhead _ h).2 rfl
  have hwhole : (n.whole ++ (n.fractionText ++ (n.exponentText ++ rest))).span Char.isDigit =
      (n.whole, n.fractionText ++ (n.exponentText ++ rest)) := by
    refine span_digits n.isDigit_whole ?_
    unfold fractionText
    split
    · exact fun c hc => (hhead c hc).1
    · simp
  have hproper : ¬ (n.whole.isEmpty = true ∨ n.whole.head? = some '0' ∧ n.whole.length ≠ 1) := by
    rintro (hempty | ⟨hzero, hlength⟩)
    · exact n.whole_ne_nil (by simpa using hempty)
    · exact hlength (by rw [n.whole_of_zero hzero]; rfl)
  rw [unsigned?_of_span negative hwhole, if_neg hproper, hpoint, Option.bind_eq_bind,
    Option.bind_some, n.exponent?_exponentText hrest, Option.bind_eq_bind, Option.bind_some,
    Option.map_eq_bind]
  rfl

/-- **A number is read from its parts**, whatever may follow. -/
theorem number?_text (hrest : Stops rest) :
    number? (n.text ++ rest) = n.read?.map fun j => (j, rest) := by
  have hunsigned := n.unsigned?_text n.negative hrest
  unfold text magnitudeText read?
  simp only [List.append_assoc]
  cases hnegative : n.negative with
  | true =>
      rw [hnegative] at hunsigned
      exact (number?_minus _).trans hunsigned
  | false =>
      rw [hnegative] at hunsigned
      obtain ⟨c, ds, hwhole, hdigit⟩ := n.whole_eq_cons
      have hhead : (n.whole ++ (n.fractionText ++ (n.exponentText ++ rest))).head? ≠ some '-' := by
        rw [hwhole]
        rintro ⟨⟩
        cases hdigit
      exact (number?_of_ne hhead).trans hunsigned

end Numeral

/-! ### Integers -/

theorem le_foldl_digits (s : Nat) (ds : List Char) :
    s ≤ ds.foldl (fun n c => 10 * n + (c.toNat - '0'.toNat)) s := by
  induction ds generalizing s with
  | nil => exact Nat.le_refl s
  | cons c ds ih => exact Nat.le_trans (by dsimp only; omega) (ih _)

/-- All digits are kept if the number they make up is within bounds. -/
theorem appendDigits_eq {s : Nat} {ds : List Char} (count : Nat)
    (h : ds.foldl (fun n c => 10 * n + (c.toNat - '0'.toNat)) s ≤ maxSignificand) :
    appendDigits s count ds =
      (ds.foldl (fun n c => 10 * n + (c.toNat - '0'.toNat)) s, count + ds.length) := by
  induction ds generalizing s count with
  | nil => rfl
  | cons c ds ih =>
      rw [List.foldl_cons] at h ⊢
      have hnext := Nat.le_trans (le_foldl_digits _ ds) h
      rw [appendDigits, if_pos hnext, ih (count + 1) h, List.length_cons]
      congr 1
      omega

/-- The digits of a number within bounds are all kept. -/
theorem appendDigits_digits {n : Nat} (h : n ≤ maxSignificand) :
    appendDigits 0 0 (Text.digits n) = (n, (Text.digits n).length) := by
  have hvalue := Text.digitsValue_digits n
  unfold Text.digitsValue at hvalue
  rw [appendDigits_eq 0 (by rw [hvalue]; exact h), hvalue, Nat.zero_add]

theorem numberOf?_false_digits {n : Nat} (h : n ≤ maxSignificand) :
    numberOf? false (Text.digits n) [] none = some (.int n) := by
  unfold numberOf?
  simp only [appendDigits_digits h, Nat.sub_self]
  rfl

theorem numberOf?_true_digits {n : Nat} (h : ¬ (n = 0 ∨ Nat.pow 2 63 < n)) :
    numberOf? true (Text.digits n) [] none = some (.int (-n)) := by
  have hbound : n ≤ maxSignificand := by
    rw [show Nat.pow 2 63 = 9223372036854775808 from rfl] at h
    rw [show maxSignificand = 18446744073709551615 from rfl]
    omega
  unfold numberOf?
  simp only [appendDigits_digits hbound, Nat.sub_self]
  rw [if_pos ⟨rfl, trivial, trivial⟩, if_neg (by decide), if_neg h]

namespace Numeral

/-- The parts of an integer. -/
def ofInt (n : Int) : Numeral where
  negative := n < 0
  whole := Text.digits n.natAbs
  fraction := []
  exponent := none
  whole_ne_nil := Text.digits_ne_nil _
  isDigit_whole _ hc := Text.isDigit_of_mem_digits hc
  whole_of_zero h := by
    rw [Text.eq_zero_of_head?_digits h]
    rfl
  isDigit_fraction := nofun
  isDigits_exponent := nofun

theorem text_ofInt (n : Int) : (ofInt n).text = (Value.intText n).toList := by
  simp [text, magnitudeText, ofInt, fractionText, exponentText, Value.intText]

/-- **An integer** of sixty-four bits is read as itself. -/
theorem read?_ofInt {n : Int} (hlow : -Int.pow 2 63 ≤ n) (hhigh : n < Int.pow 2 64) :
    (ofInt n).read? = some (.int n) := by
  rw [show Int.pow 2 63 = 9223372036854775808 from rfl] at hlow
  rw [show Int.pow 2 64 = 18446744073709551616 from rfl] at hhigh
  change numberOf? (n < 0) (Text.digits n.natAbs) [] none = some (.int n)
  by_cases hn : n < 0
  · have hkept : ¬ (n.natAbs = 0 ∨ Nat.pow 2 63 < n.natAbs) := by
      rw [show Nat.pow 2 63 = 9223372036854775808 from rfl]
      omega
    rw [decide_eq_true hn, numberOf?_true_digits hkept]
    congr 2
    omega
  · have hbound : n.natAbs ≤ maxSignificand := by
      rw [show maxSignificand = 18446744073709551615 from rfl]
      omega
    rw [decide_eq_false hn, numberOf?_false_digits hbound]
    congr 2
    omega

end Numeral

/-! ### Floats -/

/-- The parts of a number that is not written as an integer. -/
def Numeral.IsFloat (n : Numeral) : Prop := n.fraction ≠ [] ∨ n.exponent ≠ none

section Layout

open Decimal (Digits FloatStyle)

variable (negative : Bool) {d : Digits}

theorem exists_numeral_positional (hd : d.Proper) :
    ∃ n : Numeral, n.negative = negative ∧ n.IsFloat ∧
      n.magnitudeText = FloatStyle.json.positionalText d := by
  unfold FloatStyle.positionalText
  split
  · refine ⟨⟨negative, ['0'], List.replicate (-d.point).toNat '0' ++ d.digits, none, by simp,
      by simp, fun _ => rfl, ?_, nofun⟩, rfl, .inl (by simp [hd.ne_nil]), ?_⟩
    · intro c hc
      rcases List.mem_append.1 hc with hc | hc
      · rw [List.eq_of_mem_replicate hc]
        rfl
      · exact hd.isDigit c hc
    · simp [Numeral.magnitudeText, Numeral.fractionText, Numeral.exponentText, hd.ne_nil]
  · rename_i hpoint
    split
    · rename_i hlength
      refine ⟨⟨negative, d.digits ++ List.replicate (d.point.toNat - d.digits.length) '0', ['0'],
        none, by simp [hd.ne_nil], ?_, ?_, by simp, nofun⟩, rfl, .inl (by simp), ?_⟩
      · intro c hc
        rcases List.mem_append.1 hc with hc | hc
        · exact hd.isDigit c hc
        · rw [List.eq_of_mem_replicate hc]
          rfl
      · intro hzero
        obtain ⟨c, ds, hds⟩ := List.exists_cons_of_ne_nil hd.ne_nil
        have hhead : d.digits.head? = some '0' := by
          rw [hds] at hzero ⊢
          exact hzero
        obtain rfl := hd.eq_zero hhead
        rfl
      · simp [Numeral.magnitudeText, Numeral.fractionText, Numeral.exponentText, FloatStyle.json]
    · rename_i hlength
      have hpos : d.point.toNat ≠ 0 := by omega
      refine ⟨⟨negative, d.digits.take d.point.toNat, d.digits.drop d.point.toNat, none,
        by simp [hd.ne_nil, hpos], fun c hc => hd.isDigit c (List.mem_of_mem_take hc), ?_,
        fun c hc => hd.isDigit c (List.mem_of_mem_drop hc), nofun⟩, rfl,
        .inl (by simpa using hlength), ?_⟩
      · intro hzero
        rw [List.head?_take, if_neg hpos] at hzero
        obtain rfl := hd.eq_zero hzero
        exact absurd (Nat.le_refl 1) hlength
      · have hdrop : d.digits.drop d.point.toNat ≠ [] := by simpa using hlength
        simp [Numeral.magnitudeText, Numeral.fractionText, Numeral.exponentText, hdrop]

theorem exists_numeral_exponent (hd : d.Proper) :
    ∃ n : Numeral, n.negative = negative ∧ n.IsFloat ∧
      n.magnitudeText = FloatStyle.json.exponentText d := by
  refine ⟨⟨negative, d.digits.take 1, d.digits.drop 1,
    some (decide (d.point - 1 < 0), Text.digits (d.point - 1).natAbs), by simp [hd.ne_nil],
    fun c hc => hd.isDigit c (List.mem_of_mem_take hc), ?_,
    fun c hc => hd.isDigit c (List.mem_of_mem_drop hc), ?_⟩, rfl, .inr (by simp), ?_⟩
  · intro hzero
    obtain ⟨c, ds, hds⟩ := List.exists_cons_of_ne_nil hd.ne_nil
    rw [hds] at hzero ⊢
    obtain rfl : c = '0' := Option.some.inj hzero
    rfl
  · intro e he
    obtain rfl := Option.some.inj he
    exact Text.isDigits_digits _
  · by_cases hnegative : d.point - 1 < 0 <;>
      simp [Numeral.magnitudeText, Numeral.fractionText, Numeral.exponentText,
        FloatStyle.exponentText, FloatStyle.json, hnegative]

/-- Proper digits are written as a number with a point or an exponent. -/
theorem exists_numeral (hd : d.Proper) :
    ∃ n : Numeral, n.negative = negative ∧ n.IsFloat ∧
      n.magnitudeText = FloatStyle.json.digitsText d := by
  unfold FloatStyle.digitsText
  dsimp only [FloatStyle.json]
  split
  · exact exists_numeral_positional negative hd
  · exact exists_numeral_exponent negative hd

end Layout

/-- What is read from the text of a float, if it denotes a number. -/
def floatAgain? (x : Float) : Option Json :=
  (number? (Decimal.FloatStyle.json.render x).toList).map Prod.fst

theorem Numeral.exists_float_of_read? {n : Numeral} (hn : n.IsFloat) {j : Json}
    (h : n.read? = some j) : ∃ y, j = .float y := by
  have hpart : ¬ (n.fraction.isEmpty = true ∧ n.exponentValue = none ∧
      n.whole.length - (appendDigits 0 0 n.whole).2 = 0) := by
    rintro ⟨hfraction, hexponent, -⟩
    rcases hn with hn | hn
    · exact hn (by simpa using hfraction)
    · exact hn (by simpa [exponentValue] using hexponent)
  unfold read? numberOf? at h
  simp only [hpart, if_false] at h
  obtain ⟨y, -, rfl⟩ := Option.map_eq_some_iff.1 h
  exact ⟨_, rfl⟩

/-- A float is written as a number, or as a word that is none. -/
theorem render_cases (x : Float) :
    (∃ n : Numeral, n.IsFloat ∧ (Decimal.FloatStyle.json.render x).toList = n.text) ∨
      (Decimal.FloatStyle.json.render x).toList ∈
        [['i', 'n', 'f'], ['-', 'i', 'n', 'f'], ['N', 'a', 'N']] := by
  unfold Decimal.FloatStyle.render
  dsimp only
  split
  · obtain ⟨n, hnegative, hfloat, htext⟩ := exists_numeral
      (!decide (x.toBits.toNat < Nat.pow 2 63))
      (Decimal.proper_shortest Decimal.FloatStyle.json.tie (x.toBits.toNat % Nat.pow 2 63))
    refine .inl ⟨n, hfloat, ?_⟩
    rw [String.toList_ofList, Numeral.text, hnegative, htext]
    split <;> simp_all
  · right
    split
    · rw [String.toList_ofList]
      split <;> simp
    · decide

theorem number?_render_append {x : Float} (hrest : Stops rest) :
    number? ((Decimal.FloatStyle.json.render x).toList ++ rest) =
      (floatAgain? x).map fun j => (j, rest) := by
  unfold floatAgain?
  rcases render_cases x with ⟨n, -, htext⟩ | hword
  · have hempty := n.number?_text stops_nil
    rw [List.append_nil] at hempty
    rw [htext, n.number?_text hrest, hempty]
    cases n.read? <;> rfl
  · simp only [List.mem_cons, List.not_mem_nil, or_false] at hword
    rcases hword with hword | hword | hword <;> rw [hword] <;> rfl

/-- **A float is read as a float.** -/
theorem exists_float_of_floatAgain? {x : Float} {j : Json} (h : floatAgain? x = some j) :
    ∃ y, j = .float y := by
  unfold floatAgain? at h
  rcases render_cases x with ⟨n, hfloat, htext⟩ | hword
  · have hempty := n.number?_text stops_nil
    rw [List.append_nil] at hempty
    rw [htext, hempty] at h
    exact Numeral.exists_float_of_read? hfloat (by simpa using h)
  · simp only [List.mem_cons, List.not_mem_nil, or_false] at hword
    rcases hword with hword | hword | hword <;> rw [hword] at h <;> cases h

end SqlAccess.Json
