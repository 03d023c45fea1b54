/-
**Laws of shortest digits.**

Main results:

* `SqlAccess.Decimal.proper_shortest` — the digits of a number are digits, and no zero stands in
  front unless the number is zero.
-/

import Mathlib.Data.List.DropRight
import SqlAccess.Decimal.Shortest
import SqlAccess.Proofs.Text.Word

set_option autoImplicit false

namespace SqlAccess.Decimal

/-- Digits without a zero in front, except for the number zero. -/
structure Digits.Proper (d : Digits) : Prop where
  ne_nil : d.digits ≠ []
  isDigit : ∀ c ∈ d.digits, c.isDigit = true
  eq_zero : d.digits.head? = some '0' → d = ⟨['0'], 1⟩

theorem Digits.proper_zero : (⟨['0'], 1⟩ : Digits).Proper :=
  ⟨nofun, fun c hc => by rw [List.mem_singleton.1 hc]; rfl, fun _ => rfl⟩

/-- The digits that are left without the zeros at the end. -/
theorem proper_rdropWhile {n : Nat} {kept : List Char} (point : Int)
    (hkept : kept = (Text.digits n).rdropWhile (· == '0')) (hne : kept ≠ []) :
    (⟨kept, point⟩ : Digits).Proper := by
  obtain ⟨t, ht⟩ : kept <+: Text.digits n := hkept ▸ List.rdropWhile_prefix _ _
  refine ⟨hne, fun c hc => Text.isDigit_of_mem_digits (ht ▸ List.mem_append_left t hc),
    fun hzero => ?_⟩
  -- a zero in front is the only digit, and so it is a zero at the end
  obtain ⟨ds, hds⟩ : ∃ ds, kept = '0' :: ds := List.head?_eq_some_iff.1 hzero
  have hn : n = 0 := Text.eq_zero_of_head?_digits (by rw [← ht, hds]; rfl)
  subst hn
  exact absurd hkept hne

theorem Digits.proper_ofScaled (n : Nat) (e : Int) : (Digits.ofScaled n e).Proper := by
  unfold ofScaled
  dsimp only
  split
  · exact proper_zero
  · rename_i hkept
    exact proper_rdropWhile _ rfl (by simpa using hkept)

theorem Span.proper_shortest (s : Span) (tie : Tie) : (s.shortest tie).Proper := by
  unfold shortest
  dsimp only
  cases hfound : (List.range 17).findSome? _ with
  | none => exact Digits.proper_zero
  | some d =>
      obtain ⟨i, -, hi⟩ := List.exists_of_findSome?_eq_some hfound
      obtain ⟨n, -, rfl⟩ := Option.map_eq_some_iff.1 hi
      exact Digits.proper_ofScaled n _

/-- **The digits of a number** have no zero in front, unless the number is zero. -/
theorem proper_shortest (tie : Tie) (bits : Nat) : (shortest tie bits).Proper := by
  unfold shortest
  split
  · exact Digits.proper_zero
  · exact Span.proper_shortest _ tie

end SqlAccess.Decimal
