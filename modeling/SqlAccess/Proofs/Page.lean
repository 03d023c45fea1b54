/-
**The pages of a result.**

The number of pages and the rows before a page are computed apart: one by a division that is rounded
up, the other by a product that stops at the largest offset.  A page begins before the end of the
result exactly if its number is none above the number of pages.  Up to there no product is too
large, so that each row stands on one page; from there on a page begins at the end or after it, even
where the products are cut off and different pages begin at the same offset.

Main definitions:

* `SqlAccess.Page.turnTo`, `SqlAccess.Page.rows` — another page of the same request, and the rows of
  a page.

Main results:

* `SqlAccess.toNat_pageCount` — the number of pages is the number of rows by the size, rounded up;
* `SqlAccess.le_pageCount_iff` — which pages begin before the end of the result;
* `SqlAccess.Page.offset_of_le_pageCount` — their offsets are not cut off;
* `SqlAccess.Page.tiles` — **the pages tile the result**.
-/

import Mathlib.Algebra.Order.Floor.Div
import Mathlib.Order.Interval.Set.Defs
import SqlAccess.Page

set_option autoImplicit false

namespace SqlAccess

variable {count size number : UInt64} {p : Page}

/-! ### The number of pages -/

/-- A division rounded up is one rounded down, and one more if there is a rest. -/
theorem ceilDiv_eq_div_add (n : Nat) {d : Nat} (h : 0 < d) :
    n ⌈/⌉ d = n / d + if n % d = 0 then 0 else 1 := by
  have hrest : n % d < d := Nat.mod_lt n h
  have hsplit : n + d - 1 = d * (n / d) + (n % d + d - 1) := by
    have := Nat.div_add_mod n d
    omega
  rw [Nat.ceilDiv_eq_add_pred_div, hsplit, Nat.mul_add_div h]
  congr 1
  split
  · exact Nat.div_eq_of_lt (by omega)
  · exact Nat.div_eq_of_lt_le (by omega) (by omega)

theorem toNat_pos_of_ne (h : size ≠ 0) : 0 < size.toNat := by
  rw [Nat.pos_iff_ne_zero]
  intro hzero
  exact h (UInt64.toNat_inj.1 hzero)

/-- The number of pages is the number of rows by the size, rounded up. -/
theorem toNat_pageCount (count : UInt64) {size : UInt64} (h : size ≠ 0) :
    (pageCount count size).toNat = count.toNat ⌈/⌉ size.toNat := by
  have hsize := toNat_pos_of_ne h
  have hcount := count.toNat_lt
  have hrest : count % size = 0 ↔ count.toNat % size.toNat = 0 := by
    rw [← UInt64.toNat_inj, UInt64.toNat_mod, UInt64.toNat_zero]
  rw [pageCount, if_neg h, ceilDiv_eq_div_add count.toNat hsize, UInt64.toNat_add, UInt64.toNat_div]
  by_cases hwhole : count.toNat % size.toNat = 0
  · rw [if_pos (hrest.2 hwhole), if_pos hwhole]
    have := Nat.div_le_self count.toNat size.toNat
    exact Nat.mod_eq_of_lt (by simpa using this.trans_lt hcount)
  · rw [if_neg (mt hrest.1 hwhole), if_neg hwhole]
    have hle : count.toNat / size.toNat + 1 ≤ count.toNat := by
      have := Nat.div_add_mod count.toNat size.toNat
      have := Nat.le_mul_of_pos_left (count.toNat / size.toNat) hsize
      omega
    exact Nat.mod_eq_of_lt (hle.trans_lt hcount)

theorem one_le_iff : 1 ≤ number ↔ 1 ≤ number.toNat := UInt64.le_iff_toNat_le

/-- **Which pages begin before the end of the result**: those up to the number of pages. -/
theorem le_pageCount_iff (hsize : size ≠ 0) (hnumber : 1 ≤ number) :
    number ≤ pageCount count size ↔ (number.toNat - 1) * size.toNat < count.toNat := by
  have hpos : 1 ≤ number.toNat := one_le_iff.1 hnumber
  -- the other way round: the pages before this one do not hold all rows
  have hceil : count.toNat ⌈/⌉ size.toNat ≤ number.toNat - 1 ↔
      count.toNat ≤ size.toNat * (number.toNat - 1) :=
    ceilDiv_le_iff_le_mul (toNat_pos_of_ne hsize)
  rw [UInt64.le_iff_toNat_le, toNat_pageCount count hsize, Nat.mul_comm]
  omega

/-! ### The rows of a page -/

namespace Page

/-- Another page of the same request. -/
def turnTo (p : Page) (number : UInt64) : Page := { p with number }

/-- The rows of a page: as many as its size from its offset on. -/
def rows (p : Page) : Set Nat := Set.Ico p.offset (p.offset + p.size.toNat)

theorem offset_turnTo (p : Page) (number : UInt64) :
    (p.turnTo number).offset = min ((number.toNat - 1) * p.size.toNat) maxOffset := rfl

theorem le_maxOffset (count : UInt64) : count.toNat ≤ maxOffset := Nat.le_pred_of_lt count.toNat_lt

/-- **The offset is not cut off** where the page begins before the end of the result. -/
theorem offset_of_le_pageCount (hsize : p.size ≠ 0) (hnumber : 1 ≤ number)
    (h : number ≤ pageCount count p.size) :
    (p.turnTo number).offset = (number.toNat - 1) * p.size.toNat := by
  have hlt := (le_pageCount_iff hsize hnumber).1 h
  have hmax := le_maxOffset count
  rw [offset_turnTo, Nat.min_eq_left (by omega)]

/-- A row that stands on such a page stands on the one that its division by the size tells. -/
theorem toNat_number_of_mem_rows (hsize : p.size ≠ 0) (hnumber : 1 ≤ number)
    (h : number ≤ pageCount count p.size) {r : Nat} (hr : r ∈ (p.turnTo number).rows) :
    number.toNat = r / p.size.toNat + 1 := by
  obtain ⟨hle, hlt⟩ := hr
  rw [offset_of_le_pageCount hsize hnumber h] at hle hlt
  have hpos := one_le_iff.1 hnumber
  have hdiv : r / p.size.toNat = number.toNat - 1 :=
    Nat.div_eq_of_lt_le hle (by rw [Nat.succ_mul]; exact hlt)
  omega

/-- And that page there is. -/
theorem exists_number_of_lt (hsize : p.size ≠ 0) {r : Nat} (hr : r < count.toNat) :
    ∃ number, (1 ≤ number ∧ number ≤ pageCount count p.size) ∧ r ∈ (p.turnTo number).rows := by
  have hlt : r / p.size.toNat + 1 < UInt64.size :=
    (Nat.succ_le_of_lt ((Nat.div_le_self r _).trans_lt hr)).trans_lt count.toNat_lt
  obtain ⟨number, hnumber⟩ : ∃ number : UInt64, number.toNat = r / p.size.toNat + 1 :=
    ⟨.ofNat _, UInt64.toNat_ofNat_of_lt' hlt⟩
  have hone : 1 ≤ number := one_le_iff.2 (hnumber ▸ Nat.le_add_left 1 _)
  have hfirst : (number.toNat - 1) * p.size.toNat ≤ r := by
    rw [hnumber, Nat.add_sub_cancel]
    exact Nat.div_mul_le_self r _
  have hnext : r < (number.toNat - 1) * p.size.toNat + p.size.toNat := by
    rw [hnumber, Nat.add_sub_cancel, ← Nat.succ_mul, Nat.mul_comm]
    exact Nat.lt_mul_div_succ r (toNat_pos_of_ne hsize)
  have hle := (le_pageCount_iff hsize hone).2 (hfirst.trans_lt hr)
  rw [← offset_of_le_pageCount hsize hone hle] at hfirst hnext
  exact ⟨number, ⟨hone, hle⟩, hfirst, hnext⟩

/-- **Behind the last page** the result is at its end, wherever the offset is cut off. -/
theorem le_offset_of_pageCount_lt (hsize : p.size ≠ 0) (h : pageCount count p.size < number) :
    count.toNat ≤ (p.turnTo number).offset := by
  have hone : 1 ≤ number := by
    rw [UInt64.lt_iff_toNat_lt] at h
    exact one_le_iff.2 (Nat.one_le_of_lt h)
  have hproduct : count.toNat ≤ (number.toNat - 1) * p.size.toNat :=
    Nat.le_of_not_lt fun hlt => UInt64.not_le.2 h ((le_pageCount_iff hsize hone).2 hlt)
  -- where the product is cut off, the largest offset is left, which no count exceeds
  exact Nat.le_min.2 ⟨hproduct, le_maxOffset count⟩

/-- **The pages tile the result**: each row stands on exactly one of them, each of them begins at an
offset that is not cut off and holds a row, and all pages behind them begin at the end of the result
or after it. -/
theorem tiles (p : Page) (count : UInt64) (hsize : p.size ≠ 0) :
    (∀ r < count.toNat, ∃! number, (1 ≤ number ∧ number ≤ pageCount count p.size) ∧
      r ∈ (p.turnTo number).rows) ∧
    (∀ number, 1 ≤ number → number ≤ pageCount count p.size →
      (p.turnTo number).offset = (number.toNat - 1) * p.size.toNat ∧
      ∃ r < count.toNat, r ∈ (p.turnTo number).rows) ∧
    ∀ number, pageCount count p.size < number → count.toNat ≤ (p.turnTo number).offset := by
  refine ⟨fun r hr => ?_, fun number hone hle => ?_, fun number hlt => ?_⟩
  · obtain ⟨number, ⟨hone, hle⟩, hmem⟩ := exists_number_of_lt hsize hr
    refine ⟨number, ⟨⟨hone, hle⟩, hmem⟩, ?_⟩
    rintro other ⟨⟨hone', hle'⟩, hmem'⟩
    rw [← UInt64.toNat_inj, toNat_number_of_mem_rows hsize hone' hle' hmem',
      toNat_number_of_mem_rows hsize hone hle hmem]
  · have hoffset := offset_of_le_pageCount hsize hone hle
    have hlt := (le_pageCount_iff hsize hone).1 hle
    exact ⟨hoffset, (p.turnTo number).offset, by rwa [hoffset], Nat.le_refl _,
      Nat.lt_add_of_pos_right (toNat_pos_of_ne hsize)⟩
  · exact le_offset_of_pageCount_lt hsize hlt

/-- The largest result in two pages: the third begins at its end, as its offset is cut off there. -/
theorem tiles_of_largest :
    (⟨1, 9223372036854775808, [], true⟩ : Page).size ≠ 0 ∧
      (∃! number, (1 ≤ number ∧ number ≤ pageCount 18446744073709551615 9223372036854775808) ∧
        9223372036854775808 ∈
          ((⟨1, 9223372036854775808, [], true⟩ : Page).turnTo number).rows) ∧
      pageCount 18446744073709551615 9223372036854775808 = 2 ∧
      18446744073709551615 ≤ ((⟨1, 9223372036854775808, [], true⟩ : Page).turnTo 3).offset := by
  have hsize : (⟨1, 9223372036854775808, [], true⟩ : Page).size ≠ 0 := by decide
  obtain ⟨hrows, -, hbehind⟩ := tiles ⟨1, 9223372036854775808, [], true⟩ 18446744073709551615 hsize
  exact ⟨hsize, hrows _ (by decide), by decide, hbehind 3 (by decide)⟩

end Page

end SqlAccess
