/-
**Bytes there and back.**

Main results:

* `SqlAccess.Postgres.toNat_ofNat`, `SqlAccess.Postgres.toInt_ofInt` — a number that fits into so
  many bytes is read back from them;
* `SqlAccess.Postgres.toText?_ofText` — so is a text.
-/

import Mathlib.Algebra.Group.Nat.Defs
import Mathlib.Data.Nat.Init
import SqlAccess.Postgres.Bytes

set_option autoImplicit false

namespace SqlAccess.Postgres

/-! ### Numbers -/

@[simp] theorem length_ofNat (width n : Nat) : (ofNat width n).length = width := by
  induction width generalizing n with
  | zero => rfl
  | succ width ih => rw [ofNat, List.length_append, ih, List.length_singleton]

@[simp] theorem length_ofInt (width : Nat) (n : Int) : (ofInt width n).length = width :=
  length_ofNat _ _

theorem toNat_concat (bytes : Bytes) (b : UInt8) :
    toNat (bytes ++ [b]) = 256 * toNat bytes + b.toNat := by
  rw [toNat, toNat, List.foldl_append, List.foldl_cons, List.foldl_nil]

/-- **The last bytes of a number** denote what is left of it. -/
theorem toNat_ofNat (width n : Nat) : toNat (ofNat width n) = n % 256 ^ width := by
  induction width generalizing n with
  | zero => rw [Nat.pow_zero, Nat.mod_one]; rfl
  | succ width ih =>
      have hlast : (UInt8.ofNat n).toNat = n % 256 := UInt8.toNat_ofNat'
      rw [ofNat, toNat_concat, ih, hlast, Nat.pow_succ', Nat.mod_mul, Nat.add_comm]

theorem toNat_ofNat_of_lt {width n : Nat} (h : n < 256 ^ width) : toNat (ofNat width n) = n := by
  rw [toNat_ofNat, Nat.mod_eq_of_lt h]

/-- **A signed number** that fits into so many bytes is read back. -/
theorem toInt_ofInt {width : Nat} {n : Int} (hlow : -((256 ^ width : Nat) / 2 : Int) ≤ n)
    (hhigh : n < ((256 ^ width : Nat) / 2 : Int)) : toInt (ofInt width n) = n := by
  have hpos : 0 < 256 ^ width := Nat.pow_pos (by decide)
  have hpow : Int.pow 256 width = ((256 ^ width : Nat) : Int) := by
    rw [Int.natCast_pow]
    rfl
  have hnonneg : 0 ≤ n % ((256 ^ width : Nat) : Int) := Int.emod_nonneg _ (by omega)
  have hlt : (n % ((256 ^ width : Nat) : Int)).toNat < 256 ^ width := by
    have := Int.emod_lt_of_pos n (Int.natCast_pos.2 hpos)
    omega
  rw [toInt, ofInt, length_ofNat, hpow, toNat_ofNat_of_lt hlt, Int.toNat_of_nonneg hnonneg]
  exact (Int.emod_bmod n (256 ^ width)).trans (Int.bmod_eq_of_le hlow (by omega))

/-! ### Texts -/

theorem toList_loop (bytes : ByteArray) (i : Nat) (r : List UInt8) :
    ByteArray.toList.loop bytes i r = r.reverse ++ bytes.data.toList.drop i := by
  induction i, r using ByteArray.toList.loop.induct bytes with
  | case1 i r h ih =>
      have hi : i < bytes.data.toList.length := h
      have hget : bytes.get! i = bytes.data.toList[i] := by
        show bytes.data[i]! = _
        rw [getElem!_pos bytes.data i h, Array.getElem_toList]
      rw [ByteArray.toList.loop, if_pos h, ih, hget, List.drop_eq_getElem_cons hi,
        List.reverse_cons, List.append_assoc, List.singleton_append]
  | case2 i r h =>
      have hi : bytes.data.toList.length ≤ i := Nat.le_of_not_lt h
      rw [ByteArray.toList.loop, if_neg h, List.drop_eq_nil_of_le hi, List.append_nil]

theorem ofText_eq (s : String) : ofText s = s.toByteArray.data.toList := by
  rw [ofText, ByteArray.toList, toList_loop]
  rfl

theorem ofText_append (s t : String) : ofText (s ++ t) = ofText s ++ ofText t := by
  rw [ofText_eq, ofText_eq, ofText_eq, String.toByteArray_append, ByteArray.data_append,
    Array.toList_append]

/-- **A text is read back from its bytes.** -/
theorem toText?_ofText (s : String) : toText? (ofText s) = some s := by
  have hbytes : (⟨(ofText s).toArray⟩ : ByteArray) = s.toByteArray := by
    rw [ofText_eq]
  rw [toText?, hbytes, String.fromUTF8?, dif_pos s.isValidUTF8]
  rfl

end SqlAccess.Postgres
