/-
**Typed values come back.**

A member of a type is written as a value and read again as a member of the same type.  It comes back
as itself unless its value is that of another member, too.  An optional type writes null for the
missing member, so that no member of the inner type may be written as null as well; and unsigned
numbers of sixty-four bits are written like those of documents, the large ones as floats, which are
the values of many numbers at once.  All other types tell their members apart, at any depth of lists
and options, and a list comes back item by item.

Main definitions:

* `SqlAccess.ColumnType.hasNull` — whether a member of the type is written as null;
* `SqlAccess.ColumnType.unambiguous` — whether the values of a type tell its members apart.

Main results:

* `SqlAccess.ColumnType.exists_encode_eq_null_iff` — the types with a member written as null;
* `SqlAccess.ColumnType.decode_encode_uint64_iff` — when an unsigned number comes back;
* `SqlAccess.ColumnType.decode_option_encode_some_iff` — when an optional member comes back;
* `SqlAccess.ColumnType.decode_list_eq_ok_iff` — a list is read item by item;
* `SqlAccess.ColumnType.decode_encode_iff` — **the types whose members all come back**.
-/

import SqlAccess.Proofs.Except
import SqlAccess.Row.Typed

set_option autoImplicit false

namespace SqlAccess.ColumnType

variable {t : ColumnType} {v : Value}

/-! ### Null -/

/-- Whether a member of the type is written as null. -/
def hasNull : ColumnType → Bool
  | value | option _ => true
  | _ => false

theorem exists_encode_eq_null_iff (t : ColumnType) :
    (∃ x : t.Carrier, t.encode x = .null) ↔ t.hasNull = true := by
  cases t with
  | value => exact iff_of_true ⟨.null, rfl⟩ rfl
  | option inner => exact iff_of_true ⟨none, rfl⟩ rfl
  | uint64 => exact iff_of_false (fun ⟨_, hn⟩ => Value.ofInteger_ne_null _ hn) nofun
  | _ => exact iff_of_false (fun ⟨_, hx⟩ => nomatch hx) nofun

/-- Whether the values of a type tell its members apart. -/
def unambiguous : ColumnType → Bool
  | uint64 => false
  | option inner => !inner.hasNull && inner.unambiguous
  | list element => element.unambiguous
  | _ => true

/-! ### Numbers -/

/-- A number that lies in a range passes. -/
theorem within_of_le {low high : Int} {n : Int64} (hlow : low ≤ n.toInt) (hhigh : n.toInt ≤ high) :
    within low high n = .ok n := by
  rw [within, if_neg (Int.not_lt.2 hhigh), if_neg (Int.not_lt.2 hlow)]

theorem decode_encode_int32 (n : Int32) : int32.decode (int32.encode n) = .ok n := by
  have hlow := n.le_toInt
  have hhigh := n.toInt_lt
  have hwithin : within (-2147483648) 2147483647 n.toInt64 = .ok n.toInt64 := by
    refine within_of_le ?_ ?_ <;> rw [Int32.toInt_toInt64] <;> omega
  show (do return (← within _ _ n.toInt64).toInt32 : Except DecodeFault Int32) = .ok n
  rw [hwithin]
  exact congrArg Except.ok n.toInt32_toInt64

/-- **An unsigned number comes back** if there is a signed one as large: any other is written as a
float, which is not read as a number of this type. -/
theorem decode_encode_uint64_iff (n : UInt64) :
    uint64.decode (uint64.encode n) = .ok n ↔ n.toNat ≤ 9223372036854775807 := by
  have hlow : -Int.pow 2 63 ≤ n.toNat := Int.le_trans (by decide) (Int.natCast_nonneg _)
  show uint64.decode (.ofInteger n.toNat) = _ ↔ _
  by_cases hle : n.toNat ≤ 9223372036854775807
  · have hhigh : (n.toNat : Int) < Int.pow 2 63 := Int.ofNat_lt.2 (Nat.lt_succ_of_le hle)
    have htoInt : (Int64.ofInt n.toNat).toInt = n.toNat := Int64.toInt_ofInt_of_le hlow hhigh
    have hwithin : within 0 9223372036854775807 (.ofInt n.toNat) = .ok (.ofInt n.toNat) :=
      within_of_le (by omega) (by omega)
    rw [Value.ofInteger, if_pos ⟨hlow, hhigh⟩]
    refine iff_of_true ?_ hle
    show (do return (← within _ _ (.ofInt n.toNat)).toUInt64 : Except DecodeFault UInt64) = .ok n
    rw [hwithin, Int64.ofInt_eq_ofNat]
    exact congrArg Except.ok n.ofNat_toNat
  · have hhigh : ¬(-Int.pow 2 63 ≤ n.toNat ∧ (n.toNat : Int) < Int.pow 2 63) :=
      fun hrange => hle (Nat.le_of_lt_succ (Int.ofNat_lt.1 hrange.2))
    rw [Value.ofInteger, if_neg hhigh]
    refine iff_of_false (fun h => ?_) hle
    cases h

/-! ### Options -/

theorem decode_option_of_ne_null (h : v ≠ .null) :
    (option t).decode v = (t.decode v).map some := by
  cases v with
  | null => exact absurd rfl h
  | _ => rfl

/-- **A member comes back as an optional one** if it comes back by itself and is not written as
null, which is read as the missing member. -/
theorem decode_option_encode_some_iff (x : t.Carrier) :
    (option t).decode ((option t).encode (some x)) = .ok (some x) ↔
      t.encode x ≠ .null ∧ t.decode (t.encode x) = .ok x := by
  show (option t).decode (t.encode x) = _ ↔ _
  by_cases hnull : t.encode x = .null
  · rw [hnull]
    exact iff_of_false nofun fun h => h.1 rfl
  · rw [decode_option_of_ne_null hnull, Except.map_eq_ok_iff, and_iff_right hnull]
    simp

/-! ### Lists -/

theorem allOk_eq_mapM {α : Type} (read : Value → Except DecodeFault α) (items : List Value) :
    allOk read items = items.mapM read := by
  induction items with
  | nil => rfl
  | cons item items ih =>
      rw [List.mapM_cons, ← ih]
      rfl

/-- **A list is read item by item**: there are as many members as items, each at the place of its
item. -/
theorem decode_list_eq_ok_iff {xs : List t.Carrier} :
    (list t).decode v = .ok xs ↔
      ∃ items, v = .list items ∧ List.Forall₂ (fun item x => t.decode item = .ok x) items xs := by
  cases v with
  | list items =>
      show allOk t.decode items = .ok xs ↔ _
      rw [allOk_eq_mapM, Except.mapM_eq_ok_iff]
      simp
  | _ => exact iff_of_false nofun fun ⟨_, hv, _⟩ => nomatch hv

theorem decode_list_encode_iff (xs : List t.Carrier) :
    (list t).decode ((list t).encode xs) = .ok xs ↔
      ∀ x ∈ xs, t.decode (t.encode x) = .ok x := by
  have hvalue : (list t).encode xs = .list (xs.map t.encode) := rfl
  rw [hvalue, decode_list_eq_ok_iff]
  simp [List.forall₂_map_left_iff, List.forall₂_same]

/-! ### All types -/

/-- **The types whose members all come back** are those that tell their members apart. -/
theorem decode_encode_iff (t : ColumnType) :
    (∀ x : t.Carrier, t.decode (t.encode x) = .ok x) ↔ t.unambiguous = true := by
  induction t with
  | int32 => exact iff_of_true decode_encode_int32 rfl
  | uint64 =>
      have hlarge : ¬(18446744073709551615 : UInt64).toNat ≤ 9223372036854775807 := by decide
      exact iff_of_false (fun h => hlarge ((decode_encode_uint64_iff _).1 (h _))) nofun
  | option inner ih =>
      rw [unambiguous, Bool.and_eq_true, Bool.not_eq_true', ← ih, ← Bool.not_eq_true,
        ← exists_encode_eq_null_iff, not_exists, ← forall_and]
      constructor
      · intro h x
        exact (decode_option_encode_some_iff x).1 (h (some x))
      · rintro h (_ | x)
        · rfl
        · exact (decode_option_encode_some_iff x).2 (h x)
  | list element ih =>
      rw [unambiguous, ← ih]
      constructor
      · intro h x
        exact (decode_list_encode_iff [x]).1 (h [x]) x List.mem_cons_self
      · intro h xs
        exact (decode_list_encode_iff xs).2 fun x _ => h x
  | _ => exact iff_of_true (fun _ => rfl) rfl

/-- Nulls and empty lists inside of lists stay in their places. -/
example :
    let x : (list (list (option text))).Carrier := [[], [none, some "a", none], []]
    (list (list (option text))).encode x =
        .list [.list [], .list [.null, .text "a", .null], .list []] ∧
      (list (list (option text))).decode ((list (list (option text))).encode x) = .ok x :=
  ⟨rfl, rfl⟩

/-- An option of an option has two members that are written as null. -/
example :
    (option (option int64)).unambiguous = false ∧
      (option (option int64)).decode ((option (option int64)).encode (some none)) = .ok none :=
  ⟨rfl, rfl⟩

end SqlAccess.ColumnType
