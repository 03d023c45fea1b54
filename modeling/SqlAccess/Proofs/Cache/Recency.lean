/-
**Which entries are still there.**

A store without a time to live loses an entry in one way only: other keys have been used since, too
many for its capacity.  Here this is made exact for any sequence of looking up and storing.  What
counts is how many different keys have been used since a key was used last, and a look-up that
finds nothing is not a use.

The key is a ledger beside the store: the keys in the order of their uses, as often as they were
used.  The order that the store keeps is what this ledger leaves when every key is counted at its
last use only, cut to the capacity.

Main definitions:

* `SqlAccess.Cache.Lru.touched?` — the key that an operation uses;
* `SqlAccess.Cache.Lru.touches` — the keys that operations use, one after another;
* `SqlAccess.Cache.Lru.touchedSince` — the different keys used since a key was used last.

Main results:

* `SqlAccess.Cache.Lru.order_ofOps` — **the order of a store is its ledger, each key at its last
  use, cut to the capacity**;
* `SqlAccess.Cache.Lru.hit_iff_touchedSince` — **a key is found exactly if it was stored and fewer
  other keys than the capacity have been used since its last use**.
-/

import Mathlib.Data.Finset.Card
import SqlAccess.Proofs.Cache.StoreHistory

set_option autoImplicit false

namespace SqlAccess

namespace Cache

namespace Lru

variable {α : Type} {s : Lru α} {key : String} {now capacity : Nat}

/-! ### Uses of keys -/

/-- An entry is looked up or stored. -/
def Op.IsAccess : Op α → Prop
  | .get _ | .set _ _ => True
  | .delete _ | .clear => False

/-- The key that an operation uses: a key that is stored, or looked up and found. -/
def touched? (s : Lru α) (now : Nat) : Op α → Option String
  | .get key => if (s.get key now).1.isSome then some key else none
  | .set key _ => some key
  | .delete _ | .clear => none

/-- The keys that operations use, one after another. -/
def touches (s : Lru α) : List (Nat × Op α) → List String
  | [] => []
  | (now, op) :: ops => (s.touched? now op).toList ++ (s.after now op).touches ops

/-- The different keys that have been used since a key was used last. -/
def touchedSince (key : String) (uses : List String) : Finset String :=
  (uses.rtakeWhile (· ≠ key)).toFinset

theorem touches_concat (s : Lru α) (ops : List (Nat × Op α)) (now : Nat) (op : Op α) :
    s.touches (ops ++ [(now, op)]) =
      s.touches ops ++ ((ops.foldl (fun s op => s.after op.1 op.2) s).touched? now op).toList := by
  induction ops generalizing s with
  | nil => simp [touches]
  | cons first ops ih =>
      rw [List.cons_append, touches, touches, ih, List.foldl_cons, List.append_assoc]

/-- What is stored is used. -/
theorem mem_touches_of_set {ops : List (Nat × Op α)} {stored : Nat} {entry : Entry α}
    (h : (stored, .set key entry) ∈ ops) (s : Lru α) : key ∈ s.touches ops := by
  induction ops generalizing s with
  | nil => cases h
  | cons first ops ih =>
      rw [touches, List.mem_append]
      rcases List.mem_cons.1 h with rfl | h
      · exact Or.inl (List.mem_singleton.2 rfl)
      · exact Or.inr (ih h _)

/-! ### The last uses -/

theorem dedup_concat (uses : List String) (key : String) :
    (uses ++ [key]).dedup = uses.dedup.erase key ++ [key] := by
  induction uses with
  | nil => rfl
  | cons first uses ih =>
      by_cases hlater : first ∈ uses
      · rw [List.cons_append, List.dedup_cons_of_mem (List.mem_append_left _ hlater), ih,
          List.dedup_cons_of_mem hlater]
      · rw [List.cons_append, List.dedup_cons_of_notMem hlater]
        by_cases hkey : first = key
        · subst hkey
          have hfree : first ∉ uses.dedup := fun h => hlater (List.mem_dedup.1 h)
          rw [List.dedup_cons_of_mem (by simp), ih, List.erase_of_not_mem hfree,
            List.erase_cons_head]
        · rw [List.dedup_cons_of_notMem (by simp [hlater, hkey]), ih,
            List.erase_cons_tail (by simpa using hkey), List.cons_append]

/-- Whether an order is cut to the capacity before a key is used makes no difference once it is cut
after that. -/
theorem rtake_erase_concat {order : List String} (hnodup : order.Nodup) (key : String)
    (capacity : Nat) :
    ((order.rtake capacity).erase key ++ [key]).rtake capacity =
      (order.erase key ++ [key]).rtake capacity := by
  rcases Nat.le_total order.length capacity with hroom | hfull
  · rw [rtake_of_length_le hroom]
  · have hlength : (order.rtake capacity).length = capacity := by
      rw [length_rtake, Nat.min_eq_left hfull]
    have hcut : order = order.rdrop capacity ++ order.rtake capacity :=
      (List.take_append_drop _ _).symm
    generalize order.rdrop capacity = older, order.rtake capacity = newer at hlength hcut
    subst hcut
    -- a key among the older ones is not among the newer ones, and these alone fill the capacity
    have hapart : ∀ k ∈ older, k ∉ newer := fun k hold hnew =>
      (List.nodup_append.1 hnodup).2.2 k hold k hnew rfl
    rw [List.erase_append]
    split
    · rename_i hold
      have hfree : key ∉ newer := hapart key hold
      rw [List.append_assoc, rtake_append_of_le (by simp [hlength]) (older.erase key),
        List.erase_of_not_mem hfree]
    · have hle : capacity ≤ (newer.erase key ++ [key]).length := by
        rw [List.length_append, List.length_erase, List.length_singleton]
        split <;> omega
      rw [List.append_assoc, rtake_append_of_le hle older]

theorem mem_rtake_append_cons_iff {newer : List String} (hnew : key ∉ newer)
    (older : List String) :
    key ∈ (older ++ key :: newer).rtake capacity ↔ newer.length < capacity := by
  rcases Nat.lt_or_ge newer.length capacity with hroom | hfull
  · refine iff_of_true ?_ hroom
    have hle : (older ++ key :: newer).length - capacity ≤ older.length := by
      rw [List.length_append, List.length_cons]
      omega
    rw [List.rtake, List.drop_append_of_le_length hle]
    exact List.mem_append_right _ List.mem_cons_self
  · refine iff_of_false ?_ (Nat.not_lt.2 hfull)
    intro hmem
    rw [← List.singleton_append, ← List.append_assoc, rtake_append_of_le hfull] at hmem
    exact hnew (mem_of_mem_rtake hmem)

/-- A key that was used is used last at one place. -/
theorem exists_last_use {uses : List String} (h : key ∈ uses) :
    ∃ before, uses = before ++ key :: uses.rtakeWhile (· ≠ key) ∧
      key ∉ uses.rtakeWhile (· ≠ key) := by
  have hlater : key ∉ uses.rtakeWhile (· ≠ key) := by
    intro hmem
    simpa using List.mem_rtakeWhile_imp hmem
  have hcut : uses.rdropWhile (· ≠ key) ++ uses.rtakeWhile (· ≠ key) = uses :=
    List.rdropWhile_append_rtakeWhile
  have hne : uses.rdropWhile (· ≠ key) ≠ [] := by
    intro hnil
    rw [hnil, List.nil_append] at hcut
    rw [hcut] at hlater
    exact hlater h
  have hlast : (uses.rdropWhile (· ≠ key)).getLast hne = key := by
    simpa using List.rdropWhile_last_not (· ≠ key) uses hne
  refine ⟨(uses.rdropWhile (· ≠ key)).dropLast, ?_, hlater⟩
  conv_lhs => rw [← hcut, ← List.dropLast_concat_getLast hne, hlast, List.append_assoc]
  rfl

/-- **A key is among the last that were used exactly if few others have been used since its own
last use.** -/
theorem mem_rtake_dedup_iff (uses : List String) (key : String) (capacity : Nat) :
    key ∈ uses.dedup.rtake capacity ↔ key ∈ uses ∧ (touchedSince key uses).card < capacity := by
  by_cases hused : key ∈ uses
  · rw [and_iff_right hused]
    obtain ⟨before, huses, hlater⟩ := exists_last_use hused
    rw [touchedSince, List.card_toFinset]
    generalize uses.rtakeWhile (· ≠ key) = later at huses hlater
    obtain ⟨older, holder⟩ : key :: later.dedup <:+ uses.dedup := by
      rw [huses, List.dedup_append, List.dedup_cons_of_notMem hlater]
      exact List.suffix_union_right _ _
    rw [← holder]
    exact mem_rtake_append_cons_iff (mt List.mem_dedup.1 hlater) older
  · refine iff_of_false ?_ fun h => hused h.1
    intro hmem
    exact hused (List.mem_dedup.1 (mem_of_mem_rtake hmem))

/-! ### The order of a store -/

/-- Without a time to live, what is held is found. -/
theorem Paired.get_isSome_iff (h : s.Paired) (httl : s.ttl = none) :
    (s.get key now).1.isSome = true ↔ key ∈ s.order := by
  rw [← h.find_isSome_iff]
  unfold get
  split
  · rename_i hfind
    simp [hfind]
  · rename_i slot hfind
    have hfresh : s.expired slot now = false := by rw [expired, httl]
    simp [hfind, hfresh]

/-- **A key that is used becomes the one used last; otherwise the order stays.** -/
theorem Kept.order_after (h : s.Kept) (httl : s.ttl = none) (now : Nat) {op : Op α}
    (haccess : op.IsAccess) :
    (s.after now op).order =
      ((s.touched? now op).elim s.order fun key => s.order.erase key ++ [key]).rtake
        s.capacity := by
  have hlength : s.order.length ≤ s.capacity := h.length_order ▸ h.size_le
  cases op with
  | get key =>
      have hhit : (s.get key now).1.isSome = true ↔ key ∈ s.order := h.get_isSome_iff httl
      rw [touched?]
      split
      · rename_i hfound
        have hheld : key ∈ s.order := hhit.1 hfound
        have hroom : (s.order.erase key ++ [key]).length ≤ s.capacity := by
          have hpos : 0 < s.order.length := List.length_pos_of_mem hheld
          rw [List.length_append, List.length_erase_of_mem hheld, List.length_singleton]
          omega
        rw [Option.elim_some, rtake_of_length_le hroom, ← touch_of_mem hheld]
        revert hfound
        simp only [Lru.after, get]
        split
        · simp
        · split
          · simp
          · intro _
            rfl
      · rename_i hmissed
        rw [Option.elim_none, rtake_of_length_le hlength]
        have hfree : findField? key s.slots = none := by
          rw [hhit, ← h.find_isSome_iff] at hmissed
          simpa using hmissed
        simp only [Lru.after, get, hfree]
  | set key entry =>
      rw [Lru.after, h.set_eq, (h.put key _).shrink_eq]
      rfl
  | delete key => exact haccess.elim
  | clear => exact haccess.elim

/-- **The order of a store is its ledger, each key at its last use, cut to the capacity.** -/
theorem order_ofOps (capacity : Nat) {ops : List (Nat × Op α)}
    (haccess : ∀ op ∈ ops, op.2.IsAccess) :
    (ofOps capacity none ops).order =
      ((empty capacity none).touches ops).dedup.rtake capacity := by
  induction ops using List.reverseRecOn with
  | nil => simp [ofOps, empty, touches]
  | append_singleton ops op ih =>
      obtain ⟨now, op⟩ := op
      have hkept : (ofOps capacity none ops : Lru α).Kept := kept_ofOps capacity none ops
      obtain ⟨hcapacity, httl⟩ := ofOps_setup (α := α) capacity none ops
      have hop : op.IsAccess := haccess (now, op) (by simp)
      rw [ofOps_concat, hkept.order_after httl now hop, hcapacity, touches_concat,
        ih fun op hmem => haccess op (List.mem_append_left _ hmem)]
      change _ = (_ ++ ((ofOps capacity none ops).touched? now op).toList).dedup.rtake capacity
      have hnodup : ((empty capacity none).touches ops).dedup.Nodup := List.nodup_dedup _
      cases (ofOps capacity none ops).touched? now op with
      | none =>
          rw [Option.elim_none, Option.toList_none, List.append_nil]
          refine rtake_of_length_le ?_
          rw [length_rtake]
          exact Nat.min_le_left _ _
      | some key =>
          rw [Option.elim_some, Option.toList_some, dedup_concat, rtake_erase_concat hnodup]

/-- **In a store without a time to live, after any look-ups and stores, a key is found exactly if it
was stored before and fewer different other keys than the capacity have been used since it was used
last.**  To use a key is to store it, or to look it up and find it. -/
theorem hit_iff_touchedSince (capacity : Nat) (ops : List (Nat × Op α))
    (haccess : ∀ op ∈ ops, op.2.IsAccess) (key : String) (now : Nat) :
    ((ofOps capacity none ops).get key now).1.isSome = true ↔
      (∃ stored entry, (stored, .set key entry) ∈ ops) ∧
        (touchedSince key ((empty capacity none).touches ops)).card < capacity := by
  have hkept : (ofOps capacity none ops : Lru α).Kept := kept_ofOps capacity none ops
  rw [hkept.get_isSome_iff (ofOps_setup capacity none ops).2]
  constructor
  · intro hheld
    have hrecent := hheld
    rw [order_ofOps capacity haccess, mem_rtake_dedup_iff] at hrecent
    obtain ⟨slot, hslot⟩ := Option.isSome_iff_exists.1 (hkept.find_isSome_iff.2 hheld)
    obtain ⟨before, later, hops, -⟩ := latest_of_find hslot
    refine ⟨⟨slot.storedAt, slot.entry, ?_⟩, hrecent.2⟩
    rw [hops]
    exact List.mem_append_right _ List.mem_cons_self
  · rintro ⟨⟨stored, entry, hstored⟩, hfew⟩
    rw [order_ofOps capacity haccess, mem_rtake_dedup_iff]
    exact ⟨mem_touches_of_set hstored _, hfew⟩

/-- Of two entries in a store for two, the one that was looked up since is found after a third one
is stored; the other is not. -/
theorem hit_iff_touchedSince_of_crowded :
    (∀ op ∈ crowded, op.2.IsAccess) ∧
    ((ofOps 2 none crowded).get "a" 9).1.isSome = true ∧
    ((ofOps 2 none crowded).get "b" 9).1.isSome = false := by
  have haccess : ∀ op ∈ crowded, op.2.IsAccess := by simp [crowded, Op.IsAccess]
  have hrecent : (touchedSince "a" ((empty 2 none).touches crowded)).card < 2 := by decide
  have hold : ¬ (touchedSince "b" ((empty 2 none).touches crowded)).card < 2 := by decide
  refine ⟨haccess, ?_, ?_⟩
  · exact (hit_iff_touchedSince 2 crowded haccess "a" 9).2 ⟨⟨0, _, List.mem_cons_self⟩, hrecent⟩
  · rw [Bool.eq_false_iff]
    intro hhit
    exact hold ((hit_iff_touchedSince 2 crowded haccess "b" 9).1 hhit).2

end Lru

end Cache

end SqlAccess
