/-
**What a store holds after any operations.**

A store keeps its entries and the order of their last use apart, and every operation has to change
both alike.  Here it is shown that they never come apart, and what is found under a key is followed
back through all operations to the one that has put it there.

The key is that an entry is stored in one way only: the key becomes the one used last, and of the
keys in their order the last ones stay, as many as there is room for.

Main definitions:

* `SqlAccess.Cache.Lru.Op`, `SqlAccess.Cache.Lru.after`, `SqlAccess.Cache.Lru.ofOps` — operations,
  the store after one of them, and after any number of them;
* `SqlAccess.Cache.Lru.Paired`, `SqlAccess.Cache.Lru.Kept` — the order tells the keys that are held,
  and there are no more than the capacity allows;
* `SqlAccess.Cache.Lru.Loses` — an operation takes an entry away;
* `SqlAccess.Cache.Lru.Latest` — an entry is the last that was put under a key.

Main results:

* `SqlAccess.Cache.Lru.Paired.shrink_eq`, `SqlAccess.Cache.Lru.Paired.set_eq` — what stays when
  there is no more room;
* `SqlAccess.Cache.Lru.Kept.after`, `SqlAccess.Cache.Lru.kept_ofOps` — **entries and order stay
  together**;
* `SqlAccess.Cache.Lru.Kept.find_after` — what one operation does to the entry under each key;
* `SqlAccess.Cache.Lru.latest_of_find` — an entry that is held is the last that was put there;
* `SqlAccess.Cache.Lru.accounted` — **all this of any operations in the order of time**.
-/

import Mathlib.Data.List.DropRight
import SqlAccess.Proofs.Cache.Site

set_option autoImplicit false

namespace SqlAccess

namespace Cache

namespace Lru

variable {α : Type} {s : Lru α} {key other : String} {slot : Slot α} {entry : Entry α}
  {now capacity : Nat} {ttl : Option Duration}

/-! ### Entries and their order -/

/-- The order of use tells the keys that are held, each of them once. -/
structure Paired (s : Lru α) : Prop where
  sorted : s.keys.Pairwise (· < ·)
  nodup : s.order.Nodup
  mem_iff : ∀ key, key ∈ s.order ↔ key ∈ s.keys

/-- A store in order, with no more entries than its capacity allows. -/
structure Kept (s : Lru α) : Prop extends Paired s where
  size_le : s.size ≤ s.capacity

theorem kept_empty (capacity : Nat) (ttl : Option Duration) : (empty capacity ttl : Lru α).Kept :=
  ⟨⟨.nil, .nil, fun _ => Iff.rfl⟩, Nat.zero_le _⟩

namespace Paired

theorem perm (h : s.Paired) : s.order.Perm s.keys :=
  (List.perm_ext_iff_of_nodup h.nodup (h.sorted.imp ne_of_lt)).2 h.mem_iff

theorem length_order (h : s.Paired) : s.order.length = s.size := by
  rw [h.perm.length_eq, keys, List.length_map, size]

theorem find_isSome_iff (h : s.Paired) :
    (findField? key s.slots).isSome = true ↔ key ∈ s.order := by
  rw [isSome_findField?_iff, h.mem_iff, keys]

end Paired

theorem keys_eraseSlot (key : String) (slots : List (String × Slot α)) :
    (eraseSlot key slots).map Prod.fst = (slots.map Prod.fst).filter fun k => k ≠ key := by
  rw [eraseSlot, List.filter_map]
  rfl

/-- A store whose entries and order have both lost a key. -/
theorem Paired.remove (h : s.Paired) (key : String) : (s.remove key).Paired where
  sorted := by
    rw [keys, Lru.remove, keys_eraseSlot]
    exact h.sorted.filter _
  nodup := h.nodup.erase key
  mem_iff other := by
    rw [keys, Lru.remove, keys_eraseSlot, h.nodup.mem_erase_iff, List.mem_filter, h.mem_iff, keys,
      and_comm]
    simp

theorem size_remove_le (s : Lru α) (key : String) : (s.remove key).size ≤ s.size :=
  List.length_filter_le _ _

theorem touch_of_mem {order : List String} (h : key ∈ order) :
    touch order key = order.erase key ++ [key] := if_pos h

/-- An order in which a key has become the one used last. -/
theorem nodup_erase_concat {order : List String} (h : order.Nodup) (key : String) :
    (order.erase key ++ [key]).Nodup := by
  refine List.nodup_append.2 ⟨h.erase key, List.nodup_singleton key, ?_⟩
  intro k hk k' hk'
  rw [List.mem_singleton.1 hk']
  exact (h.mem_erase_iff.1 hk).1

theorem mem_erase_concat_iff {order : List String} (h : order.Nodup) :
    other ∈ order.erase key ++ [key] ↔ other = key ∨ other ∈ order := by
  rw [List.mem_append, h.mem_erase_iff, List.mem_singleton]
  by_cases hkey : other = key <;> simp [hkey]

theorem Paired.touch (h : s.Paired) (hkey : key ∈ s.order) :
    Paired (⟨s.capacity, s.ttl, s.slots, Lru.touch s.order key⟩ : Lru α) where
  sorted := h.sorted
  nodup := by
    rw [touch_of_mem hkey]
    exact nodup_erase_concat h.nodup key
  mem_iff other := by
    rw [touch_of_mem hkey, mem_erase_concat_iff h.nodup, or_iff_right_of_imp]
    · exact h.mem_iff other
    · rintro rfl
      exact hkey

/-! ### What stays when there is no more room -/

theorem rtake_of_length_le {β : Type} {l : List β} {n : Nat} (h : l.length ≤ n) :
    l.rtake n = l := by
  rw [List.rtake, Nat.sub_eq_zero_of_le h, List.drop_zero]

theorem rtake_append_of_le {β : Type} {l' : List β} {n : Nat} (h : n ≤ l'.length) (l : List β) :
    (l ++ l').rtake n = l'.rtake n := by
  have hlength : (l ++ l').length - n = l.length + (l'.length - n) := by
    rw [List.length_append]
    omega
  rw [List.rtake, List.rtake, hlength, List.drop_length_add_append]

theorem mem_of_mem_rtake {β : Type} {l : List β} {n : Nat} {x : β} (h : x ∈ l.rtake n) : x ∈ l :=
  List.mem_of_mem_drop h

theorem length_rtake {β : Type} (l : List β) (n : Nat) : (l.rtake n).length = min n l.length := by
  rw [List.rtake, List.length_drop]
  omega

/-- Of the keys in their order the last ones stay, as many as there is room for. -/
theorem dropOldest_eq (capacity : Nat) {slots : List (String × Slot α)} {order : List String}
    (hkeys : (slots.map Prod.fst).Nodup) (hnodup : order.Nodup)
    (hmem : ∀ key, key ∈ order ↔ key ∈ slots.map Prod.fst) :
    dropOldest capacity slots order =
      (slots.filter fun f => f.1 ∈ order.rtake capacity, order.rtake capacity) := by
  induction order generalizing slots with
  | nil =>
      obtain rfl : slots = [] := by
        refine List.eq_nil_iff_forall_not_mem.2 ?_
        intro f hf
        exact absurd ((hmem f.1).2 (List.mem_map_of_mem hf)) List.not_mem_nil
      simp [dropOldest]
  | cons oldest rest ih =>
      have hlength : slots.length = rest.length + 1 := by
        rw [← List.length_map (f := Prod.fst),
          ← ((List.perm_ext_iff_of_nodup hnodup hkeys).2 hmem).length_eq, List.length_cons]
      obtain ⟨hold, hrest⟩ := List.nodup_cons.1 hnodup
      unfold dropOldest
      split
      · have hrtake : (oldest :: rest).rtake capacity = rest.rtake capacity :=
          rtake_append_of_le (by omega) [oldest]
        rw [hrtake, ih ?keys hrest ?mem, eraseSlot, List.filter_filter]
        · refine congrArg (·, _) (List.filter_congr ?_)
          intro f hf
          -- what stays is not the oldest
          by_cases hlast : f.1 ∈ rest.rtake capacity
          · have hne : f.1 ≠ oldest := fun heq => hold (heq ▸ mem_of_mem_rtake hlast)
            simp [hlast, hne]
          · simp [hlast]
        case keys =>
          rw [keys_eraseSlot]
          exact hkeys.filter _
        case mem =>
          intro key
          have hkey := hmem key
          rw [keys_eraseSlot, List.mem_filter, ← hkey, List.mem_cons]
          by_cases heq : key = oldest
          · simp [heq, hold]
          · simp [heq]
      · rw [rtake_of_length_le (by rw [List.length_cons]; omega)]
        refine congrArg (·, _) (List.filter_eq_self.2 ?_).symm
        intro f hf
        exact decide_eq_true ((hmem f.1).2 (List.mem_map_of_mem hf))

namespace Paired

/-- **The keys used last stay, as many as the capacity allows.** -/
theorem shrink_eq (h : s.Paired) :
    s.shrink = ⟨s.capacity, s.ttl, s.slots.filter fun f => f.1 ∈ s.order.rtake s.capacity,
      s.order.rtake s.capacity⟩ := by
  unfold shrink
  split
  · rename_i hzero
    simp [hzero]
  · rw [dropOldest_eq s.capacity (h.sorted.imp ne_of_lt) h.nodup h.mem_iff]

theorem find_shrink (h : s.Paired) (key : String) :
    findField? key s.shrink.slots =
      if key ∈ s.order.rtake s.capacity then findField? key s.slots else none := by
  rw [h.shrink_eq, findField?_filter fun k => k ∈ s.order.rtake s.capacity]
  simp only [decide_eq_true_eq]

theorem shrink (h : s.Paired) : s.shrink.Kept := by
  have hpaired : s.shrink.Paired := by
    rw [h.shrink_eq]
    constructor
    · exact h.sorted.sublist (List.filter_sublist.map _)
    · exact h.nodup.sublist (List.drop_sublist _ _)
    · intro key
      have hkey : key ∈ s.order.rtake s.capacity → key ∈ s.slots.map Prod.fst := by
        intro hlast
        exact (h.mem_iff key).1 (mem_of_mem_rtake hlast)
      simpa [keys] using hkey
  refine ⟨hpaired, ?_⟩
  rw [← hpaired.length_order, h.shrink_eq, length_rtake]
  exact Nat.min_le_left _ _

end Paired

/-- The store with an entry put under a key, however much room there is. -/
def put (s : Lru α) (key : String) (slot : Slot α) : Lru α :=
  ⟨s.capacity, s.ttl, insertField key slot s.slots, s.order.erase key ++ [key]⟩

namespace Paired

theorem put (h : s.Paired) (key : String) (slot : Slot α) : (s.put key slot).Paired where
  sorted := pairwise_insertField h.sorted key slot
  nodup := nodup_erase_concat h.nodup key
  mem_iff other := by
    rw [Lru.put, keys, mem_erase_concat_iff h.nodup, mem_map_fst_insertField, h.mem_iff, keys]

/-- **An entry is put under its key, and then the store shrinks to its capacity.** -/
theorem set_eq (h : s.Paired) (key : String) (entry : Entry α) (now : Nat) :
    s.set key entry now = (s.put key ⟨entry, now⟩).shrink := by
  have horder : (if (findField? key s.slots).isSome = true then Lru.touch s.order key
      else s.order ++ [key]) = s.order.erase key ++ [key] := by
    split
    · rename_i hheld
      exact touch_of_mem (h.find_isSome_iff.1 hheld)
    · rename_i hfree
      rw [h.find_isSome_iff] at hfree
      rw [List.erase_of_not_mem hfree]
  unfold set
  simp only [horder]
  rfl

end Paired

theorem mem_rtake_concat_self_iff {β : Type} {l : List β} {n : Nat} {x : β} :
    x ∈ (l ++ [x]).rtake n ↔ n ≠ 0 := by
  cases n with
  | zero => simp
  | succ n => simp

/-- Of the other keys at most the one not used for longest goes, and only if there is no room for
a new one. -/
theorem mem_rtake_erase_concat_iff {order : List String} (hnodup : order.Nodup)
    (hlength : order.length ≤ capacity) (hne : other ≠ key) :
    other ∈ (order.erase key ++ [key]).rtake capacity ↔
      other ∈ order ∧ ¬ (key ∉ order ∧ order.length = capacity ∧ order.head? = some other) := by
  by_cases hfull : key ∉ order ∧ order.length = capacity
  · obtain ⟨hkey, rfl⟩ := hfull
    rw [List.erase_of_not_mem hkey]
    cases order with
    | nil => simp
    | cons oldest rest =>
        obtain ⟨hold, -⟩ := List.nodup_cons.1 hnodup
        have hrtake : (oldest :: rest ++ [key]).rtake (oldest :: rest).length = rest ++ [key] := by
          rw [List.cons_append, ← List.singleton_append,
            rtake_append_of_le (by simp), rtake_of_length_le (by simp)]
        rw [hrtake]
        by_cases heq : other = oldest
        · subst heq
          simp [hold, hne, hkey]
        · simp [hne, heq, Ne.symm heq]
  · have hroom : (order.erase key ++ [key]).length ≤ capacity := by
      rw [List.length_append, List.length_singleton, List.length_erase]
      split
      · rename_i hheld
        have hpos : 0 < order.length := List.length_pos_of_mem hheld
        omega
      · rename_i hfree
        have hlt : order.length ≠ capacity := fun heq => hfull ⟨hfree, heq⟩
        omega
    rw [rtake_of_length_le hroom, mem_erase_concat_iff hnodup, or_iff_right hne]
    exact (and_iff_left fun h => hfull ⟨h.1, h.2.1⟩).symm

/-! ### Operations -/

/-- What is done to a store. -/
inductive Op (α : Type) where
  | get (key : String)
  | set (key : String) (entry : Entry α)
  | delete (key : String)
  | clear

/-- The store after an operation at a time. -/
def after (s : Lru α) (now : Nat) : Op α → Lru α
  | .get key => (s.get key now).2
  | .set key entry => s.set key entry now
  | .delete key => s.delete key
  | .clear => s.clear

/-- A store, empty at first, after any number of operations, each at a time. -/
def ofOps (capacity : Nat) (ttl : Option Duration) (ops : List (Nat × Op α)) : Lru α :=
  ops.foldl (fun s op => s.after op.1 op.2) (empty capacity ttl)

theorem ofOps_concat (capacity : Nat) (ttl : Option Duration) (ops : List (Nat × Op α))
    (now : Nat) (op : Op α) :
    ofOps capacity ttl (ops ++ [(now, op)]) = (ofOps capacity ttl ops).after now op := by
  rw [ofOps, List.foldl_concat, ofOps]

/-- No operation changes what a store is set up with. -/
theorem after_setup (s : Lru α) (now : Nat) (op : Op α) :
    (s.after now op).capacity = s.capacity ∧ (s.after now op).ttl = s.ttl := by
  cases op with
  | get key =>
      simp only [after, get]
      split
      · exact ⟨rfl, rfl⟩
      · split <;> exact ⟨rfl, rfl⟩
  | set key entry =>
      simp only [after, set, shrink]
      split <;> exact ⟨rfl, rfl⟩
  | delete key =>
      simp only [after, delete]
      split <;> exact ⟨rfl, rfl⟩
  | clear => exact ⟨rfl, rfl⟩

theorem ofOps_setup (capacity : Nat) (ttl : Option Duration) (ops : List (Nat × Op α)) :
    (ofOps capacity ttl ops).capacity = capacity ∧ (ofOps capacity ttl ops).ttl = ttl := by
  induction ops using List.reverseRecOn with
  | nil => exact ⟨rfl, rfl⟩
  | append_singleton ops op ih =>
      obtain ⟨now, op⟩ := op
      obtain ⟨hcapacity, httl⟩ := (ofOps capacity ttl ops).after_setup now op
      rw [ofOps_concat]
      exact ⟨hcapacity.trans ih.1, httl.trans ih.2⟩

namespace Kept

theorem remove (h : s.Kept) (key : String) : (s.remove key).Kept :=
  ⟨h.toPaired.remove key, (size_remove_le s key).trans h.size_le⟩

/-- **Every operation keeps entries and order together, and the store within its capacity.** -/
theorem after (h : s.Kept) (now : Nat) (op : Op α) : (s.after now op).Kept := by
  cases op with
  | get key =>
      simp only [Lru.after, get]
      split
      · exact h
      · rename_i slot hfind
        split
        · exact h.remove key
        · refine ⟨h.toPaired.touch ?_, h.size_le⟩
          exact h.find_isSome_iff.1 (by rw [hfind]; rfl)
  | set key entry =>
      simp only [Lru.after, h.set_eq]
      exact (h.toPaired.put key _).shrink
  | delete key =>
      simp only [Lru.after, delete]
      split
      · exact h.remove key
      · exact h
  | clear => exact kept_empty s.capacity s.ttl

end Kept

theorem kept_ofOps (capacity : Nat) (ttl : Option Duration) (ops : List (Nat × Op α)) :
    (ofOps capacity ttl ops).Kept := by
  induction ops using List.reverseRecOn with
  | nil => exact kept_empty capacity ttl
  | append_singleton ops op ih =>
      rw [ofOps_concat]
      exact ih.after op.1 op.2

/-! ### What one operation does to an entry -/

/-- An operation takes the entry under a key away: the key is deleted, the store is cleared, the
entry is looked at when it is too old, or it has not been used for longest and there is no room for
a new key. -/
def Loses (s : Lru α) (now : Nat) : Op α → String → Prop
  | .get key, other =>
    other = key ∧ ∃ slot, findField? key s.slots = some slot ∧ s.expired slot now = true
  | .set key _, other => key ∉ s.keys ∧ s.size = s.capacity ∧ s.order.head? = some other
  | .delete key, other => other = key
  | .clear, _ => True

theorem find_get (s : Lru α) (key other : String) (now : Nat) :
    (s.Loses now (.get key) other → findField? other (s.get key now).2.slots = none) ∧
      (¬ s.Loses now (.get key) other →
        findField? other (s.get key now).2.slots = findField? other s.slots) := by
  unfold Loses get
  cases hfind : findField? key s.slots with
  | none =>
      refine ⟨?_, fun _ => rfl⟩
      rintro ⟨-, slot, hslot, -⟩
      rw [hfind] at hslot
      cases hslot
  | some slot =>
      dsimp only
      split
      · rename_i hold
        rw [remove, findField?_eraseSlot]
        refine ⟨fun h => if_pos h.1, fun h => if_neg ?_⟩
        rintro rfl
        exact h ⟨rfl, slot, hfind, hold⟩
      · rename_i hfresh
        refine ⟨?_, fun _ => rfl⟩
        rintro ⟨-, slot', hslot, hold⟩
        rw [hfind] at hslot
        cases hslot
        exact absurd hold hfresh

theorem find_delete (s : Lru α) (key other : String) :
    findField? other (s.delete key).slots =
      if other = key then none else findField? other s.slots := by
  unfold delete
  split
  · exact findField?_eraseSlot key other s.slots
  · rename_i hfree
    split
    · rename_i hkey
      rw [hkey]
      simpa using hfree
    · rfl

theorem Paired.find_set (h : s.Paired) (key other : String) (entry : Entry α) (now : Nat) :
    findField? other (s.set key entry now).slots =
      if other ∈ (s.order.erase key ++ [key]).rtake s.capacity then
        findField? other (insertField key ⟨entry, now⟩ s.slots) else none := by
  rw [h.set_eq]
  exact (h.put key _).find_shrink other

/-- What is stored is found, unless the store has no room at all. -/
theorem Paired.find_set_self (h : s.Paired) (key : String) (entry : Entry α) (now : Nat) :
    findField? key (s.set key entry now).slots =
      if s.capacity = 0 then none else some ⟨entry, now⟩ := by
  rw [h.find_set, findField?_insertField_self]
  by_cases hzero : s.capacity = 0
  · rw [if_pos hzero, if_neg (mt mem_rtake_concat_self_iff.1 (not_not.2 hzero))]
  · rw [if_neg hzero, if_pos (mem_rtake_concat_self_iff.2 hzero)]

theorem Kept.find_set_of_ne (h : s.Kept) (hne : other ≠ key) (entry : Entry α) (now : Nat) :
    (s.Loses now (.set key entry) other → findField? other (s.set key entry now).slots = none) ∧
      (¬ s.Loses now (.set key entry) other →
        findField? other (s.set key entry now).slots = findField? other s.slots) := by
  have hlength : s.order.length ≤ s.capacity := h.length_order ▸ h.size_le
  have hstays := mem_rtake_erase_concat_iff h.nodup hlength hne
  rw [h.length_order, h.mem_iff key] at hstays
  rw [h.find_set, findField?_insertField_of_ne hne]
  constructor
  · intro hloses
    exact if_neg fun hmem => (hstays.1 hmem).2 hloses
  · intro hkeeps
    split
    · rfl
    · rename_i hgone
      have hfree : ¬ other ∈ s.order := fun hmem => hgone (hstays.2 ⟨hmem, hkeeps⟩)
      rw [← h.find_isSome_iff, Option.not_isSome_iff_eq_none] at hfree
      exact hfree.symm

/-- **An operation that stores nothing under a key takes the entry there away, or leaves it as it
is.** -/
theorem Kept.find_after (h : s.Kept) (now : Nat) (op : Op α)
    (hset : ∀ entry, op ≠ .set key entry) :
    (s.Loses now op key → findField? key (s.after now op).slots = none) ∧
      (¬ s.Loses now op key →
        findField? key (s.after now op).slots = findField? key s.slots) := by
  cases op with
  | get other => exact s.find_get other key now
  | set other entry =>
      refine h.find_set_of_ne ?_ entry now
      rintro rfl
      exact hset entry rfl
  | delete other =>
      have hfind := s.find_delete other key
      exact ⟨fun hkey => hfind.trans (if_pos hkey), fun hkey => hfind.trans (if_neg hkey)⟩
  | clear => exact ⟨fun _ => rfl, fun hclear => absurd trivial hclear⟩

/-! ### Entries and operations -/

/-- An operation leaves nothing under a key of what was there. -/
def Op.Replaces (key : String) : Op α → Prop
  | .set other _ | .delete other => other = key
  | .clear => True
  | .get _ => False

/-- An entry is the last that was put under a key, and nothing has replaced it. -/
def Latest (ops : List (Nat × Op α)) (key : String) (slot : Slot α) : Prop :=
  ∃ before later, ops = before ++ (slot.storedAt, .set key slot.entry) :: later ∧
    ∀ op ∈ later, ¬ op.2.Replaces key

theorem Latest.concat {ops : List (Nat × Op α)} {op : Nat × Op α} (h : Latest ops key slot)
    (hop : ¬ op.2.Replaces key) : Latest (ops ++ [op]) key slot := by
  obtain ⟨before, later, rfl, hlater⟩ := h
  refine ⟨before, later ++ [op], by simp, ?_⟩
  intro e he
  rcases List.mem_append.1 he with he | he
  · exact hlater e he
  · exact List.mem_singleton.1 he ▸ hop

/-- **What is held under a key is the last that was put there.** -/
theorem latest_of_find {ops : List (Nat × Op α)}
    (h : findField? key (ofOps capacity ttl ops).slots = some slot) : Latest ops key slot := by
  induction ops using List.reverseRecOn with
  | nil => cases h
  | append_singleton ops op ih =>
      obtain ⟨now, op⟩ := op
      have hkept : (ofOps capacity ttl ops : Lru α).Kept := kept_ofOps capacity ttl ops
      rw [ofOps_concat] at h
      by_cases hset : ∃ entry, op = .set key entry
      · obtain ⟨entry, rfl⟩ := hset
        simp only [after, hkept.find_set_self] at h
        split at h
        · cases h
        · cases h
          exact ⟨ops, [], rfl, fun _ he => absurd he List.not_mem_nil⟩
      · -- the entry was there before, so the operation has not replaced it
        obtain ⟨hlost, hleft⟩ := hkept.find_after now op fun entry heq => hset ⟨entry, heq⟩
        have hkeeps : ¬ (ofOps capacity ttl ops).Loses now op key := by
          intro hloses
          rw [hlost hloses] at h
          cases h
        rw [hleft hkeeps] at h
        refine (ih h).concat ?_
        cases op with
        | get other => exact id
        | set other entry =>
            rintro rfl
            exact hset ⟨entry, rfl⟩
        | delete other =>
            rintro rfl
            exact hkeeps rfl
        | clear => exact fun _ => hkeeps trivial

/-- Operations in the order of their times. -/
def InOrder (ops : List (Nat × Op α)) : Prop := (ops.map Prod.fst).Pairwise (· ≤ ·)

/-- What is returned under a key is held there and is not too old. -/
theorem find_of_hit (h : (s.get key now).1 = some entry) :
    ∃ slot, findField? key s.slots = some slot ∧ slot.entry = entry ∧
      ∀ d, s.ttl = some d → now - slot.storedAt < d.nanos := by
  unfold get at h
  split at h
  · cases h
  · rename_i slot hfind
    split at h
    · cases h
    · rename_i hfresh
      refine ⟨slot, hfind, Option.some.inj h, ?_⟩
      intro d httl
      simpa [expired, httl] using hfresh

/-- **After any operations in the order of their times, the order of use tells the keys that are
held, each of them once, and there are no more than the capacity allows.  What is returned for a key
is the entry that was last put there; since then the key was not deleted and the store not cleared,
and less time has passed than entries live.  And an operation that does not put an entry under a key
leaves what is there as it is, or takes it away**, which it does in the ways that are listed. -/
theorem accounted (capacity : Nat) (ttl : Option Duration) (ops : List (Nat × Op α)) :
    (ofOps capacity ttl ops).Kept ∧ (ofOps capacity ttl ops).size ≤ capacity ∧
    (∀ now key entry, InOrder (ops ++ [(now, .get key)]) →
      ((ofOps capacity ttl ops).get key now).1 = some entry →
      ∃ before stored later, ops = before ++ (stored, .set key entry) :: later ∧
        (∀ op ∈ later, ¬ op.2.Replaces key) ∧ stored ≤ now ∧
        ∀ d, ttl = some d → now - stored < d.nanos) ∧
    (∀ now key entry, findField? key (ofOps capacity ttl (ops ++ [(now, .set key entry)])).slots =
      if capacity = 0 then none else some ⟨entry, now⟩) ∧
    ∀ now op key, (∀ entry, op ≠ .set key entry) →
      ((ofOps capacity ttl ops).Loses now op key →
        findField? key (ofOps capacity ttl (ops ++ [(now, op)])).slots = none) ∧
      (¬ (ofOps capacity ttl ops).Loses now op key →
        findField? key (ofOps capacity ttl (ops ++ [(now, op)])).slots =
          findField? key (ofOps capacity ttl ops).slots) := by
  have hkept : (ofOps capacity ttl ops : Lru α).Kept := kept_ofOps capacity ttl ops
  obtain ⟨hcapacity, httl⟩ := ofOps_setup capacity ttl ops
  refine ⟨hkept, hkept.size_le.trans_eq hcapacity, ?_, ?_, ?_⟩
  · intro now key entry hinOrder hhit
    obtain ⟨slot, hfind, rfl, hfresh⟩ := find_of_hit hhit
    obtain ⟨before, later, rfl, hlater⟩ := latest_of_find hfind
    refine ⟨before, slot.storedAt, later, rfl, hlater, ?_, httl ▸ hfresh⟩
    rw [InOrder, List.map_append, List.pairwise_append] at hinOrder
    refine hinOrder.2.2 slot.storedAt ?_ now List.mem_cons_self
    exact List.mem_map.2 ⟨_, List.mem_append_right _ List.mem_cons_self, rfl⟩
  · intro now key entry
    have hset := hkept.find_set_self key entry now
    rwa [hcapacity, ← show _ = (ofOps capacity ttl ops).set key entry now from
      ofOps_concat capacity ttl ops now (.set key entry)] at hset
  · intro now op key hset
    rw [ofOps_concat]
    exact hkept.find_after now op hset

/-- Two entries that live for ten nanoseconds, one of them looked at in between, and then a third in
a store for two. -/
def crowded : List (Nat × Op Nat) :=
  [(0, .set "a" (.present 1)), (3, .set "b" .absent), (5, .get "a"), (6, .set "c" (.present 3))]

/-- The entry that was looked at is still there, and the other one is gone. -/
theorem accounted_of_crowded :
    InOrder (crowded ++ [(9, .get "a")]) ∧
    ((ofOps 2 (some ⟨10⟩) crowded).get "a" 9).1 = some (.present 1) ∧
    (ofOps 2 (some ⟨10⟩) crowded).Kept ∧
    (∃ before stored later, crowded = before ++ (stored, .set "a" (.present 1)) :: later ∧
      (∀ op ∈ later, ¬ op.2.Replaces "a") ∧ stored ≤ 9 ∧ 9 - stored < 10) ∧
    (ofOps 2 (some ⟨10⟩) (crowded.take 3)).Loses 6 (.set "c" (.present 3)) "b" ∧
    findField? "b" (ofOps 2 (some ⟨10⟩) crowded).slots = none := by
  have hinOrder : InOrder (crowded ++ [(9, .get "a")]) := by simp [InOrder, crowded]
  have hhit : ((ofOps 2 (some ⟨10⟩) crowded).get "a" 9).1 = some (.present 1) := by decide
  have hloses : (ofOps 2 (some ⟨10⟩) (crowded.take 3)).Loses 6 (.set "c" (.present 3)) "b" := by
    refine ⟨?_, ?_, ?_⟩ <;> decide
  obtain ⟨hkept, -, hlatest, -⟩ := accounted 2 (some ⟨10⟩) crowded
  obtain ⟨-, -, -, -, hframe⟩ := accounted 2 (some ⟨10⟩) (crowded.take 3)
  obtain ⟨before, stored, later, hops, hlater, hstored, hfresh⟩ :=
    hlatest 9 "a" (.present 1) hinOrder hhit
  exact ⟨hinOrder, hhit, hkept, ⟨before, stored, later, hops, hlater, hstored, hfresh _ rfl⟩,
    hloses, (hframe 6 (.set "c" (.present 3)) "b" (fun entry => by simp)).1 hloses⟩

end Lru

end Cache

end SqlAccess
