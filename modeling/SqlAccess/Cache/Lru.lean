/-
**A store that forgets what was used least recently.**

A store holds a bounded number of entries by key, and may give each a time to live.  Beside the
entries it keeps their keys in the order of their last use.

Main definitions:

* `SqlAccess.Cache.Entry` — a value, or the remembered fact that there is none;
* `SqlAccess.Cache.Lru` — the store;
* `SqlAccess.Cache.Lru.get`, `SqlAccess.Cache.Lru.set`, `SqlAccess.Cache.Lru.delete`,
  `SqlAccess.Cache.Lru.clear` — its operations, each at a time;
* `SqlAccess.Cache.Lru.keys` — the keys held, in the order of the entries.
-/

import SqlAccess.Fields
import SqlAccess.Time.Duration

set_option autoImplicit false

namespace SqlAccess.Cache

/-- What a store holds under a key: a value, or the remembered fact that there is none. -/
inductive Entry (α : Type) where
  | present (value : α)
  | absent
  deriving DecidableEq, Repr, Inhabited

/-- The value of an entry, if there is one. -/
def Entry.toOption {α : Type} : Entry α → Option α
  | present value => some value
  | absent => none

/-- An entry and the time at which it was stored. -/
structure Slot (α : Type) where
  entry : Entry α
  storedAt : Nat
  deriving Inhabited

/-- A store of at most `capacity` entries. -/
structure Lru (α : Type) where
  capacity : Nat
  /-- How long an entry lives, if its life is limited. -/
  ttl : Option Duration
  slots : List (String × Slot α)
  /-- The keys, least recently used first. -/
  order : List String
  deriving Inhabited

namespace Lru

variable {α : Type}

/-- The store without entries. -/
def empty (capacity : Nat) (ttl : Option Duration) : Lru α := ⟨capacity, ttl, [], []⟩

/-- The keys held. -/
def keys (s : Lru α) : List String := s.slots.map Prod.fst

/-- How many entries are held. -/
def size (s : Lru α) : Nat := s.slots.length

/-- The slots without a key. -/
def eraseSlot (key : String) (slots : List (String × Slot α)) : List (String × Slot α) :=
  slots.filter fun slot => slot.1 ≠ key

/-- The store without a key. -/
def remove (s : Lru α) (key : String) : Lru α :=
  ⟨s.capacity, s.ttl, eraseSlot key s.slots, s.order.erase key⟩

/-- A key becomes the one used last. -/
def touch (order : List String) (key : String) : List String :=
  if key ∈ order then order.erase key ++ [key] else order

/-- Whether a slot has outlived its time. -/
def expired (s : Lru α) (slot : Slot α) (now : Nat) : Bool :=
  match s.ttl with
  | some ttl => ttl.nanos ≤ now - slot.storedAt
  | none => false

/-- The entry under a key, which becomes the one used last; an expired one is removed. -/
def get (s : Lru α) (key : String) (now : Nat) : Option (Entry α) × Lru α :=
  match findField? key s.slots with
  | none => (none, s)
  | some slot =>
    if s.expired slot now then (none, s.remove key)
    else (some slot.entry, ⟨s.capacity, s.ttl, s.slots, touch s.order key⟩)

/-- The slots and the order without the least recently used keys beyond the capacity. -/
def dropOldest (capacity : Nat) (slots : List (String × Slot α)) :
    List String → List (String × Slot α) × List String
  | [] => (slots, [])
  | oldest :: rest =>
    if capacity < slots.length then dropOldest capacity (eraseSlot oldest slots) rest
    else (slots, oldest :: rest)

/-- No more entries than the capacity allows. -/
def shrink (s : Lru α) : Lru α :=
  if s.capacity = 0 then ⟨s.capacity, s.ttl, [], []⟩
  else
    let (slots, order) := dropOldest s.capacity s.slots s.order
    ⟨s.capacity, s.ttl, slots, order⟩

/-- An entry stored under a key, which becomes the one used last. -/
def set (s : Lru α) (key : String) (entry : Entry α) (now : Nat) : Lru α :=
  let order :=
    if (findField? key s.slots).isSome then touch s.order key else s.order ++ [key]
  shrink ⟨s.capacity, s.ttl, insertField key ⟨entry, now⟩ s.slots, order⟩

/-- The store without an entry under the key. -/
def delete (s : Lru α) (key : String) : Lru α :=
  if (findField? key s.slots).isSome then s.remove key else s

/-- The store without entries. -/
def clear (s : Lru α) : Lru α := ⟨s.capacity, s.ttl, [], []⟩

end Lru

end SqlAccess.Cache
