/-
**Stores and loads.**

A site is what all cached calls share: the stores, the loads, and which load is in flight for which
key of which policy.  Its operations are the steps that calls and loads take, each of them whole.

A load runs; when it has ended, its value is stored; then it is no longer in flight; and last its
outcome is published to those who wait for it.

Main definitions:

* `SqlAccess.Cache.Ending`, `SqlAccess.Cache.Phase`, `SqlAccess.Cache.Load` — loads and how far they
  are;
* `SqlAccess.Cache.Site` — stores, loads and flights;
* `SqlAccess.Cache.Site.lookup`, `SqlAccess.Cache.Site.evict` — the steps of calls on the stores;
* `SqlAccess.Cache.Site.flight?`, `SqlAccess.Cache.Site.register` — the load to join, or a new one;
* `SqlAccess.Cache.Site.finish`, `SqlAccess.Cache.Site.store`, `SqlAccess.Cache.Site.release`,
  `SqlAccess.Cache.Site.publish` — the steps of a load, and `SqlAccess.Cache.Site.settle`, all of
  them.
-/

import SqlAccess.Cache.Policy

set_option autoImplicit false

namespace SqlAccess.Cache

/-! ### Loads -/

/-- How a run has ended. -/
inductive Ending (α : Type) where
  | returned (outcome : Outcome α)
  | panicked
  deriving Inhabited

/-- How far a load is. -/
inductive Phase (α : Type) where
  | running
  /-- The run has ended. -/
  | ended (ending : Ending (Option α))
  /-- The value is stored, if it is to be. -/
  | stored (ending : Ending (Option α))
  /-- The load is no longer in flight. -/
  | released (ending : Ending (Option α))
  /-- Those who wait can see the outcome. -/
  | published (ending : Ending (Option α))
  deriving Inhabited

/-- A load of a key under a policy. -/
structure Load (α : Type) where
  policy : Nat
  key : String
  phase : Phase α
  deriving Inhabited

/-- Which operations of the stores fail. -/
structure Faults where
  get : Bool
  set : Bool
  delete : Bool
  deriving DecidableEq, Repr, Inhabited

/-- No operation fails. -/
def Faults.none : Faults := ⟨false, false, false⟩

/-! ### Sites -/

/-- A load in flight for a key of a policy. -/
structure Flight where
  policy : Nat
  key : String
  load : Nat
  deriving DecidableEq, Repr, Inhabited

/-- What all cached calls share. -/
structure Site (α : Type) where
  policies : List Policy
  stores : List (Lru α)
  faults : Faults
  /-- The time by which entries age. -/
  now : Nat
  flights : List Flight
  /-- All loads ever started, in the order of their numbers. -/
  loads : List (Load α)
  deriving Inhabited

namespace Site

variable {α : Type}

/-- A site without loads. -/
def ofStores (policies : List Policy) (stores : List (Lru α)) : Site α :=
  ⟨policies, stores, .none, 0, [], []⟩

/-- A policy by its number. -/
def policy (s : Site α) (number : Nat) : Policy := s.policies[number]?.getD default

/-- A store by its number. -/
def storeOf (s : Site α) (number : Nat) : Lru α := s.stores[number]?.getD default

/-- The site with a store changed. -/
def withStore (s : Site α) (number : Nat) (store : Lru α) : Site α :=
  { s with stores := s.stores.set number store }

/-- The number of loads in flight under a policy. -/
def inFlight (s : Site α) (policy : Nat) : Nat :=
  s.flights.countP fun f => f.policy == policy

/-! ### Steps of calls -/

/-- The entry under a key, if the store can be read. -/
def lookup (s : Site α) (policy : Nat) (key : String) : Outcome (Option (Entry α)) × Site α :=
  if s.faults.get then (.error (.other "get failed"), s)
  else
    let number := (s.policy policy).store
    let (entry, store) := (s.storeOf number).get key s.now
    (.ok entry, s.withStore number store)

/-- The key is deleted, if the store can be written. -/
def evict (s : Site α) (policy : Nat) (key : String) : Outcome Unit × Site α :=
  if s.faults.delete then (.error (.other "delete failed"), s)
  else
    let number := (s.policy policy).store
    (.ok (), s.withStore number ((s.storeOf number).delete key))

/-- The load in flight for a key. -/
def flight? (s : Site α) (policy : Nat) (key : String) : Option Nat :=
  (s.flights.find? fun f => f.policy == policy && f.key == key).map Flight.load

/-- A new load, in flight from now on, and its number. -/
def register (s : Site α) (policy : Nat) (key : String) : Nat × Site α :=
  let number := s.loads.length
  (number, { s with
    flights := s.flights ++ [⟨policy, key, number⟩]
    loads := s.loads ++ [⟨policy, key, .running⟩] })

/-! ### Steps of loads -/

/-- A load by its number. -/
def load? (s : Site α) (number : Nat) : Option (Load α) := s.loads[number]?

/-- The site with a load in another phase. -/
def withPhase (s : Site α) (number : Nat) (phase : Phase α) : Site α :=
  match s.load? number with
  | some load => { s with loads := s.loads.set number { load with phase } }
  | none => s

/-- The run of a load has ended. -/
def finish (s : Site α) (number : Nat) (ending : Ending (Option α)) : Site α :=
  match s.load? number with
  | some ⟨_, _, .running⟩ => s.withPhase number (.ended ending)
  | _ => s

/-- What a load hands to its store, if anything. -/
def entryOf (s : Site α) (load : Load α) : Ending (Option α) → Option (Entry α)
  | .returned (.ok value) => (s.policy load.policy).entryFor value
  | _ => none

/-- The value of a load that has ended is stored, if it is to be; a store that cannot be written
leaves an error. -/
def store (s : Site α) (number : Nat) : Option Error × Site α :=
  match s.load? number with
  | some ⟨policy, key, .ended ending⟩ =>
    let next := s.withPhase number (.stored ending)
    match s.entryOf ⟨policy, key, .ended ending⟩ ending with
    | none => (none, next)
    | some entry =>
      if s.faults.set then (some (.other "set failed"), next)
      else
        let target := (s.policy policy).store
        (none, next.withStore target ((s.storeOf target).set key entry s.now))
  | _ => (none, s)

/-- A load whose value is stored is no longer in flight. -/
def release (s : Site α) (number : Nat) : Site α :=
  match s.load? number with
  | some ⟨policy, key, .stored ending⟩ =>
    let next := s.withPhase number (.released ending)
    { next with flights := next.flights.filter fun f => !(f.policy == policy && f.key == key) }
  | _ => s

/-- The outcome of a load that is no longer in flight becomes visible. -/
def publish (s : Site α) (number : Nat) : Site α :=
  match s.load? number with
  | some ⟨_, _, .released ending⟩ => s.withPhase number (.published ending)
  | _ => s

/-- All steps of a load whose run has ended, with the error of its store. -/
def settle (s : Site α) (number : Nat) (ending : Ending (Option α)) : Option Error × Site α :=
  let (problem, s) := (s.finish number ending).store number
  (problem, (s.release number).publish number)

/-- The outcome of a load, once it is visible. -/
def outcome? (s : Site α) (number : Nat) : Option (Ending (Option α)) :=
  match s.load? number with
  | some ⟨_, _, .published ending⟩ => some ending
  | _ => none

end Site

end SqlAccess.Cache
