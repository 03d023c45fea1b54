/-
**What the steps of a site change.**

Each step of a site is seen here from two sides: which load it takes into which phase, and which
entries the stores hold after it.  Of a store only what is found under each key is followed, and not
the order in which keys were last used: what is forgotten for lack of room is gone, no more.

Main definitions:

* `SqlAccess.Cache.Site.At` — the load of a flight is in a phase;
* `SqlAccess.Cache.Site.Moved` — one load has gone over to a phase, and no other has;
* `SqlAccess.Cache.Site.OnlyStores` — nothing but the stores has changed;
* `SqlAccess.Cache.Site.Holds` — a store holds an entry under a key.

Main results:

* `SqlAccess.Cache.Site.moved_register`, `SqlAccess.Cache.Site.moved_finish`,
  `SqlAccess.Cache.Site.moved_store`, `SqlAccess.Cache.Site.moved_release`,
  `SqlAccess.Cache.Site.moved_publish` — the phases;
* `SqlAccess.Cache.Site.holds_of_lookup`, `SqlAccess.Cache.Site.holds_of_evict`,
  `SqlAccess.Cache.Site.holds_of_store` — only the end of a load adds an entry, and that entry
  takes the place of any other;
* `SqlAccess.Cache.Site.holds_of_hit`, `SqlAccess.Cache.Site.not_holds_evict` — what is found was
  held, and what is evicted is held no more.
-/

import SqlAccess.Cache.Site
import SqlAccess.Proofs.Fields

set_option autoImplicit false

namespace SqlAccess

namespace Cache

variable {α : Type} {key other : String}

/-! ### The slots of a store -/

namespace Lru

variable {st : Lru α} {slot : Slot α} {entry : Entry α} {now : Nat}

theorem findField?_eraseSlot (key other : String) (slots : List (String × Slot α)) :
    findField? other (eraseSlot key slots) =
      if other = key then none else findField? other slots := by
  rw [eraseSlot, findField?_filter fun k => k ≠ key]
  by_cases hkey : other = key <;> simp [hkey]

theorem find_of_get (h : findField? other (st.get key now).2.slots = some slot) :
    findField? other st.slots = some slot := by
  unfold get at h
  split at h
  · exact h
  · split at h
    · rw [remove, findField?_eraseSlot] at h
      split at h
      · cases h
      · exact h
    · exact h

theorem find_of_get_eq_some (h : (st.get key now).1 = some entry) :
    ∃ slot, findField? key st.slots = some slot ∧ slot.entry = entry := by
  unfold get at h
  split at h
  · cases h
  · rename_i slot hfind
    split at h
    · cases h
    · exact ⟨slot, hfind, Option.some.inj h⟩

theorem find_of_delete (h : findField? other (st.delete key).slots = some slot) :
    findField? other st.slots = some slot := by
  unfold delete at h
  split at h
  · rw [remove, findField?_eraseSlot] at h
    split at h
    · cases h
    · exact h
  · exact h

theorem find_delete_self (st : Lru α) (key : String) :
    findField? key (st.delete key).slots = none := by
  unfold delete
  split
  · rw [remove, findField?_eraseSlot, if_pos rfl]
  · rename_i hfind
    simpa using hfind

theorem find_of_dropOldest {capacity : Nat} {slots : List (String × Slot α)} {order : List String}
    (h : findField? other (dropOldest capacity slots order).1 = some slot) :
    findField? other slots = some slot := by
  induction order generalizing slots with
  | nil => exact h
  | cons oldest rest ih =>
      unfold dropOldest at h
      split at h
      · have hrest := ih h
        rw [findField?_eraseSlot] at hrest
        split at hrest
        · cases hrest
        · exact hrest
      · exact h

theorem find_of_shrink (h : findField? other st.shrink.slots = some slot) :
    findField? other st.slots = some slot := by
  unfold shrink at h
  split at h
  · cases h
  · exact find_of_dropOldest h

/-- What is stored under a key is the last entry stored there; other keys are as before. -/
theorem find_of_set (h : findField? other (st.set key entry now).slots = some slot) :
    (other = key ∧ slot.entry = entry) ∨ (other ≠ key ∧ findField? other st.slots = some slot) := by
  have hinsert := find_of_shrink h
  by_cases hkey : other = key
  · subst hkey
    rw [findField?_insertField_self] at hinsert
    cases hinsert
    exact .inl ⟨rfl, rfl⟩
  · rw [findField?_insertField_of_ne hkey] at hinsert
    exact .inr ⟨hkey, hinsert⟩

end Lru

namespace Site

variable {s s' : Site α} {f g : Flight} {phase phase' : Phase α} {number policy : Nat}

theorem policy_congr (h : s'.policies = s.policies) (number : Nat) :
    s'.policy number = s.policy number := by
  unfold Site.policy
  rw [h]

/-! ### Phases -/

/-- The load of a flight is in a phase. -/
def At (s : Site α) (f : Flight) (phase : Phase α) : Prop :=
  s.load? f.load = some ⟨f.policy, f.key, phase⟩

/-- The load of a flight has gone over to a phase, and no other load to any. -/
def Moved (s : Site α) (f : Flight) (after : Phase α) (s' : Site α) : Prop :=
  ∀ g phase, s'.At g phase ↔ (g = f ∧ phase = after) ∨ (g.load ≠ f.load ∧ s.At g phase)

theorem At.unique (h : s.At f phase) (hg : s.At g phase') (hload : g.load = f.load) :
    g = f ∧ phase' = phase := by
  obtain ⟨policy, key, load⟩ := f
  obtain ⟨policy', key', load'⟩ := g
  cases hload
  have heq := hg.symm.trans h
  cases heq
  exact ⟨rfl, rfl⟩

theorem At.lt_length (h : s.At f phase) : f.load < s.loads.length :=
  (List.getElem?_eq_some_iff.1 h).1

theorem At.congr (h : s'.loads = s.loads) : s'.At f phase ↔ s.At f phase := by
  unfold At load?
  rw [h]

theorem Moved.at (h : s.Moved f phase s') : s'.At f phase := (h f phase).2 (.inl ⟨rfl, rfl⟩)

theorem Moved.of_ne (h : s.Moved f phase s') (hne : g.load ≠ f.load) :
    s'.At g phase' ↔ s.At g phase' := by
  rw [h g phase']
  constructor
  · rintro (⟨rfl, -⟩ | ⟨-, hat⟩)
    · exact absurd rfl hne
    · exact hat
  · intro hat
    exact .inr ⟨hne, hat⟩

theorem moved_set (h : s.At f phase)
    (hloads : s'.loads = s.loads.set f.load ⟨f.policy, f.key, phase'⟩) : s.Moved f phase' s' := by
  have hself : s'.At f phase' := by
    unfold At load?
    rw [hloads, List.getElem?_set_self h.lt_length]
  intro g phase''
  by_cases hload : g.load = f.load
  · constructor
    · intro hg
      exact .inl (hself.unique hg hload)
    · rintro (⟨rfl, rfl⟩ | ⟨hne, -⟩)
      · exact hself
      · exact absurd hload hne
  · have hother : s'.At g phase'' ↔ s.At g phase'' := by
      unfold At load?
      rw [hloads, List.getElem?_set_ne (Ne.symm hload)]
    rw [hother]
    constructor
    · intro hg
      exact .inr ⟨hload, hg⟩
    · rintro (⟨rfl, -⟩ | ⟨-, hg⟩)
      · exact absurd rfl hload
      · exact hg

theorem moved_register (s : Site α) (policy : Nat) (key : String) :
    s.Moved ⟨policy, key, (s.register policy key).1⟩ .running (s.register policy key).2 := by
  intro g phase
  have hnew : (s.register policy key).2.loads = s.loads ++ [⟨policy, key, .running⟩] := rfl
  unfold At load?
  rw [hnew]
  rcases Nat.lt_or_ge g.load s.loads.length with hlt | hge
  · have hne : g.load ≠ s.loads.length := Nat.ne_of_lt hlt
    rw [List.getElem?_append_left hlt]
    constructor
    · intro hg
      exact .inr ⟨hne, hg⟩
    · rintro (⟨rfl, -⟩ | ⟨-, hg⟩)
      · exact absurd rfl hne
      · exact hg
  · rw [List.getElem?_append_right hge]
    constructor
    · intro hg
      obtain ⟨hindex, hload⟩ := List.getElem?_eq_some_iff.1 hg
      have hzero : g.load - s.loads.length = 0 := by simpa using hindex
      have hload : (⟨policy, key, .running⟩ : Load α) = ⟨g.policy, g.key, phase⟩ := by
        simpa [hzero] using hload
      cases hload
      have heq : g.load = s.loads.length := by omega
      exact .inl ⟨by rw [register, ← heq], rfl⟩
    · rintro (⟨rfl, rfl⟩ | ⟨-, hg⟩)
      · simp [register]
      · have hlt := (List.getElem?_eq_some_iff.1 hg).1
        omega

theorem withPhase_of_at (h : s.At f phase) (phase' : Phase α) :
    s.withPhase f.load phase' =
      { s with loads := s.loads.set f.load ⟨f.policy, f.key, phase'⟩ } := by
  unfold withPhase
  rw [show s.load? f.load = _ from h]

theorem finish_of_at (h : s.At f .running) (ending : Ending (Option α)) :
    s.finish f.load ending = s.withPhase f.load (.ended ending) := by
  unfold finish
  rw [show s.load? f.load = _ from h]

theorem release_of_at {ending : Ending (Option α)} (h : s.At f (.stored ending)) :
    s.release f.load =
      { s with
        flights := s.flights.filter fun g => !(g.policy == f.policy && g.key == f.key)
        loads := s.loads.set f.load ⟨f.policy, f.key, .released ending⟩ } := by
  unfold release
  rw [show s.load? f.load = _ from h]
  simp only [withPhase_of_at h]

theorem publish_of_at {ending : Ending (Option α)} (h : s.At f (.released ending)) :
    s.publish f.load = s.withPhase f.load (.published ending) := by
  unfold publish
  rw [show s.load? f.load = _ from h]

theorem moved_finish (h : s.At f .running) (ending : Ending (Option α)) :
    s.Moved f (.ended ending) (s.finish f.load ending) :=
  moved_set h (by rw [finish_of_at h, withPhase_of_at h])

/-- Of a site only what its stores hold has changed. -/
def OnlyStores (s s' : Site α) : Prop := ∃ stores, s' = { s with stores }

theorem OnlyStores.loads (h : s.OnlyStores s') : s'.loads = s.loads := by
  obtain ⟨stores, rfl⟩ := h
  rfl

theorem OnlyStores.flights (h : s.OnlyStores s') : s'.flights = s.flights := by
  obtain ⟨stores, rfl⟩ := h
  rfl

theorem OnlyStores.policies (h : s.OnlyStores s') : s'.policies = s.policies := by
  obtain ⟨stores, rfl⟩ := h
  rfl

section

variable {ending : Ending (Option α)}

/-- What the end of a load hands to its store, if anything. -/
abbrev handed (s : Site α) (f : Flight) (ending : Ending (Option α)) : Option (Entry α) :=
  s.entryOf ⟨f.policy, f.key, .ended ending⟩ ending

theorem store_of_handed_none (h : s.At f (.ended ending)) (hnone : s.handed f ending = none) :
    s.store f.load = (none, s.withPhase f.load (.stored ending)) := by
  unfold store
  rw [show s.load? f.load = _ from h]
  simp only [hnone]

theorem store_of_handed_some {entry : Entry α} (h : s.At f (.ended ending))
    (hsome : s.handed f ending = some entry) :
    s.store f.load =
      if s.faults.set then
        (some (.other "set failed"), s.withPhase f.load (.stored ending))
      else
        (none, (s.withPhase f.load (.stored ending)).withStore (s.policy f.policy).store
          ((s.storeOf (s.policy f.policy).store).set f.key entry s.now)) := by
  unfold store
  rw [show s.load? f.load = _ from h]
  simp only [hsome]

theorem onlyStores_store (h : s.At f (.ended ending)) :
    (s.withPhase f.load (.stored ending)).OnlyStores (s.store f.load).2 := by
  cases hhanded : s.handed f ending with
  | none =>
      rw [store_of_handed_none h hhanded]
      exact ⟨_, rfl⟩
  | some entry =>
      rw [store_of_handed_some h hhanded]
      split <;> exact ⟨_, rfl⟩

theorem moved_store (h : s.At f (.ended ending)) :
    s.Moved f (.stored ending) (s.store f.load).2 :=
  moved_set h (by rw [(onlyStores_store h).loads, withPhase_of_at h])

theorem moved_release (h : s.At f (.stored ending)) :
    s.Moved f (.released ending) (s.release f.load) :=
  moved_set h (by rw [release_of_at h])

theorem moved_publish (h : s.At f (.released ending)) :
    s.Moved f (.published ending) (s.publish f.load) :=
  moved_set h (by rw [publish_of_at h, withPhase_of_at h])

end

/-! ### Looks and evictions -/

theorem onlyStores_lookup (s : Site α) (policy : Nat) (key : String) :
    s.OnlyStores (s.lookup policy key).2 := by
  unfold lookup
  split <;> exact ⟨_, rfl⟩

theorem onlyStores_evict (s : Site α) (policy : Nat) (key : String) :
    s.OnlyStores (s.evict policy key).2 := by
  unfold evict
  split <;> exact ⟨_, rfl⟩

/-! ### Entries -/

/-- A store holds an entry under a key. -/
def Holds (s : Site α) (number : Nat) (key : String) (entry : Entry α) : Prop :=
  ∃ slot, findField? key (s.storeOf number).slots = some slot ∧ slot.entry = entry

theorem storeOf_withStore (s : Site α) (number i : Nat) (st : Lru α) :
    (s.withStore number st).storeOf i =
      if number = i ∧ i < s.stores.length then st else s.storeOf i := by
  unfold storeOf withStore
  rw [List.getElem?_set]
  by_cases hnumber : number = i
  · subst hnumber
    by_cases hlt : number < s.stores.length
    · simp [hlt]
    · simp [hlt]
  · simp [hnumber]

theorem not_holds_of_length_le {i : Nat} {entry : Entry α} (h : s.stores.length ≤ i) :
    ¬ s.Holds i key entry := by
  rintro ⟨slot, hfind, -⟩
  unfold storeOf at hfind
  rw [List.getElem?_eq_none h] at hfind
  cases hfind

/-- Entries are kept from a store that holds no more than before. -/
theorem holds_of_withStore {st : Lru α} {i : Nat} {entry : Entry α}
    (hst : ∀ other slot, findField? other st.slots = some slot →
      findField? other (s.storeOf number).slots = some slot)
    (h : (s.withStore number st).Holds i key entry) : s.Holds i key entry := by
  obtain ⟨slot, hfind, hentry⟩ := h
  rw [storeOf_withStore] at hfind
  split at hfind
  · rename_i hnumber
    rw [hnumber.1] at hst
    exact ⟨slot, hst _ _ hfind, hentry⟩
  · exact ⟨slot, hfind, hentry⟩

variable {i : Nat} {entry : Entry α}

theorem holds_of_lookup (h : (s.lookup policy other).2.Holds i key entry) :
    s.Holds i key entry := by
  unfold lookup at h
  split at h
  · exact h
  · exact holds_of_withStore (fun _ _ => Lru.find_of_get) h

theorem holds_of_evict (h : (s.evict policy other).2.Holds i key entry) :
    s.Holds i key entry := by
  unfold evict at h
  split at h
  · exact h
  · exact holds_of_withStore (fun _ _ => Lru.find_of_delete) h

theorem holds_of_hit (h : (s.lookup policy key).1 = .ok (some entry)) :
    s.Holds (s.policy policy).store key entry := by
  unfold lookup at h
  split at h
  · cases h
  · exact Lru.find_of_get_eq_some (Except.ok.inj h)

theorem not_holds_evict (h : (s.evict policy key).1 = .ok ()) :
    ¬ (s.evict policy key).2.Holds (s.policy policy).store key entry := by
  unfold evict at h ⊢
  split at h
  · cases h
  · rename_i hfault
    rw [if_neg hfault]
    by_cases hrange : s.stores.length ≤ (s.policy policy).store
    · exact not_holds_of_length_le (by simpa [withStore] using hrange)
    · rintro ⟨slot, hfind, -⟩
      rw [storeOf_withStore, if_pos ⟨rfl, Nat.lt_of_not_le hrange⟩, Lru.find_delete_self] at hfind
      cases hfind

/-- After the end of a load a store holds the entry that the load has put there, or what it held
before, if the load has put nothing there. -/
theorem holds_of_store {ending : Ending (Option α)} (hat : s.At f (.ended ending))
    (h : (s.store f.load).2.Holds i key entry) :
    (s.handed f ending = some entry ∧ (s.store f.load).1 = none ∧
        (s.policy f.policy).store = i ∧ f.key = key) ∨
      (s.Holds i key entry ∧ ((s.handed f ending).isSome = true → (s.store f.load).1 = none →
        ¬ ((s.policy f.policy).store = i ∧ f.key = key))) := by
  cases hhanded : s.handed f ending with
  | none =>
      rw [store_of_handed_none hat hhanded, withPhase_of_at hat] at h
      exact .inr ⟨h, nofun⟩
  | some new =>
      rw [store_of_handed_some hat hhanded, withPhase_of_at hat] at h
      rw [store_of_handed_some hat hhanded]
      split at h
      · rename_i hfault
        rw [if_pos hfault]
        exact .inr ⟨h, fun _ => nofun⟩
      · rename_i hfault
        rw [if_neg hfault]
        by_cases hrange : s.stores.length ≤ i
        · exact absurd h (not_holds_of_length_le (by simpa [withStore] using hrange))
        · obtain ⟨slot, hfind, hentry⟩ := h
          rw [storeOf_withStore] at hfind
          by_cases hstore : (s.policy f.policy).store = i
          · rw [if_pos ⟨hstore, Nat.lt_of_not_le hrange⟩] at hfind
            rcases Lru.find_of_set hfind with ⟨hkey, hnew⟩ | ⟨hkey, hfind⟩
            · rw [hnew] at hentry
              exact .inl ⟨congrArg some hentry, rfl, hstore, hkey.symm⟩
            · rw [hstore] at hfind
              exact .inr ⟨⟨slot, hfind, hentry⟩, fun _ _ h => hkey h.2.symm⟩
          · rw [if_neg fun h => hstore h.1] at hfind
            exact .inr ⟨⟨slot, hfind, hentry⟩, fun _ _ h => hstore h.1⟩

end Site

end Cache

end SqlAccess
