/-
**What has been stored is not loaded again.**

A load puts its value into the store before it gives up its place, so a read finds the one or the
other, as long as nothing comes between its look into the store and its decision and the store loses
nothing.  Then a key is loaded until a load of it has stored an entry, and never after.

The store loses an entry when a key is deleted, when an entry that is looked for is too old, and
when there is no room for a new one.

Main definitions:

* `SqlAccess.Cache.Site.Occupied` — a store holds some entry under a key;
* `SqlAccess.Cache.Event.Loses` — the store loses an entry by an event;
* `SqlAccess.Cache.QuietRun` — **a run in which the store loses nothing**;
* `SqlAccess.Cache.Prompt` — a read that has found nothing goes on before anything else happens.

Main results:

* `SqlAccess.Cache.Step.occupied` — what is stored stays, if the store loses nothing;
* `SqlAccess.Cache.QuietRun.of_missed` — a read about to decide has found nothing, and nothing is
  there;
* `SqlAccess.Cache.QuietRun.stored_never_reloaded` — **once a load has stored an entry, its key is
  not loaded again**.
-/

import SqlAccess.Proofs.Cache.Origin
import SqlAccess.Proofs.Cache.SingleFlight

set_option autoImplicit false

namespace SqlAccess.Cache

variable {α : Type} {key other : String}

/-! ### Stores that lose nothing -/

namespace Lru

variable {st : Lru α} {entry : Entry α} {now : Nat}

/-- A look at an entry that is not too old leaves all entries. -/
theorem slots_get (h : ∀ slot, findField? key st.slots = some slot → st.expired slot now = false) :
    (st.get key now).2.slots = st.slots := by
  unfold get
  split
  · rfl
  · rename_i slot hfind
    rw [h slot hfind]
    rfl

theorem find_eq_none_of_get
    (h : ∀ slot, findField? key st.slots = some slot → st.expired slot now = false)
    (hnone : (st.get key now).1 = none) : findField? key st.slots = none := by
  unfold get at hnone
  split at hnone
  · assumption
  · rename_i slot hfind
    rw [h slot hfind] at hnone
    cases hnone

theorem dropOldest_of_le {capacity : Nat} {slots : List (String × Slot α)}
    (h : slots.length ≤ capacity) (order : List String) :
    dropOldest capacity slots order = (slots, order) := by
  cases order with
  | nil => rfl
  | cons oldest rest => exact if_neg (Nat.not_lt_of_le h)

/-- An entry for which there is room is stored beside the others. -/
theorem slots_set (h : (insertField key ⟨entry, now⟩ st.slots).length ≤ st.capacity) :
    (st.set key entry now).slots = insertField key ⟨entry, now⟩ st.slots := by
  have hcapacity : st.capacity ≠ 0 := by
    intro hzero
    rw [hzero, Nat.le_zero, List.length_eq_zero_iff] at h
    have hfind := findField?_insertField_self key (⟨entry, now⟩ : Slot α) st.slots
    rw [h] at hfind
    cases hfind
  unfold set shrink
  rw [if_neg hcapacity, dropOldest_of_le h]

end Lru

namespace Site

variable {s : Site α} {f : Flight} {number policy i : Nat} {ending : Ending (Option α)}

/-- A store holds some entry under a key. -/
def Occupied (s : Site α) (number : Nat) (key : String) : Prop := ∃ entry, s.Holds number key entry

theorem occupied_iff :
    s.Occupied number key ↔ (findField? key (s.storeOf number).slots).isSome = true := by
  rw [Option.isSome_iff_exists]
  constructor
  · rintro ⟨entry, slot, hfind, -⟩
    exact ⟨slot, hfind⟩
  · rintro ⟨slot, hfind⟩
    exact ⟨slot.entry, slot, hfind, rfl⟩

/-- A store changed to one that holds at least as many keys. -/
theorem Occupied.withStore {st : Lru α} (h : s.Occupied i key)
    (hst : (findField? key (s.storeOf number).slots).isSome = true →
      (findField? key st.slots).isSome = true) : (s.withStore number st).Occupied i key := by
  rw [occupied_iff] at h ⊢
  rw [storeOf_withStore]
  split
  · rename_i hnumber
    rw [hnumber.1] at hst
    exact hst h
  · exact h

/-- The entries of a store under a key are not too old. -/
def Fresh (s : Site α) (number : Nat) (key : String) : Prop :=
  ∀ slot, findField? key (s.storeOf number).slots = some slot →
    (s.storeOf number).expired slot s.now = false

/-- There is room in a store for an entry under a key. -/
def Roomy (s : Site α) (number : Nat) (key : String) (entry : Entry α) : Prop :=
  (insertField key ⟨entry, s.now⟩ (s.storeOf number).slots).length ≤ (s.storeOf number).capacity

theorem Occupied.lookup (h : s.Occupied i key) (hfresh : s.Fresh (s.policy policy).store other) :
    (s.lookup policy other).2.Occupied i key := by
  unfold Site.lookup
  split
  · exact h
  · refine h.withStore ?_
    rw [Lru.slots_get hfresh]
    exact id

/-- A look that finds nothing shows that there is nothing. -/
theorem not_occupied_of_lookup (h : (s.lookup policy key).1 = .ok none)
    (hfresh : s.Fresh (s.policy policy).store key) :
    ¬ (s.lookup policy key).2.Occupied (s.policy policy).store key := by
  have hbefore : ¬ s.Occupied (s.policy policy).store key := by
    rw [occupied_iff]
    unfold Site.lookup at h
    split at h
    · cases h
    · rw [Lru.find_eq_none_of_get hfresh (Except.ok.inj h)]
      exact nofun
  rintro ⟨entry, hholds⟩
  exact hbefore ⟨entry, holds_of_lookup hholds⟩

theorem occupied_withPhase {phase : Phase α} :
    (s.withPhase number phase).Occupied i key ↔ s.Occupied i key := by
  unfold Site.withPhase
  split <;> exact Iff.rfl

theorem Occupied.store (h : s.Occupied i key) (hat : s.At f (.ended ending))
    (hroom : ∀ entry, s.handed f ending = some entry → (s.store f.load).1 = none →
      s.Roomy (s.policy f.policy).store f.key entry) : (s.store f.load).2.Occupied i key := by
  cases hhanded : s.handed f ending with
  | none =>
      rw [store_of_handed_none hat hhanded]
      exact occupied_withPhase.2 h
  | some entry =>
      have hroom := hroom entry hhanded
      rw [store_of_handed_some hat hhanded] at hroom ⊢
      by_cases hfault : s.faults.set = true
      · rw [if_pos hfault]
        exact occupied_withPhase.2 h
      · rw [if_neg hfault] at hroom ⊢
        refine (occupied_withPhase.2 h).withStore ?_
        rw [withPhase_of_at hat, Lru.slots_set (hroom rfl)]
        intro hbefore
        by_cases hkey : key = f.key
        · rw [hkey, findField?_insertField_self]
          rfl
        · rw [findField?_insertField_of_ne hkey]
          exact hbefore

/-- An entry that is stored is there. -/
theorem occupied_of_store {entry : Entry α} (hat : s.At f (.ended ending))
    (hhanded : s.handed f ending = some entry) (hproblem : (s.store f.load).1 = none)
    (hroom : s.Roomy (s.policy f.policy).store f.key entry)
    (hrange : (s.policy f.policy).store < s.stores.length) :
    (s.store f.load).2.Occupied (s.policy f.policy).store f.key := by
  rw [store_of_handed_some hat hhanded] at hproblem ⊢
  split at hproblem
  · cases hproblem
  · rename_i hfault
    rw [if_neg hfault, withPhase_of_at hat, occupied_iff, storeOf_withStore, if_pos ⟨rfl, hrange⟩,
      Lru.slots_set hroom, findField?_insertField_self]
    rfl

end Site

/-! ### Steps by which the store loses nothing -/

variable {payload : Payload α} {visit : Nat → Visit} {s : Site α} {f : Flight} {c policy i : Nat}
  {t t₁ t₂ : List (Event α)} {m m' m'' : Moment α}

/-- A store loses an entry by an event: a key is deleted, the entry that a read looks for is too
old, or there is no room for an entry that is put in. -/
def Event.Loses (visit : Nat → Visit) (s : Site α) : Event α → Prop
  | .call c (.looked _) =>
    ∃ policy key, (visit c).Does .read policy key ∧ ¬ s.Fresh (s.policy policy).store key
  | .call _ (.cleared (.ok ())) | .call _ (.evicted (.ok ())) => True
  | .load f (.stored (some entry) none) => ¬ s.Roomy (s.policy f.policy).store f.key entry
  | _ => False

theorem CallStep.occupied {e : CallEvent α} {site : Site α} {standing standing' : Standing}
    (h : CallStep payload (visit c) s standing e site standing')
    (hloses : ¬ Event.Loses visit s (.call c e)) (hocc : s.Occupied i key) :
    site.Occupied i key := by
  cases h with
  | @look policy key' hv =>
      refine hocc.lookup ?_
      by_contra hold
      exact hloses ⟨policy, key', hv, hold⟩
  | @clear policy key' hv hfirst =>
      unfold Site.evict at hloses ⊢
      split at hloses
      · rename_i hfault
        rwa [if_pos hfault]
      · exact absurd trivial hloses
  | @evict policy key' reply hv =>
      unfold Site.evict at hloses ⊢
      split at hloses
      · rename_i hfault
        rwa [if_pos hfault]
      · exact absurd trivial hloses
  | _ => exact hocc

theorem LoadStep.occupied {e : LoadEvent α} {site : Site α} (h : LoadStep payload s f e site)
    (hloses : ¬ Event.Loses visit s (.load f e)) (hocc : s.Occupied i key) :
    site.Occupied i key := by
  cases h with
  | run hat ending =>
      rw [Site.finish_of_at hat]
      exact Site.occupied_withPhase.2 hocc
  | store ending hat =>
      refine hocc.store hat ?_
      intro entry hhanded hproblem
      rw [hhanded, hproblem] at hloses
      exact not_not.1 hloses
  | release hat =>
      rw [Site.release_of_at hat]
      exact hocc
  | publish hat =>
      rw [Site.publish_of_at hat]
      exact Site.occupied_withPhase.2 hocc

/-- **What is stored under a key stays, or something else in its place, by an event by which the
store loses nothing.** -/
theorem Step.occupied {e : Event α} (h : Step payload visit m e m')
    (hloses : ¬ e.Loses visit m.site) (hocc : m.site.Occupied i key) :
    m'.site.Occupied i key := by
  cases h with
  | call h => exact h.occupied hloses hocc
  | load h => exact h.occupied hloses hocc
  | fault faults => exact hocc
  | pass span => exact hocc

/-- A load that stores has ended, and hands over what its ending says. -/
theorem LoadStep.of_stored {handed : Option (Entry α)} {problem : Option Error} {site : Site α}
    (h : LoadStep payload s f (.stored handed problem) site) :
    ∃ ending, s.At f (.ended ending) ∧ handed = s.handed f ending ∧
      problem = (s.store f.load).1 ∧ site = (s.store f.load).2 := by
  cases h with
  | store ending hat => exact ⟨ending, hat, rfl, rfl, rfl⟩

theorem LoadStep.occupied_of_stored {entry : Entry α} {site : Site α}
    (h : LoadStep payload s f (.stored (some entry) none) site)
    (hloses : ¬ Event.Loses visit s (.load f (.stored (some entry) none)))
    (hrange : (s.policy f.policy).store < s.stores.length) :
    site.Occupied (s.policy f.policy).store f.key := by
  obtain ⟨ending, hat, hhanded, hproblem, rfl⟩ := h.of_stored
  exact Site.occupied_of_store hat hhanded.symm hproblem.symm (not_not.1 hloses) hrange

/-! ### Runs in which the store loses nothing -/

/-- Any number of steps by none of which the store loses an entry. -/
inductive QuietSteps (payload : Payload α) (visit : Nat → Visit) (m : Moment α) :
    List (Event α) → Moment α → Prop where
  | refl : QuietSteps payload visit m [] m
  | tail {t m' e m''} (hsteps : QuietSteps payload visit m t m')
      (hstep : Step payload visit m' e m'') (hloses : ¬ e.Loses visit m'.site) :
      QuietSteps payload visit m (t ++ [e]) m''

/-- The steps from an idle site on which no call has started, by none of which the store loses an
entry. -/
structure QuietRun (payload : Payload α) (visit : Nat → Visit) (s : Site α) (t : List (Event α))
    (m : Moment α) : Prop where
  idle : s.Idle
  steps : QuietSteps payload visit ⟨s, fun _ => .outside⟩ t m

theorem QuietSteps.append (h₁ : QuietSteps payload visit m t₁ m')
    (h₂ : QuietSteps payload visit m' t₂ m'') : QuietSteps payload visit m (t₁ ++ t₂) m'' := by
  induction h₂ with
  | refl => rwa [List.append_nil]
  | tail _ hstep hloses ih =>
      rw [← List.append_assoc]
      exact ih.tail hstep hloses

theorem QuietSteps.head {e : Event α} (hstep : Step payload visit m e m')
    (hloses : ¬ e.Loses visit m.site) (hsteps : QuietSteps payload visit m' t m'') :
    QuietSteps payload visit m (e :: t) m'' :=
  (QuietSteps.tail .refl hstep hloses).append hsteps

theorem QuietSteps.steps (h : QuietSteps payload visit m t m') : Steps payload visit m t m' := by
  induction h with
  | refl => exact .refl
  | tail _ hstep _ ih => exact ih.tail hstep

theorem QuietRun.run (h : QuietRun payload visit s t m) : Run payload visit s t m :=
  ⟨h.idle, h.steps.steps⟩

/-- A quiet run cut at one of its events. -/
theorem QuietRun.exists_of_cons {e : Event α}
    (h : QuietRun payload visit s (t₁ ++ e :: t₂) m) :
    ∃ m₁ m₂, QuietRun payload visit s t₁ m₁ ∧ Step payload visit m₁ e m₂ ∧
      Steps payload visit m₂ t₂ m := by
  obtain ⟨hidle, hsteps⟩ := h
  generalize ht : t₁ ++ e :: t₂ = t at hsteps
  induction hsteps generalizing t₂ with
  | refl => simp at ht
  | @tail t m₀ e₀ m hsteps hstep hloses ih =>
      rcases List.eq_nil_or_concat t₂ with rfl | ⟨t₃, last, rfl⟩
      · obtain ⟨rfl, he⟩ := List.append_inj' ht rfl
        cases he
        exact ⟨m₀, m, ⟨hidle, hsteps⟩, hstep, .refl⟩
      · rw [List.concat_eq_append, ← List.cons_append, ← List.append_assoc] at ht
        obtain ⟨hinit, hlast⟩ := List.append_inj' ht rfl
        cases hlast
        obtain ⟨m₁, m₂, h₁, hfirst, hrest⟩ := ih hinit
        rw [List.concat_eq_append]
        exact ⟨m₁, m₂, h₁, hfirst, hrest.tail hstep⟩

theorem CallStep.stores_length {v : Visit} {e : CallEvent α} {site : Site α}
    {standing standing' : Standing} (h : CallStep payload v s standing e site standing') :
    site.stores.length = s.stores.length := by
  cases h with
  | look hv =>
      unfold Site.lookup
      split
      · rfl
      · exact List.length_set
  | clear hv hfirst =>
      unfold Site.evict
      split
      · rfl
      · exact List.length_set
  | evict hv =>
      unfold Site.evict
      split
      · rfl
      · exact List.length_set
  | _ => rfl

theorem LoadStep.stores_length {e : LoadEvent α} {site : Site α}
    (h : LoadStep payload s f e site) : site.stores.length = s.stores.length := by
  cases h with
  | run hat ending => rw [Site.finish_of_at hat, Site.withPhase_of_at hat]
  | store ending hat =>
      cases hhanded : s.handed f ending with
      | none => rw [Site.store_of_handed_none hat hhanded, Site.withPhase_of_at hat]
      | some entry =>
          rw [Site.store_of_handed_some hat hhanded, Site.withPhase_of_at hat]
          split
          · rfl
          · exact List.length_set
  | release hat => rw [Site.release_of_at hat]
  | publish hat => rw [Site.publish_of_at hat, Site.withPhase_of_at hat]

theorem Step.stores_length {e : Event α} (h : Step payload visit m e m') :
    m'.site.stores.length = m.site.stores.length := by
  cases h with
  | call h => exact h.stores_length
  | load h => exact h.stores_length
  | fault faults => rfl
  | pass span => rfl

theorem Steps.stores_length (h : Steps payload visit m t m') :
    m'.site.stores.length = m.site.stores.length := by
  induction h with
  | refl => rfl
  | tail _ hstep ih => exact hstep.stores_length.trans ih

/-- What a load has stored is there. -/
theorem QuietRun.occupied_of_stored {entry : Entry α} (h : QuietRun payload visit s t m)
    (hrange : (s.policy f.policy).store < s.stores.length)
    (hstored : .load f (.stored (some entry) none) ∈ t) :
    m.site.Occupied (s.policy f.policy).store f.key := by
  obtain ⟨hidle, hsteps⟩ := h
  induction hsteps with
  | refl => cases hstored
  | @tail t m e m' hsteps hstep hloses ih =>
      rcases List.mem_append.1 hstored with hmem | hmem
      · exact hstep.occupied hloses (ih hmem)
      · obtain rfl := List.mem_singleton.1 hmem
        have run : Run payload visit s t m := ⟨hidle, hsteps.steps⟩
        rw [← run.policy, ← run.steps.stores_length] at hrange
        rw [← run.policy]
        cases hstep with
        | load hstep => exact hstep.occupied_of_stored hloses hrange

/-! ### Reads that decide at once -/

/-- A read that has found nothing joins a load or starts one before anything else happens. -/
def Prompt (t : List (Event α)) : Prop :=
  ∀ before c e after, t = before ++ .call c (.looked (.ok none)) :: e :: after →
    ∃ f, e = .call c (.joined f) ∨ e = .call c (.started f)

theorem Prompt.of_append (h : Prompt (t₁ ++ t₂)) : Prompt t₁ := by
  rintro before c e after rfl
  refine h before c e (after ++ t₂) ?_
  rw [List.append_assoc, List.cons_append, List.cons_append]

theorem CallStep.of_missed {v : Visit} {e : CallEvent α} {site : Site α} {standing : Standing}
    (h : CallStep payload v s standing e site .missed) :
    e = .looked (.ok none) ∧ ∃ policy key, v.Does .read policy key ∧
      (s.lookup policy key).1 = .ok none ∧ site = (s.lookup policy key).2 := by
  generalize hmissed : Standing.missed = standing' at h
  cases h with
  | @look policy key hv =>
      cases hfound : (s.lookup policy key).1 with
      | error e =>
          rw [hfound] at hmissed
          cases hmissed
      | ok found =>
          cases found with
          | none => exact ⟨rfl, policy, key, hv, hfound, rfl⟩
          | some entry =>
              rw [hfound] at hmissed
              cases hmissed
  | @clear policy key hv hfirst => cases hresult : (s.evict policy key).1 <;>
      rw [hresult] at hmissed <;> cases hmissed
  | @write policy key hv ending =>
      cases hout : Caller.outcomeOf ending <;> cases hfirst : (s.policy policy).evictsFirst <;>
        rw [hout, hfirst] at hmissed <;> cases hmissed
  | @evict policy key reply hv => cases hresult : (s.evict policy key).1 <;>
      rw [hresult] at hmissed <;> cases hmissed
  | _ => cases hmissed

theorem CallStep.of_started {v : Visit} {site : Site α} {standing standing' : Standing}
    (h : CallStep payload v s standing (.started f) site standing') :
    standing = .missed ∧ v.Does .read f.policy f.key := by
  cases h with
  | start hv hflight => exact ⟨rfl, hv⟩

/-- **A read about to decide has just looked, and there is nothing under its key.** -/
theorem QuietRun.of_missed (h : QuietRun payload visit s t m) (hprompt : Prompt t)
    (hmissed : m.standing c = .missed) (hv : (visit c).Does .read policy key) :
    (∃ before, t = before ++ [.call c (.looked (.ok none))]) ∧
      ¬ m.site.Occupied (s.policy policy).store key := by
  obtain ⟨hidle, hsteps⟩ := h
  induction hsteps with
  | refl => cases hmissed
  | @tail t m e m' hsteps hstep hloses ih =>
      rcases hstep.of_call c with ⟨ce, rfl, hcall⟩ | ⟨hne, hsame⟩
      · rw [hmissed] at hcall
        obtain ⟨rfl, policy', key', hv', hfound, hsite⟩ := hcall.of_missed
        obtain ⟨-, rfl, rfl⟩ := hv.unique hv'
        have hfresh : m.site.Fresh (m.site.policy policy).store key := by
          by_contra hold
          exact hloses ⟨policy, key, hv, hold⟩
        have hnone := Site.not_occupied_of_lookup hfound hfresh
        rw [Run.policy ⟨hidle, hsteps.steps⟩, ← hsite] at hnone
        exact ⟨⟨t, rfl⟩, hnone⟩
      -- no other step comes after a look that has found nothing
      · rw [hsame] at hmissed
        obtain ⟨⟨before, rfl⟩, -⟩ := ih hprompt.of_append hmissed
        have hsplit : before ++ [.call c (.looked (.ok none))] ++ [e] =
            before ++ .call c (.looked (.ok none)) :: e :: [] := by simp
        obtain ⟨f, rfl | rfl⟩ := hprompt before c e [] hsplit
        · exact absurd rfl (hne (.joined f))
        · exact absurd rfl (hne (.started f))

/-! ### Loads that are not repeated -/

/-- All loads are of the policy under which all calls are. -/
theorem Run.policy_of_at {phase : Phase α} (run : Run payload visit s t m)
    (hone : ∀ c, (visit c).attachment.policy = policy) (hat : m.site.At f phase) :
    f.policy = policy := by
  obtain ⟨c, -, hv⟩ := run.recorded.started f phase hat
  rw [← hv.policy_eq]
  exact hone c

/-- A load is started only under a key under which there is nothing. -/
theorem QuietRun.exists_of_started
    (h : QuietRun payload visit s (t₁ ++ .call c (.started f) :: t₂) m)
    (hprompt : Prompt (t₁ ++ .call c (.started f) :: t₂)) :
    ∃ m₁ m₂, QuietRun payload visit s t₁ m₁ ∧ Step payload visit m₁ (.call c (.started f)) m₂ ∧
      Steps payload visit m₂ t₂ m ∧ ¬ m₁.site.Occupied (s.policy f.policy).store f.key := by
  obtain ⟨m₁, m₂, h₁, hstep, hsteps⟩ := h.exists_of_cons
  obtain ⟨hmissed, hv⟩ := hstep.callStep.of_started
  exact ⟨m₁, m₂, h₁, hstep, hsteps, (h₁.of_missed hprompt.of_append hmissed hv).2⟩

variable {g : Flight}

/-- No load of a key is started after one has stored an entry. -/
theorem QuietRun.not_started_of_stored {entry : Entry α}
    (h : QuietRun payload visit s (t₁ ++ .load f (.stored (some entry) none) :: t₂) m)
    (hprompt : Prompt (t₁ ++ .load f (.stored (some entry) none) :: t₂))
    (hone : ∀ c, (visit c).attachment.policy = policy)
    (hrange : (s.policy policy).store < s.stores.length) (hkey : g.key = f.key) (c : Nat) :
    .call c (.started g) ∉ t₂ := by
  intro hmem
  obtain ⟨p, q, rfl⟩ := List.append_of_mem hmem
  rw [← List.cons_append, ← List.append_assoc] at h hprompt
  obtain ⟨m₁, m₂, h₁, hstep, -, hfree⟩ := h.exists_of_started hprompt
  have hstored : .load f (.stored (some entry) none) ∈
      t₁ ++ .load f (.stored (some entry) none) :: p :=
    List.mem_append_right _ List.mem_cons_self
  obtain ⟨phase, hat⟩ := h₁.run.recorded.at_of_load f _ hstored
  obtain ⟨-, hv⟩ := hstep.callStep.of_started
  have hf := h₁.run.policy_of_at hone hat
  have hg : g.policy = policy := hv.policy_eq.symm.trans (hone c)
  rw [hkey, hg, ← hf] at hfree
  rw [← hf] at hrange
  exact hfree (h₁.occupied_of_stored hrange hstored)

/-- No run of a load of a key ends after one has stored an entry. -/
theorem QuietRun.not_ran_of_stored {entry : Entry α}
    (h : QuietRun payload visit s (t₁ ++ .load f (.stored (some entry) none) :: t₂) m)
    (hprompt : Prompt (t₁ ++ .load f (.stored (some entry) none) :: t₂))
    (hone : ∀ c, (visit c).attachment.policy = policy)
    (hrange : (s.policy policy).store < s.stores.length) (hkey : g.key = f.key) (r : Ending Reply) :
    .load g (.ran r) ∉ t₂ := by
  intro hmem
  have hlate : ∀ c, .call c (.started g) ∉ t₂ :=
    h.not_started_of_stored hprompt hone hrange hkey
  obtain ⟨p, q, rfl⟩ := List.append_of_mem hmem
  -- the load that is still running has been started before the entry was stored
  have hcut := h.run
  rw [← List.cons_append, ← List.append_assoc] at hcut
  obtain ⟨m₂, m₃, run₂, hran, -⟩ := hcut.exists_of_cons
  have hg : m₂.site.At g .running := by
    cases hran with
    | load hran =>
        cases hran with
        | run hat ending => exact hat
  obtain ⟨c, hstarted, hv⟩ := run₂.recorded.started g _ hg
  have hearly : .call c (.started g) ∈ t₁ := by
    rcases List.mem_append.1 hstarted with hmem | hmem
    · exact hmem
    · rcases List.mem_cons.1 hmem with hmem | hmem
      · cases hmem
      · exact absurd (List.mem_append_left _ hmem) (hlate c)
  obtain ⟨hloading, hreleased⟩ := run₂.loading_iff.2 ⟨_, hg, rfl⟩
  -- so it and the one that stores are in flight together, and are one
  obtain ⟨m₁, m₁', run₁, hstore, -⟩ := h.run.exists_of_cons
  obtain ⟨ending, hf⟩ : ∃ ending, m₁.site.At f (.ended ending) := by
    cases hstore with
    | load hstore =>
        obtain ⟨ending, hat, -⟩ := hstore.of_stored
        exact ⟨ending, hat⟩
  have hmemf := run₁.mem_flights_iff.2 (run₁.loading_iff.2 ⟨_, hf, rfl⟩)
  have hmemg := run₁.mem_flights_iff.2
    ⟨⟨c, hearly⟩, fun hmem => hreleased (List.mem_append_left _ hmem)⟩
  have hpolicy : g.policy = f.policy :=
    (run₂.policy_of_at hone hg).trans (run₁.policy_of_at hone hf).symm
  obtain rfl := run₁.tidy.eq_of_place hmemg hmemf (Prod.ext hpolicy hkey)
  -- but a load that is running has left no event behind
  have htrail := run₂.recorded.trail g _ hg
  have hstored : .stored (some entry) none ∈
      trail g (t₁ ++ .load g (.stored (some entry) none) :: p) :=
    mem_trail.2 (List.mem_append_right _ List.mem_cons_self)
  generalize trail g _ = es at htrail hstored
  cases htrail
  cases hstored

/-- **Once a load has stored an entry, an entry stays under its key, and no load of the key is
started or runs again; and whenever a load is started, there is nothing under its key.**  This holds
of all runs of calls under one policy in which the store loses nothing and reads decide at once,
whoever waits for the load, gives up or comes later. -/
theorem QuietRun.stored_never_reloaded (h : QuietRun payload visit s t m) (hprompt : Prompt t)
    (hone : ∀ c, (visit c).attachment.policy = policy)
    (hrange : (s.policy policy).store < s.stores.length) :
    (∀ before f entry after, t = before ++ .load f (.stored (some entry) none) :: after →
      (∃ kept, m.site.Holds (s.policy policy).store f.key kept) ∧
        ∀ g, g.key = f.key →
          (∀ c, .call c (.started g) ∉ after) ∧ ∀ r, .load g (.ran r) ∉ after) ∧
    ∀ before c f after, t = before ++ .call c (.started f) :: after →
      ∃ m₁ m₂, QuietRun payload visit s before m₁ ∧
        Step payload visit m₁ (.call c (.started f)) m₂ ∧ Steps payload visit m₂ after m ∧
        ∀ entry, ¬ m₁.site.Holds (s.policy policy).store f.key entry := by
  refine ⟨?_, ?_⟩
  · rintro before f entry after rfl
    have hstored : .load f (.stored (some entry) none) ∈
        before ++ .load f (.stored (some entry) none) :: after :=
      List.mem_append_right _ List.mem_cons_self
    obtain ⟨phase, hat⟩ := h.run.recorded.at_of_load f _ hstored
    have hf := h.run.policy_of_at hone hat
    have hkept := h.occupied_of_stored (hf.symm ▸ hrange) hstored
    rw [hf] at hkept
    refine ⟨hkept, ?_⟩
    intro g hkey
    exact ⟨h.not_started_of_stored hprompt hone hrange hkey,
      h.not_ran_of_stored hprompt hone hrange hkey⟩
  · rintro before c f after rfl
    obtain ⟨m₁, m₂, h₁, hstep, hsteps, hfree⟩ := h.exists_of_started hprompt
    obtain ⟨-, hv⟩ := hstep.callStep.of_started
    rw [show f.policy = policy from hv.policy_eq.symm.trans (hone c)] at hfree
    exact ⟨m₁, m₂, h₁, hstep, hsteps, fun entry hholds => hfree ⟨entry, hholds⟩⟩

/-! ### A load that is not repeated -/

/-- Two reads share a load, and the one that has started it gives up; a third read comes when the
load has stored its value and is still in flight. -/
def keptLoad : List (Event Value) := [
  .call 0 .arrived, .call 0 (.looked (.ok none)), .call 0 (.started ⟨0, "k", 0⟩),
  .call 1 .arrived, .call 1 (.looked (.ok none)), .call 1 (.joined ⟨0, "k", 0⟩),
  .call 0 .gaveUp,
  .load ⟨0, "k", 0⟩ (.ran (.returned (.ok (.optionalValue (some (.text "v")))))),
  .load ⟨0, "k", 0⟩ (.stored (some (.present (.text "v"))) none),
  .call 2 .arrived, .call 2 (.looked (.ok (some (.present (.text "v"))))),
  .load ⟨0, "k", 0⟩ .released, .load ⟨0, "k", 0⟩ .published, .call 1 (.received ⟨0, "k", 0⟩)]

theorem prompt_keptLoad : Prompt keptLoad := by
  intro before c e after h
  simp [keptLoad, List.cons_eq_append_iff] at h
  obtain ⟨_, -, ⟨-, rfl, rfl, -⟩ | ⟨-, rfl, rfl, -⟩⟩ := h
  · exact ⟨_, .inr rfl⟩
  · exact ⟨_, .inl rfl⟩

theorem not_loses_of_reader {s : Site Value} (httl : (s.storeOf (s.policy 0).store).ttl = none)
    (c : Nat) (found : Outcome (Option (Entry Value))) :
    ¬ Event.Loses (fun _ => reader) s (.call c (.looked found)) := by
  rintro ⟨policy, key, hv, hold⟩
  obtain ⟨-, rfl, -⟩ := hv.unique reader_does
  refine hold ?_
  intro slot hfind
  unfold Lru.expired
  rw [httl]

theorem exists_run_keptLoad :
    ∃ m, QuietRun .value (fun _ => reader) smallSite keptLoad m := by
  refine ⟨?m, ⟨rfl, rfl⟩, ?steps⟩
  case steps =>
    refine .head (.call .arrive) id ?_
    refine .head (.call (.look reader_does)) (not_loses_of_reader rfl _ _) ?_
    refine .head (.call (.start reader_does rfl)) id ?_
    refine .head (.call .arrive) id ?_
    refine .head (.call (.look reader_does)) (not_loses_of_reader rfl _ _) ?_
    refine .head (.call (.join reader_does rfl)) id ?_
    refine .head (.call (.giveUp (by rfl))) id ?_
    refine .head (.load (.run (by rfl) (.returned (.ok (.optionalValue (some (.text "v"))))))) id ?_
    refine .head (.load (.store (.returned (.ok (some (Value.text "v")))) (by rfl)))
      (not_not.2 (show 1 ≤ 16 by decide)) ?_
    refine .head (.call .arrive) id ?_
    refine .head (.call (.look reader_does)) (not_loses_of_reader rfl _ _) ?_
    refine .head (.load (.release (by rfl))) id ?_
    refine .head (.load (.publish (by rfl))) id ?_
    refine .head (.call (.receive (by rfl))) id ?_
    exact .refl

/-- After it nothing of the key is loaded, and when it was started there was nothing. -/
theorem not_reloaded_of_keptLoad : ∃ m before after,
    QuietRun .value (fun _ => reader) smallSite keptLoad m ∧ Prompt keptLoad ∧
      keptLoad = before ++ .load ⟨0, "k", 0⟩ (.stored (some (.present (.text "v"))) none) :: after ∧
      (∃ kept, m.site.Holds 0 "k" kept) ∧
      (∀ c load, .call c (.started ⟨0, "k", load⟩) ∉ after) ∧
      ∃ m₁ m₂, Step .value (fun _ => reader) m₁ (.call 0 (.started ⟨0, "k", 0⟩)) m₂ ∧
        ∀ entry, ¬ m₁.site.Holds 0 "k" entry := by
  obtain ⟨m, h⟩ := exists_run_keptLoad
  have hone : ∀ c : Nat, ((fun _ => reader) c : Visit).attachment.policy = 0 := fun _ => rfl
  obtain ⟨hstored, hstarted⟩ := h.stored_never_reloaded prompt_keptLoad hone Nat.zero_lt_one
  obtain ⟨hkept, hlate⟩ := hstored (keptLoad.take 8) ⟨0, "k", 0⟩ _ (keptLoad.drop 9) rfl
  obtain ⟨m₁, m₂, -, hstep, -, hfree⟩ :=
    hstarted (keptLoad.take 2) 0 ⟨0, "k", 0⟩ (keptLoad.drop 3) rfl
  exact ⟨m, keptLoad.take 8, keptLoad.drop 9, h, prompt_keptLoad, rfl, hkept,
    fun c load => (hlate ⟨0, "k", load⟩ rfl).1 c, m₁, m₂, hstep, hfree⟩

end SqlAccess.Cache
