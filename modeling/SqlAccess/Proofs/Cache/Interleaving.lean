/-
**Cached calls in any order.**

Any number of calls, the loads they start, and what surrounds them take turns step by step.  Nothing
is said about whose turn it is: between any two steps of one call any steps of others may come.  A
call may be late or be dropped at any step, a load may end in any way, the operations of the stores
may fail from any moment on, and time passes as it likes.

A look into the store and the decision to join a load or to start one are two steps here, and so are
the storing of a value, the end of a flight and the publishing of an outcome.

Main definitions:

* `SqlAccess.Cache.Visit` — a call that goes through a cache;
* `SqlAccess.Cache.Standing` — how far it is;
* `SqlAccess.Cache.Event` — what happens in one step;
* `SqlAccess.Cache.CallStep`, `SqlAccess.Cache.LoadStep`, `SqlAccess.Cache.Step` — the steps of a
  call, of a load, and of all together;
* `SqlAccess.Cache.Steps`, `SqlAccess.Cache.Run` — **any number of steps**, and those from the
  start.

Main results:

* `SqlAccess.Cache.CallStep.loads`, `SqlAccess.Cache.LoadStep.loads` — what a step does to loads
  and flights;
* `SqlAccess.Cache.CallStep.holds`, `SqlAccess.Cache.LoadStep.holds` — what it does to entries;
* `SqlAccess.Cache.Step.of_call` — a call stays as it is but for its own steps;
* `SqlAccess.Cache.Run.exists_of_cons` — a run passes through a moment before each of its events and
  one after it.
-/

import SqlAccess.Cache.Schedule
import SqlAccess.Proofs.Cache.Site

set_option autoImplicit false

namespace SqlAccess.Cache

variable {α : Type}

/-! ### Endings and answers -/

namespace Payload

/-- How a load ends whose run has ended: what the run returned must be of the stored type. -/
def endingOf (payload : Payload α) : Ending Reply → Ending (Option α)
  | .returned outcome => .returned (outcome.bind payload.take)
  | .panicked => .panicked

/-- What those who wait for a load are told of its ending. -/
def answer (payload : Payload α) (key : String) : Ending (Option α) → Outcome Reply
  | .returned outcome => outcome.map payload.toReply
  | .panicked => .error (abandoned key)

end Payload

/-- What is handed to the store at the end of a load, if anything. -/
def Policy.handed (p : Policy) : Ending (Option α) → Option (Entry α)
  | .returned (.ok value) => p.entryFor value
  | _ => none

/-! ### Calls -/

/-- How far a call is. -/
inductive Standing where
  /-- It has not started. -/
  | outside
  /-- It has started and touched nothing. -/
  | arrived
  /-- It has found nothing in the store. -/
  | missed
  /-- It waits for the load of a flight. -/
  | waiting (f : Flight)
  /-- It runs the statement behind the cache itself. -/
  | writing
  /-- Its statement has succeeded, and its key is still to be evicted. -/
  | written (reply : Reply)
  | answered (outcome : Outcome Reply)
  /-- It has taken too long. -/
  | late (cause : Error)
  | dropped

/-- Whether the call has started and not ended. -/
def Standing.isOpen : Standing → Bool
  | arrived | missed | waiting _ | writing | written _ => true
  | outside | answered _ | late _ | dropped => false

/-- A call that goes through a cache: the cache attached to it, the kind of reply it asks for, and
its time limit. -/
structure Visit where
  attachment : Attachment
  kind : ReplyKind
  timeout : Option Duration
  deriving Inhabited

namespace Visit

/-- What the call does with which key under which policy. -/
structure Does (v : Visit) (use : Use) (policy : Nat) (key : String) : Prop where
  use_eq : v.attachment.use = use
  policy_eq : v.attachment.policy = policy
  key_eq : goodKey v.attachment.key = .ok key

/-- The call ends with an outcome, whose reply must be of the kind it asks for. -/
def answer (v : Visit) (outcome : Outcome Reply) : Standing :=
  .answered (outcome.bind (Reply.expect v.kind))

/-- The standing of a read that has looked into the store. -/
def afterLook (v : Visit) (payload : Payload α) : Outcome (Option (Entry α)) → Standing
  | .error e => v.answer (.error e)
  | .ok (some entry) => v.answer (.ok (payload.toReply entry.toOption))
  | .ok none => .missed

/-- The standing of a write that has evicted its key beforehand. -/
def afterClear (v : Visit) : Outcome Unit → Standing
  | .error e => v.answer (.error e)
  | .ok () => .writing

/-- The standing of a write whose statement has ended. -/
def afterWrite (v : Visit) (evictsFirst : Bool) : Outcome Reply → Standing
  | .error e => v.answer (.error e)
  | .ok reply => if evictsFirst then v.answer (.ok reply) else .written reply

/-- The standing of a write that has evicted its key in the end. -/
def afterEvict (v : Visit) (reply : Reply) : Outcome Unit → Standing
  | .error e => v.answer (.error e)
  | .ok () => v.answer (.ok reply)

end Visit

/-! ### Events -/

/-- What a call does in one step. -/
inductive CallEvent (α : Type) where
  | arrived
  /-- Its key does not resolve, or is empty. -/
  | refused
  | looked (found : Outcome (Option (Entry α)))
  /-- It joins the load in flight. -/
  | joined (f : Flight)
  /-- It starts a load. -/
  | started (f : Flight)
  /-- It is told the outcome of the load. -/
  | received (f : Flight)
  /-- It no longer waits for the load. -/
  | gaveUp
  /-- It has taken too long as a whole. -/
  | expired
  | dropped
  /-- Its statement starts. -/
  | began
  /-- Its key is evicted before its statement starts. -/
  | cleared (result : Outcome Unit)
  /-- Its statement has ended. -/
  | wrote (ending : Ending Reply)
  /-- Its key is evicted after its statement has succeeded. -/
  | evicted (result : Outcome Unit)

/-- What a load does in one step. -/
inductive LoadEvent (α : Type) where
  /-- The run behind the cache has ended, be it that its task has been dropped. -/
  | ran (ending : Ending Reply)
  /-- An entry has been handed to the store, if there is one, and the store may have failed. -/
  | stored (handed : Option (Entry α)) (problem : Option Error)
  | released
  | published

/-- What happens in one step. -/
inductive Event (α : Type) where
  /-- A call, by its number, does something. -/
  | call (c : Nat) (e : CallEvent α)
  /-- The load of a flight does something. -/
  | load (f : Flight) (e : LoadEvent α)
  /-- From now on these operations of the stores fail. -/
  | faults (faults : Faults)
  /-- Time passes. -/
  | passed (span : Nat)

/-! ### Steps -/

/-- The steps of a call: on the site, and from one standing to the next. -/
inductive CallStep (payload : Payload α) (v : Visit) :
    Site α → Standing → CallEvent α → Site α → Standing → Prop where
  | arrive {s} : CallStep payload v s .outside .arrived s .arrived
  | refuse {s e} (hkey : goodKey v.attachment.key = .error e) :
      CallStep payload v s .arrived .refused s (v.answer (.error e))
  | look {s policy key} (hv : v.Does .read policy key) :
      CallStep payload v s .arrived (.looked (s.lookup policy key).1) (s.lookup policy key).2
        (v.afterLook payload (s.lookup policy key).1)
  | join {s policy key load} (hv : v.Does .read policy key)
      (hflight : s.flight? policy key = some load) :
      CallStep payload v s .missed (.joined ⟨policy, key, load⟩) s (.waiting ⟨policy, key, load⟩)
  | start {s policy key} (hv : v.Does .read policy key) (hflight : s.flight? policy key = none) :
      CallStep payload v s .missed (.started ⟨policy, key, (s.register policy key).1⟩)
        (s.register policy key).2 (.waiting ⟨policy, key, (s.register policy key).1⟩)
  | receive {s f ending} (houtcome : s.outcome? f.load = some ending) :
      CallStep payload v s (.waiting f) (.received f) s (v.answer (payload.answer f.key ending))
  | giveUp {s f limit} (hlimit : (s.policy f.policy).waitLimit = some limit) :
      CallStep payload v s (.waiting f) .gaveUp s (.late (.cacheTimeout f.key limit))
  | expire {s standing limit} (hopen : standing.isOpen = true) (hlimit : v.timeout = some limit) :
      CallStep payload v s standing .expired s (.late (.timeout limit))
  | drop {s standing} (hopen : standing.isOpen = true) :
      CallStep payload v s standing .dropped s .dropped
  | begin {s policy key} (hv : v.Does .evict policy key)
      (hfirst : (s.policy policy).evictsFirst = false) :
      CallStep payload v s .arrived .began s .writing
  | clear {s policy key} (hv : v.Does .evict policy key)
      (hfirst : (s.policy policy).evictsFirst = true) :
      CallStep payload v s .arrived (.cleared (s.evict policy key).1) (s.evict policy key).2
        (v.afterClear (s.evict policy key).1)
  | write {s policy key} (hv : v.Does .evict policy key) (ending : Ending Reply) :
      CallStep payload v s .writing (.wrote ending) s
        (v.afterWrite (s.policy policy).evictsFirst (Caller.outcomeOf ending))
  | evict {s policy key reply} (hv : v.Does .evict policy key) :
      CallStep payload v s (.written reply) (.evicted (s.evict policy key).1)
        (s.evict policy key).2 (v.afterEvict reply (s.evict policy key).1)

/-- The steps of a load, in their order. -/
inductive LoadStep (payload : Payload α) : Site α → Flight → LoadEvent α → Site α → Prop where
  | run {s f} (hat : s.At f .running) (ending : Ending Reply) :
      LoadStep payload s f (.ran ending) (s.finish f.load (payload.endingOf ending))
  | store {s f} (ending : Ending (Option α)) (hat : s.At f (.ended ending)) :
      LoadStep payload s f (.stored (s.handed f ending) (s.store f.load).1) (s.store f.load).2
  | release {s f ending} (hat : s.At f (.stored ending)) :
      LoadStep payload s f .released (s.release f.load)
  | publish {s f ending} (hat : s.At f (.released ending)) :
      LoadStep payload s f .published (s.publish f.load)

/-- The site and the standing of each call. -/
structure Moment (α : Type) where
  site : Site α
  standing : Nat → Standing

/-- A call has come to a standing. -/
def Moment.stand (m : Moment α) (c : Nat) (standing : Standing) : Moment α :=
  { m with standing := fun i => if i = c then standing else m.standing i }

/-- One step of anything. -/
inductive Step (payload : Payload α) (visit : Nat → Visit) :
    Moment α → Event α → Moment α → Prop where
  | call {m c e site standing}
      (h : CallStep payload (visit c) m.site (m.standing c) e site standing) :
      Step payload visit m (.call c e) (Moment.stand ⟨site, m.standing⟩ c standing)
  | load {m f e site} (h : LoadStep payload m.site f e site) :
      Step payload visit m (.load f e) ⟨site, m.standing⟩
  | fault {m} (faults : Faults) :
      Step payload visit m (.faults faults) ⟨{ m.site with faults }, m.standing⟩
  | pass {m} (span : Nat) :
      Step payload visit m (.passed span) ⟨{ m.site with now := m.site.now + span }, m.standing⟩

/-- Any number of steps, with their events in order. -/
inductive Steps (payload : Payload α) (visit : Nat → Visit) (m : Moment α) :
    List (Event α) → Moment α → Prop where
  | refl : Steps payload visit m [] m
  | tail {t m' e m''} (hsteps : Steps payload visit m t m') (hstep : Step payload visit m' e m'') :
      Steps payload visit m (t ++ [e]) m''

/-- A site on which no load has started yet, whatever its stores hold. -/
structure Site.Idle (s : Site α) : Prop where
  flights_eq : s.flights = []
  loads_eq : s.loads = []

/-- The steps from an idle site on which no call has started. -/
structure Run (payload : Payload α) (visit : Nat → Visit) (s : Site α) (t : List (Event α))
    (m : Moment α) : Prop where
  idle : s.Idle
  steps : Steps payload visit ⟨s, fun _ => .outside⟩ t m

variable {payload : Payload α} {visit : Nat → Visit} {v : Visit} {s s' : Site α}
  {standing standing' : Standing} {f g : Flight} {t t₁ t₂ : List (Event α)} {m m' m'' : Moment α}

theorem Visit.Does.unique {use use' : Use} {policy policy' : Nat} {key key' : String}
    (h : v.Does use policy key) (h' : v.Does use' policy' key') :
    use = use' ∧ policy = policy' ∧ key = key' := by
  have hkey := h.key_eq.symm.trans h'.key_eq
  exact ⟨h.use_eq.symm.trans h'.use_eq, h.policy_eq.symm.trans h'.policy_eq, Except.ok.inj hkey⟩

theorem Site.handed_eq (s : Site α) (f : Flight) (ending : Ending (Option α)) :
    s.handed f ending = (s.policy f.policy).handed ending := by
  cases ending with
  | panicked => rfl
  | returned outcome => cases outcome <;> rfl

/-! ### Standings -/

theorem Moment.stand_self (m : Moment α) (c : Nat) (standing : Standing) :
    (m.stand c standing).standing c = standing := if_pos rfl

theorem Moment.stand_of_ne (m : Moment α) {c i : Nat} (h : i ≠ c) (standing : Standing) :
    (m.stand c standing).standing i = m.standing i := if_neg h

/-- A call stays as it is but for its own steps. -/
theorem Step.of_call {e : Event α} (h : Step payload visit m e m') (c : Nat) :
    (∃ ce, e = .call c ce ∧
      CallStep payload (visit c) m.site (m.standing c) ce m'.site (m'.standing c)) ∨
      ((∀ ce, e ≠ .call c ce) ∧ m'.standing c = m.standing c) := by
  cases h with
  | @call i e site standing h =>
      by_cases hcall : c = i
      · subst hcall
        refine .inl ⟨e, rfl, ?_⟩
        rwa [Moment.stand_self]
      · refine .inr ⟨?_, Moment.stand_of_ne _ hcall _⟩
        rintro ce heq
        cases heq
        exact hcall rfl
  | load h => exact .inr ⟨fun _ => nofun, rfl⟩
  | fault faults => exact .inr ⟨fun _ => nofun, rfl⟩
  | pass span => exact .inr ⟨fun _ => nofun, rfl⟩

theorem Step.callStep {c : Nat} {e : CallEvent α} (h : Step payload visit m (.call c e) m') :
    CallStep payload (visit c) m.site (m.standing c) e m'.site (m'.standing c) := by
  rcases h.of_call c with ⟨ce, heq, hcall⟩ | ⟨hne, -⟩
  · cases heq
    exact hcall
  · exact absurd rfl (hne e)

/-- Only a call that has not ended takes a step. -/
theorem CallStep.isOpen {e : CallEvent α} (h : CallStep payload v s standing e s' standing') :
    standing = .outside ∨ standing.isOpen = true := by
  cases h with
  | arrive => exact .inl rfl
  | expire hopen hlimit => exact .inr hopen
  | drop hopen => exact .inr hopen
  | _ => exact .inr rfl

/-- A call that has ended stays as it is. -/
theorem Steps.standing_of_ended {c : Nat} (h : Steps payload visit m t m')
    (hstarted : m.standing c ≠ .outside) (hended : (m.standing c).isOpen = false) :
    m'.standing c = m.standing c := by
  induction h with
  | refl => rfl
  | @tail t m' e m'' _ hstep ih =>
      rw [← ih]
      rcases hstep.of_call c with ⟨ce, rfl, hcall⟩ | ⟨-, hsame⟩
      · rw [ih] at hcall
        rcases hcall.isOpen with h | h
        · exact absurd h hstarted
        · rw [hended] at h
          cases h
      · exact hsame

/-! ### Loads and flights -/

theorem CallStep.loads {e : CallEvent α} (h : CallStep payload v s standing e s' standing') :
    (s'.loads = s.loads ∧ s'.flights = s.flights ∧ ∀ f, e ≠ .started f) ∨
      ∃ f, e = .started f ∧ v.Does .read f.policy f.key ∧ s.flight? f.policy f.key = none ∧
        f.load = s.loads.length ∧ s.Moved f .running s' ∧ s'.flights = s.flights ++ [f] := by
  cases h with
  | start hv hflight =>
      exact .inr ⟨_, rfl, hv, hflight, rfl, Site.moved_register s _ _, rfl⟩
  | @look policy key hv =>
      have hsame := Site.onlyStores_lookup s policy key
      exact .inl ⟨hsame.loads, hsame.flights, fun _ => nofun⟩
  | @clear policy key hv hfirst =>
      have hsame := Site.onlyStores_evict s policy key
      exact .inl ⟨hsame.loads, hsame.flights, fun _ => nofun⟩
  | @evict policy key reply hv =>
      have hsame := Site.onlyStores_evict s policy key
      exact .inl ⟨hsame.loads, hsame.flights, fun _ => nofun⟩
  | _ => exact .inl ⟨rfl, rfl, fun _ => nofun⟩

/-- The phases that a load passes between in a step. -/
inductive Passes (payload : Payload α) (policy : Policy) :
    Phase α → LoadEvent α → Phase α → Prop where
  | ran (ending : Ending Reply) :
      Passes payload policy .running (.ran ending) (.ended (payload.endingOf ending))
  | stored {ending : Ending (Option α)} (problem : Option Error) :
      Passes payload policy (.ended ending) (.stored (policy.handed ending) problem)
        (.stored ending)
  | released {ending : Ending (Option α)} :
      Passes payload policy (.stored ending) .released (.released ending)
  | published {ending : Ending (Option α)} :
      Passes payload policy (.released ending) .published (.published ending)

theorem LoadStep.loads {e : LoadEvent α} (h : LoadStep payload s f e s') :
    ∃ before after, s.At f before ∧ Passes payload (s.policy f.policy) before e after ∧
      s.Moved f after s' := by
  cases h with
  | run hat ending => exact ⟨_, _, hat, .ran ending, Site.moved_finish hat _⟩
  | store ending hat =>
      rw [Site.handed_eq]
      exact ⟨_, _, hat, .stored _, Site.moved_store hat⟩
  | release hat => exact ⟨_, _, hat, .released, Site.moved_release hat⟩
  | publish hat => exact ⟨_, _, hat, .published, Site.moved_publish hat⟩

theorem LoadStep.flights {e : LoadEvent α} (h : LoadStep payload s f e s') :
    (e ≠ .released ∧ s'.flights = s.flights) ∨
      (e = .released ∧
        s'.flights = s.flights.filter fun g => !(g.policy == f.policy && g.key == f.key)) := by
  cases h with
  | run hat ending =>
      rw [Site.finish_of_at hat, Site.withPhase_of_at hat]
      exact .inl ⟨nofun, rfl⟩
  | store ending hat =>
      rw [(Site.onlyStores_store hat).flights, Site.withPhase_of_at hat]
      exact .inl ⟨nofun, rfl⟩
  | release hat =>
      rw [Site.release_of_at hat]
      exact .inr ⟨rfl, rfl⟩
  | publish hat =>
      rw [Site.publish_of_at hat, Site.withPhase_of_at hat]
      exact .inl ⟨nofun, rfl⟩

/-! ### Entries -/

theorem CallStep.holds {e : CallEvent α} {i : Nat} {key : String} {entry : Entry α}
    (h : CallStep payload v s standing e s' standing') (hs' : s'.Holds i key entry) :
    s.Holds i key entry := by
  cases h with
  | look hv => exact Site.holds_of_lookup hs'
  | clear hv hfirst => exact Site.holds_of_evict hs'
  | evict hv => exact Site.holds_of_evict hs'
  | _ => exact hs'

theorem LoadStep.holds {e : LoadEvent α} {i : Nat} {key : String} {entry : Entry α}
    (h : LoadStep payload s f e s') (hs' : s'.Holds i key entry) :
    (e = .stored (some entry) none ∧ (s.policy f.policy).store = i ∧ f.key = key) ∨
      (s.Holds i key entry ∧ ∀ new, e = .stored (some new) none →
        ¬ ((s.policy f.policy).store = i ∧ f.key = key)) := by
  cases h with
  | run hat ending =>
      rw [Site.finish_of_at hat, Site.withPhase_of_at hat] at hs'
      exact .inr ⟨hs', fun _ => nofun⟩
  | store ending hat =>
      rcases Site.holds_of_store hat hs' with ⟨hhanded, hproblem, hplace⟩ | ⟨hs, hother⟩
      · rw [hhanded, hproblem]
        exact .inl ⟨rfl, hplace⟩
      · refine .inr ⟨hs, ?_⟩
        intro new heq
        injection heq with hhanded hproblem
        exact hother (by rw [hhanded]; rfl) hproblem
  | release hat =>
      rw [Site.release_of_at hat] at hs'
      exact .inr ⟨hs', fun _ => nofun⟩
  | publish hat =>
      rw [Site.publish_of_at hat, Site.withPhase_of_at hat] at hs'
      exact .inr ⟨hs', fun _ => nofun⟩

/-! ### Policies -/

theorem CallStep.policies {e : CallEvent α} (h : CallStep payload v s standing e s' standing') :
    s'.policies = s.policies := by
  cases h with
  | look hv => exact (Site.onlyStores_lookup s _ _).policies
  | clear hv hfirst => exact (Site.onlyStores_evict s _ _).policies
  | evict hv => exact (Site.onlyStores_evict s _ _).policies
  | _ => rfl

theorem LoadStep.policies {e : LoadEvent α} (h : LoadStep payload s f e s') :
    s'.policies = s.policies := by
  cases h with
  | run hat ending => rw [Site.finish_of_at hat, Site.withPhase_of_at hat]
  | store ending hat => rw [(Site.onlyStores_store hat).policies, Site.withPhase_of_at hat]
  | release hat => rw [Site.release_of_at hat]
  | publish hat => rw [Site.publish_of_at hat, Site.withPhase_of_at hat]

/-- The policies of a site stay what they are. -/
theorem Steps.policies (h : Steps payload visit m t m') : m'.site.policies = m.site.policies := by
  induction h with
  | refl => rfl
  | tail _ hstep ih =>
      rw [← ih]
      cases hstep with
      | call h => exact h.policies
      | load h => exact h.policies
      | fault faults => rfl
      | pass span => rfl

theorem Run.policy (run : Run payload visit s t m) (number : Nat) :
    m.site.policy number = s.policy number := Site.policy_congr run.steps.policies number

/-! ### Runs cut and joined -/

theorem Steps.single {e : Event α} (h : Step payload visit m e m') :
    Steps payload visit m [e] m' := .tail .refl h

theorem Steps.append (h₁ : Steps payload visit m t₁ m') (h₂ : Steps payload visit m' t₂ m'') :
    Steps payload visit m (t₁ ++ t₂) m'' := by
  induction h₂ with
  | refl => rwa [List.append_nil]
  | tail _ hstep ih =>
      rw [← List.append_assoc]
      exact ih.tail hstep

theorem Steps.head {e : Event α} (hstep : Step payload visit m e m')
    (hsteps : Steps payload visit m' t m'') : Steps payload visit m (e :: t) m'' :=
  (Steps.single hstep).append hsteps

theorem Steps.exists_of_append (h : Steps payload visit m (t₁ ++ t₂) m'') :
    ∃ m', Steps payload visit m t₁ m' ∧ Steps payload visit m' t₂ m'' := by
  -- the last step belongs to the second part, unless that part is empty
  generalize ht : t₁ ++ t₂ = t at h
  induction h generalizing t₂ with
  | refl =>
      obtain ⟨rfl, rfl⟩ := List.append_eq_nil_iff.1 ht
      exact ⟨m, .refl, .refl⟩
  | @tail t m₁ e m₂ hsteps hstep ih =>
      rcases List.eq_nil_or_concat t₂ with rfl | ⟨t₃, e', rfl⟩
      · rw [List.append_nil] at ht
        subst ht
        exact ⟨m₂, hsteps.tail hstep, .refl⟩
      · rw [List.concat_eq_append, ← List.append_assoc] at ht
        obtain ⟨hinit, he⟩ := List.append_inj' ht rfl
        cases he
        obtain ⟨m', h₁, h₂⟩ := ih hinit
        rw [List.concat_eq_append]
        exact ⟨m', h₁, h₂.tail hstep⟩

theorem Steps.exists_of_cons {e : Event α} (h : Steps payload visit m (e :: t) m'') :
    ∃ m', Step payload visit m e m' ∧ Steps payload visit m' t m'' := by
  rw [← List.singleton_append] at h
  obtain ⟨m', h₁, h₂⟩ := h.exists_of_append
  generalize ht : [e] = t' at h₁
  cases h₁ with
  | refl => cases ht
  | @tail t₀ m₀ e' _ hsteps hstep =>
      rw [← List.nil_append [e]] at ht
      obtain ⟨rfl, he⟩ := List.append_inj' ht rfl
      cases he
      generalize hnil : ([] : List (Event α)) = t' at hsteps
      cases hsteps with
      | refl => exact ⟨m', hstep, h₂⟩
      | tail _ _ => simp at hnil

/-- A run cut at one of its events. -/
theorem Run.exists_of_cons {e : Event α} (run : Run payload visit s (t₁ ++ e :: t₂) m) :
    ∃ m₁ m₂, Run payload visit s t₁ m₁ ∧ Step payload visit m₁ e m₂ ∧
      Run payload visit s (t₁ ++ [e]) m₂ ∧ Steps payload visit m₂ t₂ m := by
  obtain ⟨m₁, h₁, hrest⟩ := run.steps.exists_of_append
  obtain ⟨m₂, hstep, h₂⟩ := hrest.exists_of_cons
  exact ⟨m₁, m₂, ⟨run.idle, h₁⟩, hstep, ⟨run.idle, h₁.tail hstep⟩, h₂⟩

/-! ### A small site -/

/-- One empty store under one policy, by which callers wait for two seconds at most. -/
def smallSite : Site Value := .ofStores [⟨0, false, false, some ⟨2000000000⟩⟩] [.empty 16 none]

/-- Reads of one key. -/
def reader : Visit := ⟨⟨.read, 0, .ok "k"⟩, .optionalValue, none⟩

theorem reader_does : reader.Does .read 0 "k" := ⟨rfl, rfl, rfl⟩

theorem smallSite_empty (i : Nat) (key : String) (entry : Entry Value) :
    ¬ smallSite.Holds i key entry := by
  rintro ⟨slot, hfind, -⟩
  cases i with
  | zero => cases hfind
  | succ i => cases hfind

end SqlAccess.Cache
