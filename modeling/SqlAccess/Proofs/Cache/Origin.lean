/-
**Where entries come from.**

Stores that were empty hold nothing but what loads have put there.  An entry is followed back from
its place in a store, through the end of the load that has handed it over, to what the run of that
load has returned and to the call that has started it.

Main definitions:

* `SqlAccess.Cache.Event.Stores` — an event puts an entry into a store under a key;
* `SqlAccess.Cache.Returned` — the run of a load has returned a value;
* `SqlAccess.Cache.Loaded` — **an entry is what a load of its key has returned**.

Main results:

* `SqlAccess.Cache.Steps.holds` — an entry that is found was there before, or is the last that was
  put in its place;
* `SqlAccess.Cache.Run.entries_loaded` — every entry held and every entry found by a call has been
  loaded.
-/

import SqlAccess.Proofs.Cache.History

set_option autoImplicit false

namespace SqlAccess.Cache

variable {α : Type} {payload : Payload α} {visit : Nat → Visit} {s : Site α} {f : Flight}
  {t t' : List (Event α)} {m m' : Moment α} {i : Nat} {key : String} {entry : Entry α}

/-! ### Entries and events -/

/-- An event puts an entry into a store under a key; the policies are those of the site. -/
def Event.Stores (s : Site α) (store : Nat) (key : String) : Event α → Prop
  | .load f (.stored (some _) none) => (s.policy f.policy).store = store ∧ f.key = key
  | _ => False

theorem Step.holds {e : Event α} (hpolicies : m.site.policies = s.policies)
    (h : Step payload visit m e m') (hm' : m'.site.Holds i key entry) :
    (∃ f, e = .load f (.stored (some entry) none) ∧ e.Stores s i key) ∨
      (m.site.Holds i key entry ∧ ¬ e.Stores s i key) := by
  cases h with
  | call h => exact .inr ⟨h.holds hm', id⟩
  | @load f e site h =>
      rcases h.holds hm' with ⟨rfl, hplace⟩ | ⟨hm, hother⟩
      · rw [Site.policy_congr hpolicies] at hplace
        exact .inl ⟨f, rfl, hplace⟩
      · refine .inr ⟨hm, ?_⟩
        intro hstores
        match e, hother, hstores with
        | .stored (some new) none, hother, hstores =>
            rw [Site.policy_congr hpolicies] at hother
            exact hother new rfl hstores
  | fault faults => exact .inr ⟨hm', id⟩
  | pass span => exact .inr ⟨hm', id⟩

/-- **An entry that is found was there before and nothing has been put in its place, or it is the
last that was put there.** -/
theorem Steps.holds (hpolicies : m.site.policies = s.policies)
    (h : Steps payload visit m t m') (hm' : m'.site.Holds i key entry) :
    (m.site.Holds i key entry ∧ ∀ e ∈ t, ¬ e.Stores s i key) ∨
      ∃ before f after, t = before ++ .load f (.stored (some entry) none) :: after ∧
        (s.policy f.policy).store = i ∧ f.key = key ∧ ∀ e ∈ after, ¬ e.Stores s i key := by
  induction h with
  | refl => exact .inl ⟨hm', fun _ h => absurd h List.not_mem_nil⟩
  | @tail t m₁ e m₂ hsteps hstep ih =>
      rcases hstep.holds (hsteps.policies.trans hpolicies) hm' with ⟨f, rfl, hplace⟩ | ⟨hm₁, he⟩
      · exact .inr ⟨t, f, [], rfl, hplace.1, hplace.2, fun _ h => absurd h List.not_mem_nil⟩
      · rcases ih hm₁ with ⟨hm, hnone⟩ | ⟨before, f, after, rfl, hstore, hkey, hnone⟩
        · refine .inl ⟨hm, ?_⟩
          exact List.forall_mem_append.2 ⟨hnone, List.forall_mem_singleton.2 he⟩
        · refine .inr ⟨before, f, after ++ [e], by simp, hstore, hkey, ?_⟩
          exact List.forall_mem_append.2 ⟨hnone, List.forall_mem_singleton.2 he⟩

/-! ### What loads return -/

theorem Payload.eq_of_endingOf {r : Ending Reply} {value : Option α}
    (h : payload.endingOf r = .returned (.ok value)) :
    ∃ reply, r = .returned (.ok reply) ∧ payload.take reply = .ok value := by
  cases r with
  | panicked => cases h
  | returned outcome =>
      injection h with h
      cases outcome with
      | error e => cases h
      | ok reply => exact ⟨reply, rfl, h⟩

/-- Only a value that was returned is stored, and its absence only if the policy keeps it. -/
theorem Policy.eq_of_handed {p : Policy} {ending : Ending (Option α)}
    (h : p.handed ending = some entry) :
    ending = .returned (.ok entry.toOption) ∧ (entry = .absent → p.keepsAbsent = true) := by
  cases ending with
  | panicked => cases h
  | returned outcome =>
      cases outcome with
      | error e => cases h
      | ok value =>
          cases value with
          | some value =>
              obtain rfl : Entry.present value = entry := Option.some.inj h
              exact ⟨rfl, nofun⟩
          | none =>
              unfold Policy.handed Policy.entryFor at h
              dsimp only at h
              split at h
              · rename_i hkeeps
                obtain rfl := Option.some.inj h
                exact ⟨rfl, fun _ => hkeeps⟩
              · cases h

/-- The run of a load has returned a value. -/
def Returned (payload : Payload α) (t : List (Event α)) (f : Flight) (value : Option α) : Prop :=
  ∃ reply, .load f (.ran (.returned (.ok reply))) ∈ t ∧ payload.take reply = .ok value

/-- An entry of a store has been loaded under its key: a call that reads the key under a policy for
that store has started a load, the run of the load has returned the value of the entry, and the load
has put the entry into the store.  That there is no value is kept only by a policy that says so. -/
def Loaded (payload : Payload α) (visit : Nat → Visit) (s : Site α) (t : List (Event α))
    (store : Nat) (key : String) (entry : Entry α) : Prop :=
  ∃ c f, (visit c).Does .read f.policy key ∧ f.key = key ∧ (s.policy f.policy).store = store ∧
    .call c (.started f) ∈ t ∧ Returned payload t f entry.toOption ∧
    .load f (.stored (some entry) none) ∈ t ∧
    (entry = .absent → (s.policy f.policy).keepsAbsent = true)

theorem Run.returned_of_ending {phase : Phase α} {value : Option α}
    (run : Run payload visit s t m) (hat : m.site.At f phase)
    (hending : phase.ending? = some (.returned (.ok value))) : Returned payload t f value := by
  obtain ⟨r, hran, hr⟩ := (run.recorded.trail f phase hat).ran_of_ending hending
  obtain ⟨reply, rfl, htake⟩ := Payload.eq_of_endingOf hr.symm
  exact ⟨reply, mem_trail.1 hran, htake⟩

/-- Whatever is stored has been returned. -/
theorem Run.returned_of_stored {problem : Option Error} (run : Run payload visit s t m)
    (hstored : .load f (.stored (some entry) problem) ∈ t) :
    Returned payload t f entry.toOption ∧
      (entry = .absent → (s.policy f.policy).keepsAbsent = true) := by
  obtain ⟨phase, hat⟩ := run.recorded.at_of_load f _ hstored
  have htrail := run.recorded.trail f phase hat
  obtain ⟨r, hran, hentry⟩ := htrail.handed_of_stored (mem_trail.2 hstored)
  obtain ⟨hending, hkeeps⟩ := Policy.eq_of_handed hentry.symm
  obtain ⟨reply, rfl, htake⟩ := Payload.eq_of_endingOf hending
  exact ⟨⟨reply, mem_trail.1 hran, htake⟩, hkeeps⟩

theorem Run.loaded_of_stored (run : Run payload visit s t m)
    (hstored : .load f (.stored (some entry) none) ∈ t) :
    Loaded payload visit s t (s.policy f.policy).store f.key entry := by
  obtain ⟨phase, hat⟩ := run.recorded.at_of_load f _ hstored
  obtain ⟨c, hstarted, hv⟩ := run.recorded.started f phase hat
  obtain ⟨hreturned, hkeeps⟩ := run.returned_of_stored hstored
  exact ⟨c, f, hv, rfl, rfl, hstarted, hreturned, hstored, hkeeps⟩

theorem Run.loaded_of_holds (run : Run payload visit s t m)
    (hempty : ∀ i key entry, ¬ s.Holds i key entry) (h : m.site.Holds i key entry) :
    Loaded payload visit s t i key entry := by
  rcases run.steps.holds rfl h with ⟨hstart, -⟩ | ⟨before, f, after, rfl, rfl, rfl, -⟩
  · exact absurd hstart (hempty i key entry)
  · exact run.loaded_of_stored (List.mem_append_right _ List.mem_cons_self)

/-! ### Hits -/

/-- What a call finds was held under its key, and is what it answers with. -/
theorem CallStep.hit {v : Visit} {s s' : Site α} {standing standing' : Standing}
    (h : CallStep payload v s standing (.looked (.ok (some entry))) s' standing') :
    ∃ policy key, v.Does .read policy key ∧ s.Holds (s.policy policy).store key entry ∧
      standing' = v.answer (.ok (payload.toReply entry.toOption)) := by
  generalize hfound : Except.ok (some entry) = found at h
  cases h with
  | look hv =>
      refine ⟨_, _, hv, Site.holds_of_hit hfound.symm, ?_⟩
      rw [← hfound]
      rfl

/-- **In stores that were empty, every entry has been loaded under its key, and so has every entry
that a call finds, before it finds it; with that value, or with that there is none, it answers.**
Errors, panics and replies of another kind leave no entry behind. -/
theorem Run.entries_loaded (run : Run payload visit s t m)
    (hempty : ∀ i key entry, ¬ s.Holds i key entry) :
    (∀ i key entry, m.site.Holds i key entry → Loaded payload visit s t i key entry) ∧
    ∀ before after c entry, t = before ++ .call c (.looked (.ok (some entry))) :: after →
      ∃ policy key, (visit c).Does .read policy key ∧
        Loaded payload visit s before (s.policy policy).store key entry ∧
        m.standing c = (visit c).answer (.ok (payload.toReply entry.toOption)) := by
  refine ⟨fun i key entry h => run.loaded_of_holds hempty h, ?_⟩
  rintro before after c entry rfl
  obtain ⟨m₁, m₂, run₁, hlook, -, hafter⟩ := run.exists_of_cons
  obtain ⟨policy, key, hv, hholds, hanswer⟩ := hlook.callStep.hit
  rw [run₁.policy] at hholds
  refine ⟨policy, key, hv, run₁.loaded_of_holds hempty hholds, ?_⟩
  -- a call that has its answer keeps it
  rw [← hanswer]
  refine hafter.standing_of_ended ?_ ?_
  · rw [hanswer]
    exact nofun
  · rw [hanswer]
    rfl

/-- A load stores its value, and another read finds it. -/
def storedLoad : List (Event Value) := [
  .call 0 .arrived, .call 0 (.looked (.ok none)), .call 0 (.started ⟨0, "k", 0⟩),
  .load ⟨0, "k", 0⟩ (.ran (.returned (.ok (.optionalValue (some (.text "v")))))),
  .load ⟨0, "k", 0⟩ (.stored (some (.present (.text "v"))) none),
  .load ⟨0, "k", 0⟩ .released, .call 1 .arrived,
  .call 1 (.looked (.ok (some (.present (.text "v")))))]

theorem exists_run_storedLoad : ∃ m, Run .value (fun _ => reader) smallSite storedLoad m ∧
    m.site.Holds 0 "k" (.present (.text "v")) := by
  refine ⟨?m, ⟨⟨rfl, rfl⟩, ?steps⟩, ?holds⟩
  case steps =>
    refine .head (.call .arrive) ?_
    refine .head (.call (.look reader_does)) ?_
    refine .head (.call (.start reader_does rfl)) ?_
    refine .head (.load (.run (by rfl) (.returned (.ok (.optionalValue (some (.text "v"))))))) ?_
    refine .head (.load (.store (.returned (.ok (some (Value.text "v")))) (by rfl))) ?_
    refine .head (.load (.release (by rfl))) ?_
    refine .head (.call .arrive) ?_
    refine .head (.call (.look reader_does)) ?_
    exact .refl
  case holds => exact ⟨_, rfl, rfl⟩

theorem loaded_of_storedLoad : ∃ m, Run .value (fun _ => reader) smallSite storedLoad m ∧
    m.site.Holds 0 "k" (.present (.text "v")) ∧
    Loaded .value (fun _ => reader) smallSite storedLoad 0 "k" (.present (.text "v")) := by
  obtain ⟨m, run, hholds⟩ := exists_run_storedLoad
  exact ⟨m, run, hholds, (run.entries_loaded smallSite_empty).1 0 "k" _ hholds⟩

end SqlAccess.Cache
