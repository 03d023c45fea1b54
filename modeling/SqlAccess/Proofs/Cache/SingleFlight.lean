/-
**One load for a key at a time.**

The flights of a site are kept by hand: a call that starts a load puts its key in, and the load
takes its key out, whoever has put it there.  That they are nevertheless exactly the loads under way
is an invariant of every step, whichever way loads end and whoever stops waiting for them.

Main definitions:

* `SqlAccess.Cache.Site.Tidy` — the flights are the loads that hold a place, one for each key.

Main results:

* `SqlAccess.Cache.Site.Tidy.step` — every step keeps them so;
* `SqlAccess.Cache.Run.flight_iff_one_load` — **a key is in flight if and only if exactly one load
  of it holds its place**, and no two runs for a key overlap.
-/

import Mathlib.Data.List.Nodup
import SqlAccess.Proofs.Cache.History

set_option autoImplicit false

namespace SqlAccess.Cache

variable {α : Type} {payload : Payload α} {visit : Nat → Visit} {v : Visit} {s s' : Site α}
  {standing standing' : Standing} {f g : Flight} {t : List (Event α)} {m m' : Moment α}

/-! ### Flights and phases -/

/-- What stands for a flight in the order of keys. -/
def Flight.place (f : Flight) : Nat × String := (f.policy, f.key)

/-- The flights are the loads that hold a place, and there is one for each key at most. -/
structure Site.Tidy (s : Site α) : Prop where
  mem_iff : ∀ f, f ∈ s.flights ↔ ∃ phase, s.At f phase ∧ phase.inFlight = true
  nodup : (s.flights.map Flight.place).Nodup

namespace Site.Tidy

theorem eq_of_place (h : s.Tidy) (hf : f ∈ s.flights) (hg : g ∈ s.flights)
    (hplace : f.place = g.place) : f = g :=
  List.inj_on_of_nodup_map h.nodup hf hg hplace

theorem flight?_eq_some_iff (h : s.Tidy) {policy load : Nat} {key : String} :
    s.flight? policy key = some load ↔ ⟨policy, key, load⟩ ∈ s.flights := by
  unfold flight?
  constructor
  · intro hflight
    obtain ⟨f, hfind, rfl⟩ := Option.map_eq_some_iff.1 hflight
    have hplace := List.find?_some hfind
    rw [Bool.and_eq_true, beq_iff_eq, beq_iff_eq] at hplace
    obtain ⟨rfl, rfl⟩ := hplace
    exact List.mem_of_find?_eq_some hfind
  · intro hmem
    cases hfind : s.flights.find? fun f => f.policy == policy && f.key == key with
    | none =>
        have hno := List.find?_eq_none.1 hfind _ hmem
        simp at hno
    | some f =>
        have hplace := List.find?_some hfind
        rw [Bool.and_eq_true, beq_iff_eq, beq_iff_eq] at hplace
        obtain ⟨rfl, rfl⟩ := hplace
        rw [h.eq_of_place (List.mem_of_find?_eq_some hfind) hmem rfl]
        rfl

theorem congr (h : s.Tidy) (hat : ∀ f phase, s'.At f phase ↔ s.At f phase)
    (hflights : s'.flights = s.flights) : s'.Tidy := by
  constructor
  · intro f
    rw [hflights, h.mem_iff f]
    simp only [hat]
  · rw [hflights]
    exact h.nodup

/-- A new load is in flight under a key that was not. -/
theorem started (h : s.Tidy) (hfree : s.flight? f.policy f.key = none)
    (hnew : f.load = s.loads.length) (hmoved : s.Moved f .running s')
    (hflights : s'.flights = s.flights ++ [f]) : s'.Tidy := by
  constructor
  · intro g
    rw [hflights, List.mem_append, List.mem_singleton, h.mem_iff g]
    constructor
    · rintro (⟨phase, hat, hphase⟩ | rfl)
      · have hlt := hat.lt_length
        exact ⟨phase, (hmoved.of_ne (by omega)).2 hat, hphase⟩
      · exact ⟨.running, hmoved.at, rfl⟩
    · rintro ⟨phase, hat, hphase⟩
      rcases (hmoved g phase).1 hat with ⟨rfl, -⟩ | ⟨-, hat⟩
      · exact .inr rfl
      · exact .inl ⟨phase, hat, hphase⟩
  · rw [hflights, List.map_append, List.map_singleton]
    refine List.nodup_append.2 ⟨h.nodup, List.nodup_singleton _, ?_⟩
    intro place hplace place' hplace' heq
    obtain ⟨g, hg, rfl⟩ := List.mem_map.1 hplace
    obtain rfl := List.mem_singleton.1 hplace'
    -- the key of the new load would have been found
    obtain ⟨policy, key, load⟩ := g
    cases heq
    rw [h.flight?_eq_some_iff.2 hg] at hfree
    cases hfree

/-- A load keeps its place from one phase to the next. -/
theorem moved {before after : Phase α} (h : s.Tidy) (hat : s.At f before)
    (hmoved : s.Moved f after s') (hphase : after.inFlight = before.inFlight)
    (hflights : s'.flights = s.flights) : s'.Tidy := by
  constructor
  · intro g
    rw [hflights, h.mem_iff g]
    by_cases hload : g.load = f.load
    · constructor
      · rintro ⟨phase, hg, hin⟩
        obtain ⟨rfl, rfl⟩ := hat.unique hg hload
        exact ⟨after, hmoved.at, hphase.trans hin⟩
      · rintro ⟨phase, hg, hin⟩
        obtain ⟨rfl, rfl⟩ := hmoved.at.unique hg hload
        exact ⟨before, hat, hphase.symm.trans hin⟩
    · simp only [hmoved.of_ne hload]
  · rw [hflights]
    exact h.nodup

/-- A load that gives up its place takes out its own key and no other. -/
theorem released {ending : Ending (Option α)} (h : s.Tidy) (hat : s.At f (.stored ending))
    (hmoved : s.Moved f (.released ending) s')
    (hflights : s'.flights = s.flights.filter fun g => !(g.policy == f.policy && g.key == f.key)) :
    s'.Tidy := by
  have hf : f ∈ s.flights := (h.mem_iff f).2 ⟨_, hat, rfl⟩
  constructor
  · intro g
    rw [hflights, List.mem_filter]
    by_cases hload : g.load = f.load
    · constructor
      · rintro ⟨hg, hplace⟩
        obtain ⟨phase, hg, -⟩ := (h.mem_iff g).1 hg
        obtain ⟨rfl, -⟩ := hat.unique hg hload
        simp at hplace
      · rintro ⟨phase, hg, hin⟩
        obtain ⟨-, rfl⟩ := hmoved.at.unique hg hload
        cases hin
    · simp only [hmoved.of_ne hload]
      rw [← h.mem_iff g]
      constructor
      · rintro ⟨hg, -⟩
        exact hg
      · intro hg
        refine ⟨hg, ?_⟩
        rw [Bool.not_eq_true', Bool.and_eq_false_iff, beq_eq_false_iff_ne, beq_eq_false_iff_ne]
        by_contra hplace
        push Not at hplace
        obtain rfl := h.eq_of_place hg hf (Prod.ext hplace.1 hplace.2)
        exact hload rfl
  · rw [hflights]
    exact h.nodup.sublist (List.filter_sublist.map _)

/-- Every step keeps the flights what they should be. -/
theorem step {e : Event α} (h : m.site.Tidy) (hstep : Step payload visit m e m') :
    m'.site.Tidy := by
  cases hstep with
  | call hcall =>
      rcases hcall.loads with ⟨hloads, hflights, -⟩ | ⟨f, -, -, hfree, hnew, hmoved, hflights⟩
      · exact h.congr (fun _ _ => At.congr hloads) hflights
      · exact h.started hfree hnew hmoved hflights
  | load hload =>
      obtain ⟨before, after, hat, hpasses, hmoved⟩ := hload.loads
      rcases hload.flights with ⟨hne, hflights⟩ | ⟨rfl, hflights⟩
      · refine h.moved hat hmoved ?_ hflights
        cases hpasses with
        | released => exact absurd rfl hne
        | _ => rfl
      · cases hpasses
        exact h.released hat hmoved hflights
  | fault faults => exact h.congr (fun _ _ => Iff.rfl) rfl
  | pass span => exact h.congr (fun _ _ => Iff.rfl) rfl

end Site.Tidy

theorem Site.Idle.tidy (h : s.Idle) : s.Tidy := by
  constructor
  · intro f
    rw [h.flights_eq]
    constructor
    · intro hmem
      exact absurd hmem List.not_mem_nil
    · rintro ⟨phase, hat, -⟩
      have hlt := hat.lt_length
      rw [h.loads_eq] at hlt
      exact absurd hlt (Nat.not_lt_zero _)
  · rw [h.flights_eq]
    exact List.nodup_nil

theorem Run.tidy (run : Run payload visit s t m) : m.site.Tidy := by
  obtain ⟨hidle, hsteps⟩ := run
  induction hsteps with
  | refl => exact hidle.tidy
  | tail _ hstep ih => exact ih.step hstep

theorem Run.mem_flights_iff (run : Run payload visit s t m) : f ∈ m.site.flights ↔ Loading t f := by
  rw [run.tidy.mem_iff f, run.loading_iff]

/-! ### One load at a time -/

/-- **At every moment of every run, a key is in flight if and only if exactly one load of it has
been started and has not given up its place.**  So the runs of two loads of one key under one policy
never overlap, and without a load under way nothing is in flight. -/
theorem Run.flight_iff_one_load (run : Run payload visit s t m) :
    (∀ policy key, (m.site.flight? policy key).isSome = true ↔
      ∃! load, Loading t ⟨policy, key, load⟩) ∧
    (∀ f g, Running t f → Running t g → f.policy = g.policy → f.key = g.key → f = g) ∧
    ((∀ f, ¬ Loading t f) → m.site.flights = []) := by
  have htidy := run.tidy
  refine ⟨?_, ?_, ?_⟩
  · intro policy key
    rw [Option.isSome_iff_exists]
    constructor
    · rintro ⟨load, hflight⟩
      have hmem := htidy.flight?_eq_some_iff.1 hflight
      refine ⟨load, run.mem_flights_iff.1 hmem, ?_⟩
      intro other hother
      have heq := htidy.eq_of_place (run.mem_flights_iff.2 hother) hmem rfl
      exact congrArg Flight.load heq
    · rintro ⟨load, hload, -⟩
      exact ⟨load, htidy.flight?_eq_some_iff.2 (run.mem_flights_iff.2 hload)⟩
  · intro f g hf hg hpolicy hkey
    have hmemf := run.mem_flights_iff.2 (run.loading_of_running hf)
    have hmemg := run.mem_flights_iff.2 (run.loading_of_running hg)
    exact htidy.eq_of_place hmemf hmemg (Prod.ext hpolicy hkey)
  · intro hnone
    refine List.eq_nil_iff_forall_not_mem.2 ?_
    intro f hf
    exact hnone f (run.mem_flights_iff.1 hf)

/-- Two reads share a load; the one that has started it is dropped, and its run panics. -/
def panickedLoad : List (Event Value) := [
  .call 0 .arrived, .call 0 (.looked (.ok none)), .call 0 (.started ⟨0, "k", 0⟩),
  .call 1 .arrived, .call 1 (.looked (.ok none)), .call 1 (.joined ⟨0, "k", 0⟩),
  .call 0 .dropped,
  .load ⟨0, "k", 0⟩ (.ran .panicked), .load ⟨0, "k", 0⟩ (.stored none none)]

theorem exists_run_panickedLoad : ∃ m, Run .value (fun _ => reader) smallSite panickedLoad m ∧
    (m.site.flight? 0 "k").isSome = true := by
  refine ⟨?m, ⟨⟨rfl, rfl⟩, ?steps⟩, ?flight⟩
  case steps =>
    refine .head (.call .arrive) ?_
    refine .head (.call (.look reader_does)) ?_
    refine .head (.call (.start reader_does rfl)) ?_
    refine .head (.call .arrive) ?_
    refine .head (.call (.look reader_does)) ?_
    refine .head (.call (.join reader_does rfl)) ?_
    refine .head (.call (.drop rfl)) ?_
    refine .head (.load (.run (by rfl) .panicked)) ?_
    refine .head (.load (.store .panicked (by rfl))) ?_
    exact .refl
  case flight => rfl

/-- Until the load gives up its place, its key is in flight, and it is the only one of it. -/
theorem one_load_of_panicked : ∃ m, Run .value (fun _ => reader) smallSite panickedLoad m ∧
    (m.site.flight? 0 "k").isSome = true ∧ ∃! load, Loading panickedLoad ⟨0, "k", load⟩ := by
  obtain ⟨m, run, hflight⟩ := exists_run_panickedLoad
  exact ⟨m, run, hflight, (run.flight_iff_one_load.1 0 "k").1 hflight⟩

end SqlAccess.Cache
