/-
**The history of a load.**

A load is started by one call, and then passes from phase to phase; it leaves one event behind for
each.  So the phase of a load and the events it has left say the same: from the phase its events can
be told, and from the events whether it still holds its place among the flights.

Main definitions:

* `SqlAccess.Cache.trail` — the events of one load, in order;
* `SqlAccess.Cache.Trail` — the events that lead to a phase;
* `SqlAccess.Cache.Loading`, `SqlAccess.Cache.Running` — by its history, a load holds its place, and
  its run has not ended.

Main results:

* `SqlAccess.Cache.Step.loads` — what any step does to the loads;
* `SqlAccess.Cache.Run.recorded` — **the phase of a load is where its events lead**;
* `SqlAccess.Cache.Run.loading_iff` — it holds its place in its first three phases.
-/

import SqlAccess.Proofs.Cache.Interleaving

set_option autoImplicit false

namespace SqlAccess.Cache

variable {α : Type} {payload : Payload α} {visit : Nat → Visit} {s : Site α} {f g : Flight}
  {t : List (Event α)} {m m' : Moment α}

/-! ### Steps seen from the loads -/

/-- A step concerns no load, or starts one that was not there, or takes one to its next phase. -/
theorem Step.loads {e : Event α} (h : Step payload visit m e m') :
    ((∀ f phase, m'.site.At f phase ↔ m.site.At f phase) ∧ (∀ f le, e ≠ .load f le) ∧
        ∀ c f, e ≠ .call c (.started f)) ∨
      (∃ c f, e = .call c (.started f) ∧ (visit c).Does .read f.policy f.key ∧
        (∀ g phase, m.site.At g phase → g.load ≠ f.load) ∧ m.site.Moved f .running m'.site) ∨
      ∃ f le before after, e = .load f le ∧ m.site.At f before ∧
        Passes payload (m.site.policy f.policy) before le after ∧ m.site.Moved f after m'.site := by
  cases h with
  | call h =>
      rcases h.loads with ⟨hloads, -, hne⟩ | ⟨f, rfl, hv, -, hnew, hmoved, -⟩
      · refine .inl ⟨fun _ _ => Site.At.congr hloads, fun _ _ => nofun, ?_⟩
        intro c f heq
        cases heq
        exact hne f rfl
      · refine .inr (.inl ⟨_, f, rfl, hv, ?_, hmoved⟩)
        intro g phase hat
        have hlt := hat.lt_length
        omega
  | load h =>
      obtain ⟨before, after, hat, hpasses, hmoved⟩ := h.loads
      exact .inr (.inr ⟨_, _, before, after, rfl, hat, hpasses, hmoved⟩)
  | fault faults =>
      exact .inl ⟨fun _ _ => Site.At.congr rfl, fun _ _ => nofun, fun _ _ => nofun⟩
  | pass span =>
      exact .inl ⟨fun _ _ => Site.At.congr rfl, fun _ _ => nofun, fun _ _ => nofun⟩

/-! ### Trails -/

/-- What an event says of the load of a flight. -/
def Event.of? (f : Flight) : Event α → Option (LoadEvent α)
  | .load g e => if g = f then some e else none
  | _ => none

/-- The events of the load of a flight, in order. -/
def trail (f : Flight) (t : List (Event α)) : List (LoadEvent α) := t.filterMap (Event.of? f)

theorem mem_trail {e : LoadEvent α} : e ∈ trail f t ↔ .load f e ∈ t := by
  constructor
  · intro h
    obtain ⟨event, hmem, hof⟩ := List.mem_filterMap.1 h
    cases event with
    | load g e' =>
        obtain ⟨rfl, rfl⟩ : g = f ∧ e' = e := by simpa [Event.of?] using hof
        exact hmem
    | _ => cases hof
  · intro h
    exact List.mem_filterMap.2 ⟨_, h, if_pos rfl⟩

theorem trail_append_load (f : Flight) (t : List (Event α)) (e : LoadEvent α) :
    trail f (t ++ [.load f e]) = trail f t ++ [e] := by
  simp [trail, Event.of?]

theorem trail_append_of_ne {e : Event α} (h : ∀ le, e ≠ .load f le) :
    trail f (t ++ [e]) = trail f t := by
  have hof : Event.of? f e = none := by
    cases e with
    | load g le =>
        refine if_neg ?_
        rintro rfl
        exact h le rfl
    | _ => rfl
  simp [trail, hof]

/-- The events that have led a load to its phase. -/
inductive Trail (payload : Payload α) (policy : Policy) : Phase α → List (LoadEvent α) → Prop where
  | running : Trail payload policy .running []
  | ended (r : Ending Reply) : Trail payload policy (.ended (payload.endingOf r)) [.ran r]
  | stored (r : Ending Reply) (problem : Option Error) :
      Trail payload policy (.stored (payload.endingOf r))
        [.ran r, .stored (policy.handed (payload.endingOf r)) problem]
  | released (r : Ending Reply) (problem : Option Error) :
      Trail payload policy (.released (payload.endingOf r))
        [.ran r, .stored (policy.handed (payload.endingOf r)) problem, .released]
  | published (r : Ending Reply) (problem : Option Error) :
      Trail payload policy (.published (payload.endingOf r))
        [.ran r, .stored (policy.handed (payload.endingOf r)) problem, .released, .published]

/-- Whether a load in this phase still holds its place among the flights. -/
def Phase.inFlight : Phase α → Bool
  | running | ended _ | stored _ => true
  | released _ | published _ => false

/-- How the run of a load in this phase has ended, if it has. -/
def Phase.ending? : Phase α → Option (Ending (Option α))
  | running => none
  | ended e | stored e | released e | published e => some e

namespace Trail

variable {policy : Policy} {phase before after : Phase α} {es : List (LoadEvent α)}

theorem passes {e : LoadEvent α} (h : Trail payload policy before es)
    (hpasses : Passes payload policy before e after) : Trail payload policy after (es ++ [e]) := by
  cases hpasses with
  | ran ending =>
      cases h
      exact .ended ending
  | stored problem =>
      cases h
      exact .stored _ problem
  | released =>
      cases h
      exact .released _ _
  | published =>
      cases h
      exact .published _ _

theorem inFlight_iff (h : Trail payload policy phase es) :
    phase.inFlight = true ↔ .released ∉ es := by
  cases h <;> simp [Phase.inFlight]

theorem ending_of_ran {r : Ending Reply} (h : Trail payload policy phase es) (hr : .ran r ∈ es) :
    phase.ending? = some (payload.endingOf r) := by
  cases h with
  | running => cases hr
  | _ =>
      obtain rfl := by simpa using hr
      rfl

theorem ran_of_ending {ending : Ending (Option α)} (h : Trail payload policy phase es)
    (hending : phase.ending? = some ending) : ∃ r, .ran r ∈ es ∧ ending = payload.endingOf r := by
  cases h with
  | running => cases hending
  | _ =>
      cases hending
      exact ⟨_, List.mem_cons_self, rfl⟩

theorem ran_unique {r r' : Ending Reply} (h : Trail payload policy phase es) (hr : .ran r ∈ es)
    (hr' : .ran r' ∈ es) : r = r' := by
  cases h with
  | running => cases hr
  | _ =>
      obtain rfl := by simpa using hr
      obtain rfl := by simpa using hr'
      rfl

theorem handed_of_stored {handed : Option (Entry α)} {problem : Option Error}
    (h : Trail payload policy phase es) (hs : .stored handed problem ∈ es) :
    ∃ r, .ran r ∈ es ∧ handed = policy.handed (payload.endingOf r) := by
  cases h with
  | running => cases hs
  | ended r => simp at hs
  | _ =>
      obtain ⟨rfl, -⟩ := by simpa using hs
      exact ⟨_, List.mem_cons_self, rfl⟩

theorem stored_of_released (h : Trail payload policy phase es) (hreleased : .released ∈ es) :
    ∃ r problem, .ran r ∈ es ∧ .stored (policy.handed (payload.endingOf r)) problem ∈ es := by
  cases h with
  | running => cases hreleased
  | ended r => simp at hreleased
  | stored r problem => simp at hreleased
  | _ => exact ⟨_, _, List.mem_cons_self, List.mem_cons_of_mem _ List.mem_cons_self⟩

end Trail

/-! ### The record of a run -/

/-- By its history, a load has been started and has not given up its place. -/
def Loading (t : List (Event α)) (f : Flight) : Prop :=
  (∃ c, .call c (.started f) ∈ t) ∧ .load f .released ∉ t

/-- By its history, a load has been started and its run has not ended. -/
def Running (t : List (Event α)) (f : Flight) : Prop :=
  (∃ c, .call c (.started f) ∈ t) ∧ ∀ r, .load f (.ran r) ∉ t

/-- The loads of a site are those that the events tell of. -/
structure Recorded (payload : Payload α) (visit : Nat → Visit) (s : Site α) (t : List (Event α))
    (now : Site α) : Prop where
  trail : ∀ f phase, now.At f phase → Trail payload (s.policy f.policy) phase (trail f t)
  started : ∀ f phase, now.At f phase →
    ∃ c, .call c (.started f) ∈ t ∧ (visit c).Does .read f.policy f.key
  at_of_started : ∀ c f, .call c (.started f) ∈ t → ∃ phase, now.At f phase
  at_of_load : ∀ f e, .load f e ∈ t → ∃ phase, now.At f phase

/-- Once a load is there, it stays. -/
theorem Step.exists_at {e : Event α} {phase : Phase α} (h : Step payload visit m e m')
    (hat : m.site.At f phase) : ∃ phase', m'.site.At f phase' := by
  rcases h.loads with ⟨hsame, -⟩ | ⟨_, g, -, -, hnew, hmoved⟩ | ⟨g, _, _, after, -, hg, -, hmoved⟩
  · exact ⟨phase, (hsame f phase).2 hat⟩
  · exact ⟨phase, (hmoved.of_ne (hnew f phase hat)).2 hat⟩
  · by_cases hload : f.load = g.load
    · obtain ⟨rfl, -⟩ := hg.unique hat hload
      exact ⟨after, hmoved.at⟩
    · exact ⟨phase, (hmoved.of_ne hload).2 hat⟩

theorem Step.exists_at_of_started {c : Nat} (h : Step payload visit m (.call c (.started f)) m') :
    ∃ phase, m'.site.At f phase := by
  rcases h.loads with ⟨-, -, hcall⟩ | ⟨_, g, heq, -, -, hmoved⟩ | ⟨g, le, _, _, heq, -⟩
  · exact absurd rfl (hcall c f)
  · cases heq
    exact ⟨_, hmoved.at⟩
  · cases heq

theorem Step.exists_at_of_load {e : LoadEvent α} (h : Step payload visit m (.load f e) m') :
    ∃ phase, m'.site.At f phase := by
  rcases h.loads with ⟨-, hload, -⟩ | ⟨_, g, heq, -⟩ | ⟨g, le, _, _, heq, -, -, hmoved⟩
  · exact absurd rfl (hload f e)
  · cases heq
  · cases heq
    exact ⟨_, hmoved.at⟩

theorem Recorded.start (hidle : s.Idle) : Recorded payload visit s [] s := by
  have hno : ∀ f phase, ¬ s.At f phase := by
    intro f phase hat
    have hlt := hat.lt_length
    rw [hidle.loads_eq] at hlt
    exact absurd hlt (Nat.not_lt_zero _)
  exact ⟨fun f phase hat => absurd hat (hno f phase), fun f phase hat => absurd hat (hno f phase),
    fun _ _ hmem => absurd hmem List.not_mem_nil, fun _ _ hmem => absurd hmem List.not_mem_nil⟩

/-- Nothing has been said of a load that was not there. -/
theorem Recorded.trail_eq_nil (h : Recorded payload visit s t m.site)
    (hnew : ∀ phase, ¬ m.site.At f phase) : Cache.trail f t = [] := by
  refine List.eq_nil_iff_forall_not_mem.2 ?_
  intro le hle
  obtain ⟨phase, hat⟩ := h.at_of_load f le (mem_trail.1 hle)
  exact hnew phase hat

theorem Recorded.trail_step {e : Event α} {phase : Phase α}
    (h : Recorded payload visit s t m.site) (hpolicies : m.site.policies = s.policies)
    (hstep : Step payload visit m e m') (hat : m'.site.At f phase) :
    Trail payload (s.policy f.policy) phase (Cache.trail f (t ++ [e])) := by
  rcases hstep.loads with ⟨hsame, hload, -⟩ | ⟨c, g, rfl, -, hnew, hmoved⟩ |
    ⟨g, le, before, after, rfl, hg, hpasses, hmoved⟩
  · rw [trail_append_of_ne (hload f)]
    exact h.trail f phase ((hsame f phase).1 hat)
  · have hother : ∀ le, (.call c (.started g) : Event α) ≠ .load f le := fun _ => nofun
    rw [trail_append_of_ne hother]
    rcases (hmoved f phase).1 hat with ⟨rfl, rfl⟩ | ⟨-, hold⟩
    -- nothing has been said of a load that has just been started
    · rw [h.trail_eq_nil fun phase hold => hnew f phase hold rfl]
      exact .running
    · exact h.trail f phase hold
  · rcases (hmoved f phase).1 hat with ⟨rfl, rfl⟩ | ⟨hne, hold⟩
    · rw [trail_append_load]
      rw [Site.policy_congr hpolicies] at hpasses
      exact (h.trail f before hg).passes hpasses
    · rw [trail_append_of_ne]
      · exact h.trail f phase hold
      · rintro le' heq
        cases heq
        exact hne rfl

theorem Recorded.started_step {e : Event α} {phase : Phase α}
    (h : Recorded payload visit s t m.site) (hstep : Step payload visit m e m')
    (hat : m'.site.At f phase) :
    ∃ c, .call c (.started f) ∈ t ++ [e] ∧ (visit c).Does .read f.policy f.key := by
  have hold : ∀ phase, m.site.At f phase →
      ∃ c, .call c (.started f) ∈ t ++ [e] ∧ (visit c).Does .read f.policy f.key := by
    intro phase hat
    obtain ⟨c, hmem, hv⟩ := h.started f phase hat
    exact ⟨c, List.mem_append_left _ hmem, hv⟩
  rcases hstep.loads with
    ⟨hsame, -⟩ | ⟨c, g, rfl, hv, -, hmoved⟩ | ⟨g, _, before, _, -, hg, -, hmoved⟩
  · exact hold phase ((hsame f phase).1 hat)
  · rcases (hmoved f phase).1 hat with ⟨rfl, -⟩ | ⟨-, hat⟩
    · exact ⟨c, List.mem_append_right _ List.mem_cons_self, hv⟩
    · exact hold phase hat
  · rcases (hmoved f phase).1 hat with ⟨rfl, -⟩ | ⟨-, hat⟩
    · exact hold before hg
    · exact hold phase hat

theorem Recorded.step {e : Event α} (h : Recorded payload visit s t m.site)
    (hpolicies : m.site.policies = s.policies) (hstep : Step payload visit m e m') :
    Recorded payload visit s (t ++ [e]) m'.site := by
  constructor
  · intro f phase hat
    exact h.trail_step hpolicies hstep hat
  · intro f phase hat
    exact h.started_step hstep hat
  · intro c f hmem
    rcases List.mem_append.1 hmem with hmem | hmem
    · obtain ⟨phase, hat⟩ := h.at_of_started c f hmem
      exact hstep.exists_at hat
    · obtain rfl := List.mem_singleton.1 hmem
      exact hstep.exists_at_of_started
  · intro f le hmem
    rcases List.mem_append.1 hmem with hmem | hmem
    · obtain ⟨phase, hat⟩ := h.at_of_load f le hmem
      exact hstep.exists_at hat
    · obtain rfl := List.mem_singleton.1 hmem
      exact hstep.exists_at_of_load

/-- **The phase of each load is where its events have led it.** -/
theorem Run.recorded (run : Run payload visit s t m) : Recorded payload visit s t m.site := by
  obtain ⟨hidle, hsteps⟩ := run
  induction hsteps with
  | refl => exact .start hidle
  | tail hsteps hstep ih => exact ih.step hsteps.policies hstep

/-- A load holds its place as long as its phase says so. -/
theorem Run.loading_iff (run : Run payload visit s t m) :
    Loading t f ↔ ∃ phase, m.site.At f phase ∧ phase.inFlight = true := by
  have hrecorded := run.recorded
  constructor
  · rintro ⟨⟨c, hstarted⟩, hreleased⟩
    obtain ⟨phase, hat⟩ := hrecorded.at_of_started c f hstarted
    refine ⟨phase, hat, ?_⟩
    rwa [(hrecorded.trail f phase hat).inFlight_iff, mem_trail]
  · rintro ⟨phase, hat, hphase⟩
    obtain ⟨c, hstarted, -⟩ := hrecorded.started f phase hat
    refine ⟨⟨c, hstarted⟩, ?_⟩
    rwa [(hrecorded.trail f phase hat).inFlight_iff, mem_trail] at hphase

/-- A load that has given up its place has run and has stored. -/
theorem Run.stored_of_released (run : Run payload visit s t m) (h : .load f .released ∈ t) :
    (∃ r, .load f (.ran r) ∈ t) ∧ ∃ handed problem, .load f (.stored handed problem) ∈ t := by
  obtain ⟨phase, hat⟩ := run.recorded.at_of_load f _ h
  have htrail := run.recorded.trail f phase hat
  obtain ⟨r, problem, hran, hstored⟩ := htrail.stored_of_released (mem_trail.2 h)
  exact ⟨⟨r, mem_trail.1 hran⟩, _, problem, mem_trail.1 hstored⟩

/-- A load whose run has not ended holds its place. -/
theorem Run.loading_of_running (run : Run payload visit s t m) (h : Running t f) :
    Loading t f := by
  obtain ⟨hstarted, hran⟩ := h
  refine ⟨hstarted, ?_⟩
  intro hreleased
  obtain ⟨⟨r, hr⟩, -⟩ := run.stored_of_released hreleased
  exact hran r hr

end SqlAccess.Cache
