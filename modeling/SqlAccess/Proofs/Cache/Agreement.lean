/-
**Those who wait for one load agree.**

A call that has joined a load, or has started it, is told the outcome of that load or nothing.  The
load is on its own from its start: what it hands to the store and what it lets those who wait know
depends on how its run has ended, and not on who is still there to hear it or on whether the store
takes the entry.

Main definitions:

* `SqlAccess.Cache.Joined` — a call has joined a load or started it;
* `SqlAccess.Cache.Followed` — what can have become of such a call;
* `SqlAccess.Cache.Concludes` — a load comes to its end by steps of its own;
* `SqlAccess.Cache.Agrees` — **what the call and the load have to do with each other**.

Main results:

* `SqlAccess.Cache.exists_published` — a load whose run has ended publishes its outcome by its own
  steps;
* `SqlAccess.Cache.Run.followed` — a call that has joined waits, is too late, is dropped, or has
  been told the outcome of its load;
* `SqlAccess.Cache.Run.joined_agrees` — the two together.
-/

import SqlAccess.Proofs.Cache.SingleFlight

set_option autoImplicit false

namespace SqlAccess.Cache

variable {α : Type} {payload : Payload α} {visit : Nat → Visit} {v : Visit} {s s' : Site α}
  {standing standing' : Standing} {f g : Flight} {c : Nat} {t : List (Event α)} {m m' : Moment α}
  {ending : Ending (Option α)} {phase : Phase α}

/-! ### Published outcomes -/

theorem Site.At.eq_published (hat : s.At f phase) (h : s.outcome? f.load = some ending) :
    phase = .published ending := by
  unfold outcome? at h
  rw [show s.load? f.load = _ from hat] at h
  cases phase with
  | published e =>
      cases h
      rfl
  | _ => cases h

theorem Site.At.outcome?_eq (hat : s.At f (.published ending)) :
    s.outcome? f.load = some ending := by
  unfold outcome?
  rw [show s.load? f.load = _ from hat]

/-- What is published stays so. -/
theorem Step.published {e : Event α} (h : Step payload visit m e m')
    (hat : m.site.At f (.published ending)) : m'.site.At f (.published ending) := by
  rcases h.loads with ⟨hsame, -⟩ | ⟨_, g, -, -, hnew, hmoved⟩ |
    ⟨g, _, before, _, -, hg, hpasses, hmoved⟩
  · exact (hsame f _).2 hat
  · exact (hmoved.of_ne (hnew f _ hat)).2 hat
  · by_cases hload : f.load = g.load
    · obtain ⟨rfl, rfl⟩ := hg.unique hat hload
      cases hpasses
    · exact (hmoved.of_ne hload).2 hat

/-- A load whose run has ended comes to publish its outcome by steps of its own, which concern no
call and which nothing else can hold up. -/
theorem exists_published (payload : Payload α) (visit : Nat → Visit) (hat : m.site.At f phase)
    (hending : phase.ending? = some ending) :
    ∃ (t : List (Event α)) (site : Site α), (∀ e ∈ t, ∃ le, e = .load f le) ∧
      Steps payload visit m t ⟨site, m.standing⟩ ∧ site.At f (.published ending) := by
  have hpublished : ∀ m : Moment α, m.site.At f (.released ending) →
      Steps payload visit m [.load f .published] ⟨m.site.publish f.load, m.standing⟩ ∧
        (m.site.publish f.load).At f (.published ending) := by
    intro m hat
    exact ⟨.single (.load (.publish hat)), (Site.moved_publish hat).at⟩
  have hreleased : ∀ m : Moment α, m.site.At f (.stored ending) →
      ∃ site, Steps payload visit m [.load f .released, .load f .published] ⟨site, m.standing⟩ ∧
        site.At f (.published ending) := by
    intro m hat
    obtain ⟨hsteps, hlast⟩ := hpublished ⟨_, m.standing⟩ (Site.moved_release hat).at
    exact ⟨_, .head (.load (.release hat)) hsteps, hlast⟩
  cases phase with
  | running => cases hending
  | ended e =>
      cases hending
      obtain ⟨site, hsteps, hlast⟩ := hreleased ⟨_, m.standing⟩ (Site.moved_store hat).at
      refine ⟨_, site, ?_, .head (.load (.store ending hat)) hsteps, hlast⟩
      simp
  | stored e =>
      cases hending
      obtain ⟨site, hsteps, hlast⟩ := hreleased m hat
      refine ⟨_, site, ?_, hsteps, hlast⟩
      simp
  | released e =>
      cases hending
      obtain ⟨hsteps, hlast⟩ := hpublished m hat
      refine ⟨_, _, ?_, hsteps, hlast⟩
      simp
  | published e =>
      cases hending
      exact ⟨[], m.site, fun _ h => absurd h List.not_mem_nil, .refl, hat⟩

/-! ### Calls that share a load -/

/-- A call joins a load that is in flight, or starts it. -/
def CallEvent.Joins (f : Flight) (e : CallEvent α) : Prop := e = .joined f ∨ e = .started f

/-- A call has joined a load or started it. -/
def Joined (t : List (Event α)) (c : Nat) (f : Flight) : Prop :=
  ∃ e, .call c e ∈ t ∧ e.Joins f

/-- What can have become of a call that waited for a load. -/
inductive Followed (payload : Payload α) (v : Visit) (s : Site α) (f : Flight) :
    Standing → Prop where
  | waiting : Followed payload v s f (.waiting f)
  | late (cause : Error) : Followed payload v s f (.late cause)
  | dropped : Followed payload v s f .dropped
  | answered {ending : Ending (Option α)} (hat : s.At f (.published ending)) :
      Followed payload v s f (v.answer (payload.answer f.key ending))

theorem Followed.callStep {e : CallEvent α} (h : Followed payload v s f standing)
    (hat : s.At f phase) (hstep : CallStep payload v s standing e s' standing') :
    Followed payload v s' f standing' := by
  cases h with
  | waiting =>
      cases hstep with
      | receive houtcome =>
          rw [hat.eq_published houtcome] at hat
          exact .answered hat
      | giveUp hlimit => exact .late _
      | expire hopen hlimit => exact .late _
      | drop hopen => exact .dropped
  | late cause => rcases hstep.isOpen with h | h <;> cases h
  | dropped => rcases hstep.isOpen with h | h <;> cases h
  | answered hpublished => rcases hstep.isOpen with h | h <;> cases h

theorem Followed.step {e : Event α} (h : Followed payload (visit c) m.site f (m.standing c))
    (hat : m.site.At f phase) (hstep : Step payload visit m e m') :
    Followed payload (visit c) m'.site f (m'.standing c) := by
  rcases hstep.of_call c with ⟨ce, rfl, hcall⟩ | ⟨-, hsame⟩
  · exact h.callStep hat hcall
  · rw [hsame]
    generalize m.standing c = standing at h
    cases h with
    | waiting => exact .waiting
    | late cause => exact .late cause
    | dropped => exact .dropped
    | answered hpublished => exact .answered (hstep.published hpublished)

/-- A call that joins a load waits for it, and the load is there and in flight. -/
theorem CallStep.joined {e : CallEvent α} (h : CallStep payload v s standing e s' standing')
    (htidy : s.Tidy) (he : e.Joins f) :
    v.Does .read f.policy f.key ∧ standing' = .waiting f ∧
      ∃ phase, s'.At f phase ∧ phase.inFlight = true := by
  cases h with
  | join hv hflight =>
      rcases he with he | he
      · cases he
        exact ⟨hv, rfl, (htidy.mem_iff _).1 (htidy.flight?_eq_some_iff.1 hflight)⟩
      · cases he
  | start hv hflight =>
      rcases he with he | he
      · cases he
      · cases he
        exact ⟨hv, rfl, _, (Site.moved_register s _ _).at, rfl⟩
  | _ => rcases he with he | he <;> cases he

/-- **A call that has joined a load waits for it, is too late, is dropped, or has been told its
outcome.** -/
theorem Run.followed (run : Run payload visit s t m) (h : Joined t c f) :
    (visit c).Does .read f.policy f.key ∧ (∃ phase, m.site.At f phase) ∧
      Followed payload (visit c) m.site f (m.standing c) := by
  obtain ⟨ce, hmem, hce⟩ := h
  obtain ⟨hidle, hsteps⟩ := run
  induction hsteps with
  | refl => cases hmem
  | @tail t m e m' hsteps hstep ih =>
      rcases List.mem_append.1 hmem with hmem | hmem
      · obtain ⟨hv, ⟨phase, hat⟩, hfollowed⟩ := ih hmem
        exact ⟨hv, hstep.exists_at hat, hfollowed.step hat hstep⟩
      · obtain rfl := List.mem_singleton.1 hmem
        obtain ⟨hv, hwaiting, phase, hat, -⟩ := hstep.callStep.joined (Run.tidy ⟨hidle, hsteps⟩) hce
        rw [hwaiting]
        exact ⟨hv, ⟨phase, hat⟩, .waiting⟩

/-! ### Agreement -/

/-- A call that asks for the kind in which stored values travel is told the outcome as it is. -/
theorem Payload.answer_expect (h : ∀ value, (payload.toReply value).kind = v.kind) (key : String)
    (ending : Ending (Option α)) :
    v.answer (payload.answer key ending) = .answered (payload.answer key ending) := by
  unfold Visit.answer
  cases ending with
  | panicked => rfl
  | returned outcome =>
      cases outcome with
      | error e => rfl
      | ok value =>
          have hexpect :
              Reply.expect v.kind (payload.toReply value) = .ok (payload.toReply value) :=
            if_pos (h value)
          exact congrArg Standing.answered hexpect

/-- A load comes to its end from a moment of a run on, by steps of its own. -/
structure Concludes (payload : Payload α) (visit : Nat → Visit) (s : Site α) (t : List (Event α))
    (m : Moment α) (c : Nat) (f : Flight) (r : Ending Reply) (t' : List (Event α))
    (m' : Moment α) : Prop where
  own : ∀ e ∈ t', ∃ le, e = .load f le
  steps : Steps payload visit m t' m'
  standing : m'.standing = m.standing
  ran : .load f (.ran r) ∈ t ++ t'
  /-- The load has handed over what the policy keeps of its value, and the store may have failed. -/
  stored : ∃ problem,
    .load f (.stored ((s.policy f.policy).handed (payload.endingOf r)) problem) ∈ t ++ t'
  /-- A call that still waits for it can be told the outcome. -/
  received : m.standing c = .waiting f → ∃ m'', Step payload visit m' (.call c (.received f)) m'' ∧
    m''.standing c = (visit c).answer (payload.answer f.key (payload.endingOf r))

theorem Run.concludes_of_ran {r : Ending Reply} (run : Run payload visit s t m)
    (hran : .load f (.ran r) ∈ t) (c : Nat) :
    ∃ t' m', Concludes payload visit s t m c f r t' m' := by
  obtain ⟨phase, hat⟩ := run.recorded.at_of_load f _ hran
  have hending := (run.recorded.trail f phase hat).ending_of_ran (mem_trail.2 hran)
  obtain ⟨t', site, hown, hsteps, hpublished⟩ := exists_published payload visit hat hending
  -- the run that goes on has left the events of all phases behind
  have hlast : Run payload visit s (t ++ t') ⟨site, m.standing⟩ :=
    ⟨run.idle, run.steps.append hsteps⟩
  have htrail := hlast.recorded.trail f _ hpublished
  have hran' : .load f (.ran r) ∈ t ++ t' := List.mem_append_left _ hran
  refine ⟨t', _, hown, hsteps, rfl, hran', ?_, ?_⟩
  · have hreleased : ¬ Phase.inFlight (.published (payload.endingOf r)) = true := nofun
    rw [htrail.inFlight_iff, not_not] at hreleased
    obtain ⟨r', problem, hr', hstored⟩ := htrail.stored_of_released hreleased
    obtain rfl := htrail.ran_unique hr' (mem_trail.2 hran')
    exact ⟨problem, mem_trail.1 hstored⟩
  · intro hwaiting
    have hreceive : CallStep payload (visit c) site (m.standing c) (.received f) site
        ((visit c).answer (payload.answer f.key (payload.endingOf r))) := by
      rw [hwaiting]
      exact .receive hpublished.outcome?_eq
    exact ⟨_, .call hreceive, Moment.stand_self _ _ _⟩

/-- A load whose run has not ended comes to its end whichever way its run ends. -/
theorem Run.concludes_of_running (run : Run payload visit s t m) (hat : m.site.At f .running)
    (c : Nat) (r : Ending Reply) : ∃ t' m', Concludes payload visit s t m c f r t' m' := by
  have hstep : Step payload visit m (.load f (.ran r)) ⟨_, m.standing⟩ := .load (.run hat r)
  have hnext : Run payload visit s (t ++ [.load f (.ran r)]) ⟨_, m.standing⟩ :=
    ⟨run.idle, run.steps.tail hstep⟩
  obtain ⟨t', m', h⟩ := hnext.concludes_of_ran (List.mem_append_right _ List.mem_cons_self) c
  have heq : t ++ [.load f (.ran r)] ++ t' = t ++ .load f (.ran r) :: t' :=
    List.append_assoc _ _ _
  refine ⟨.load f (.ran r) :: t', m', ?_, .head hstep h.steps, h.standing, ?_, ?_, h.received⟩
  · intro e he
    rcases List.mem_cons.1 he with rfl | he
    · exact ⟨_, rfl⟩
    · exact h.own e he
  · exact heq ▸ h.ran
  · exact heq ▸ h.stored

/-- What a call that has joined a load and the load itself have to do with each other at a moment
of a run. -/
structure Agrees (payload : Payload α) (visit : Nat → Visit) (s : Site α) (t : List (Event α))
    (m : Moment α) (c : Nat) (f : Flight) : Prop where
  /-- The call reads the key of the load. -/
  reads : (visit c).Does .read f.policy f.key
  /-- It waits for no other load, and if it has been answered, the answer is the outcome of that
  load: what its run has returned, or that it was abandoned. -/
  standing : m.standing c = .waiting f ∨ (∃ cause, m.standing c = .late cause) ∨
    m.standing c = .dropped ∨ ∃ r, .load f (.ran r) ∈ t ∧
      m.standing c = (visit c).answer (payload.answer f.key (payload.endingOf r))
  /-- The outcome is told as it is to a call that asks for the kind of what is stored. -/
  exact : (∀ value, (payload.toReply value).kind = (visit c).kind) → ∀ ending,
    (visit c).answer (payload.answer f.key ending) = .answered (payload.answer f.key ending)
  /-- The run of the load ends once. -/
  once : ∀ r r', .load f (.ran r) ∈ t → .load f (.ran r') ∈ t → r = r'
  /-- What the store is handed is decided by the ending of the run and the policy. -/
  handed : ∀ entry problem, .load f (.stored entry problem) ∈ t →
    ∃ r, .load f (.ran r) ∈ t ∧ entry = (s.policy f.policy).handed (payload.endingOf r)
  /-- However the run ends or has ended, whoever has stopped waiting and whatever the store does,
  the load comes by its own steps to hand over its entry and to publish its outcome, and the call
  can be told it if it still waits. -/
  told : ∀ r, (∀ r', .load f (.ran r') ∈ t → r' = r) →
    ∃ t' m', Concludes payload visit s t m c f r t' m'

/-- **Every call that joins a load, the one that has started it included, is told the outcome of
that load, unless it is too late or is dropped; and that outcome and the entry handed to the store
depend on how the run of the load has ended, and on nothing else that happens.** -/
theorem Run.joined_agrees (run : Run payload visit s t m) (hjoined : Joined t c f) :
    Agrees payload visit s t m c f := by
  obtain ⟨hv, ⟨phase, hat⟩, hfollowed⟩ := run.followed hjoined
  have htrail := run.recorded.trail f phase hat
  refine ⟨hv, ?_, fun hkind => Payload.answer_expect hkind f.key, ?_, ?_, ?_⟩
  · generalize m.standing c = standing at hfollowed
    cases hfollowed with
    | waiting => exact .inl rfl
    | late cause => exact .inr (.inl ⟨cause, rfl⟩)
    | dropped => exact .inr (.inr (.inl rfl))
    | answered hpublished =>
        have htrail := run.recorded.trail f _ hpublished
        obtain ⟨r, hran, rfl⟩ := htrail.ran_of_ending rfl
        exact .inr (.inr (.inr ⟨r, mem_trail.1 hran, rfl⟩))
  · intro r r' hr hr'
    exact htrail.ran_unique (mem_trail.2 hr) (mem_trail.2 hr')
  · intro entry problem hstored
    obtain ⟨r, hran, hentry⟩ := htrail.handed_of_stored (mem_trail.2 hstored)
    exact ⟨r, mem_trail.1 hran, hentry⟩
  · intro r hr
    cases hending : phase.ending? with
    | none =>
        cases phase with
        | running => exact run.concludes_of_running hat c r
        | _ => cases hending
    | some ending =>
        obtain ⟨r', hran, -⟩ := htrail.ran_of_ending hending
        obtain rfl := hr r' (mem_trail.1 hran)
        exact run.concludes_of_ran (mem_trail.1 hran) c

/-- Two reads share a load; the one that has started it gives up, the store fails, and another load
has been started before the first one publishes its outcome. -/
def overtakenLoad : List (Event Value) := [
  .call 0 .arrived, .call 0 (.looked (.ok none)), .call 0 (.started ⟨0, "k", 0⟩),
  .call 1 .arrived, .call 1 (.looked (.ok none)), .call 1 (.joined ⟨0, "k", 0⟩),
  .call 0 .gaveUp, .faults ⟨false, true, false⟩,
  .load ⟨0, "k", 0⟩ (.ran (.returned (.ok (.optionalValue (some (.text "v")))))),
  .load ⟨0, "k", 0⟩ (.stored (some (.present (.text "v"))) (some (.other "set failed"))),
  .load ⟨0, "k", 0⟩ .released,
  .call 2 .arrived, .call 2 (.looked (.ok none)), .call 2 (.started ⟨0, "k", 1⟩),
  .load ⟨0, "k", 0⟩ .published, .call 1 (.received ⟨0, "k", 0⟩)]

theorem exists_run_overtakenLoad : ∃ m,
    Run .value (fun _ => reader) smallSite overtakenLoad m ∧
    m.standing 1 = .answered (.ok (.optionalValue (some (.text "v")))) := by
  refine ⟨?m, ⟨⟨rfl, rfl⟩, ?steps⟩, ?answer⟩
  case steps =>
    refine .head (.call .arrive) ?_
    refine .head (.call (.look reader_does)) ?_
    refine .head (.call (.start reader_does rfl)) ?_
    refine .head (.call .arrive) ?_
    refine .head (.call (.look reader_does)) ?_
    refine .head (.call (.join reader_does rfl)) ?_
    refine .head (.call (.giveUp (by rfl))) ?_
    refine .head (.fault ⟨false, true, false⟩) ?_
    refine .head (.load (.run (by rfl) (.returned (.ok (.optionalValue (some (.text "v"))))))) ?_
    refine .head (.load (.store (.returned (.ok (some (Value.text "v")))) (by rfl))) ?_
    refine .head (.load (.release (by rfl))) ?_
    refine .head (.call .arrive) ?_
    refine .head (.call (.look reader_does)) ?_
    refine .head (.call (.start reader_does (by rfl))) ?_
    refine .head (.load (.publish (by rfl))) ?_
    refine .head (.call (.receive (by rfl))) ?_
    exact .refl
  case answer => rfl

/-- The other read is nevertheless told what the first load has returned. -/
theorem agrees_of_overtaken : ∃ m, Run .value (fun _ => reader) smallSite overtakenLoad m ∧
    Agrees .value (fun _ => reader) smallSite overtakenLoad m 1 ⟨0, "k", 0⟩ ∧
    m.standing 1 = .answered (.ok (.optionalValue (some (.text "v")))) := by
  obtain ⟨m, run, hanswer⟩ := exists_run_overtakenLoad
  have hjoined : Joined overtakenLoad 1 ⟨0, "k", 0⟩ :=
    ⟨.joined _, by simp [overtakenLoad], .inl rfl⟩
  exact ⟨m, run, run.joined_agrees hjoined, hanswer⟩

end SqlAccess.Cache
