/-
**The schedule as one interleaving.**

Calls that run in time take the steps of the interleavings and no others: whenever a call goes on,
it goes on by steps of its own, and a task whose script has ended takes its load through all phases
at once.  So whatever holds after every sequence of steps holds of calls as they are performed.

Main definitions:

* `SqlAccess.Cache.CallSteps` — any number of steps of one call;
* `SqlAccess.Cache.Caller.Stands`, `SqlAccess.Cache.Caller.Mirrored` — a standing is that of a call
  as the schedule has it;
* `SqlAccess.Cache.World.Mirrored`, `SqlAccess.Cache.World.Reaches` — a moment shows a world, and
  steps lead to one that does.

Main results:

* `SqlAccess.Cache.Caller.Mirrored.poll` — a call that goes on takes its own steps;
* `SqlAccess.Cache.World.runTasks_steps` — so does a load whose task goes on;
* `SqlAccess.Cache.World.exists_steps_of_perform` — **calls that are performed take steps**, and end
  with the outcomes to which these lead;
* `SqlAccess.Cache.World.exists_run_of_perform` — from an idle site on they make up a run.
-/

import Mathlib.Data.List.Nodup
import SqlAccess.Proofs.Cache.Interleaving

set_option autoImplicit false

namespace SqlAccess.Cache

/-! ### Steps of one call -/

variable {α : Type}

/-- Any number of steps of one call, while nothing else happens. -/
inductive CallSteps (payload : Payload α) (v : Visit) :
    Site α → Standing → List (CallEvent α) → Site α → Standing → Prop where
  | refl {s standing} : CallSteps payload v s standing [] s standing
  | head {s standing e s' standing' t s'' standing''}
      (hstep : CallStep payload v s standing e s' standing')
      (hsteps : CallSteps payload v s' standing' t s'' standing'') :
      CallSteps payload v s standing (e :: t) s'' standing''

variable {payload : Payload α} {visit : Nat → Visit} {v : Visit} {s s' s'' : Site α}
  {standing standing' standing'' : Standing} {m : Moment α} {w : World α} {c : Caller}

theorem CallSteps.append {t₁ t₂ : List (CallEvent α)}
    (h₁ : CallSteps payload v s standing t₁ s' standing')
    (h₂ : CallSteps payload v s' standing' t₂ s'' standing'') :
    CallSteps payload v s standing (t₁ ++ t₂) s'' standing'' := by
  induction h₁ with
  | refl => exact h₂
  | head hstep _ ih => exact .head hstep (ih h₂)

/-- The steps of one call are steps of all together, in which the others stay where they are. -/
theorem CallSteps.steps {number : Nat} {t : List (CallEvent α)}
    (h : CallSteps payload (visit number) m.site (m.standing number) t s' standing') :
    ∃ t' m', Steps payload visit m t' m' ∧ m'.site = s' ∧ m'.standing number = standing' ∧
      ∀ i, i ≠ number → m'.standing i = m.standing i := by
  generalize hs : m.site = s at h
  generalize hstanding : m.standing number = standing at h
  induction h generalizing m with
  | refl => exact ⟨[], m, .refl, hs, hstanding, fun _ _ => rfl⟩
  | @head s standing e s₁ standing₁ t s₂ standing₂ hstep hsteps ih =>
      subst hs hstanding
      obtain ⟨t', m', hrest, hsite, hself, hother⟩ :=
        @ih (Moment.stand ⟨s₁, m.standing⟩ number standing₁) rfl (Moment.stand_self _ _ _)
      refine ⟨_, m', .head (.call hstep) hrest, hsite, hself, ?_⟩
      intro i hi
      exact (hother i hi).trans (Moment.stand_of_ne _ hi _)

/-! ### Standings of callers -/

/-- The visit that a call makes, if it goes through a cache. -/
def Call.visit? (call : Call) : Option Visit :=
  call.attachment.map fun attachment => ⟨attachment, call.kind, call.timeout⟩

theorem Call.eq_of_visit? {call : Call} (h : call.visit? = some v) :
    call.attachment = some v.attachment ∧ v.kind = call.kind ∧ v.timeout = call.timeout := by
  obtain ⟨attachment, hattachment, rfl⟩ := Option.map_eq_some_iff.1 h
  exact ⟨hattachment, rfl, rfl⟩

namespace Caller

/-- A standing is that of a cached call as the schedule has it. -/
def Stands (v : Visit) (c : Caller) (standing : Standing) : Prop :=
  match c.progress with
  | .starting _ => standing = .outside ∧ c.deadline = none
  | .playing _ _ evicts =>
    ∃ policy key, evicts = some (policy, key) ∧ v.Does .evict policy key ∧ standing = .writing
  | .waiting policy key load _ => standing = .waiting ⟨policy, key, load⟩
  | .done outcome =>
    standing = .answered outcome ∨ ∃ cause, outcome = .error cause ∧ standing = .late cause

/-- A call without a cache waits for no load and evicts nothing. -/
def Bare (c : Caller) : Prop :=
  match c.progress with
  | .waiting _ _ _ _ => False
  | .playing _ _ evicts => evicts = none
  | _ => True

/-- A moment shows a call as the schedule has it; calls without a cache are not shown. -/
inductive Mirrored (visit : Nat → Visit) (m : Moment α) (c : Caller) : Prop where
  | bare (hvisit : c.call.visit? = none) (hbare : c.Bare)
  | cached (hvisit : c.call.visit? = some (visit c.number))
      (hstands : c.Stands (visit c.number) (m.standing c.number))

theorem Mirrored.congr {m' : Moment α} (h : c.Mirrored visit m)
    (hstanding : m'.standing c.number = m.standing c.number) : c.Mirrored visit m' := by
  cases h with
  | bare hvisit hbare => exact .bare hvisit hbare
  | cached hvisit hstands =>
      rw [← hstanding] at hstands
      exact .cached hvisit hstands

/-- What stays of a call and of the world when the call goes on. -/
structure Kept (c : Caller) (w : World α) (r : Caller × World α) : Prop where
  number : r.1.number = c.number
  call : r.1.call = c.call
  payload : r.2.payload = w.payload

/-- A call comes by its own steps to what the schedule makes of it. -/
def Comes (payload : Payload α) (v : Visit) (s : Site α) (standing : Standing)
    (r : Caller × World α) : Prop :=
  ∃ t standing', CallSteps payload v s standing t r.2.site standing' ∧ r.1.Stands v standing'

theorem Comes.head {e : CallEvent α} {r : Caller × World α}
    (hstep : CallStep payload v s standing e s' standing')
    (h : Comes payload v s' standing' r) : Comes payload v s standing r := by
  obtain ⟨t, last, hsteps, hstands⟩ := h
  exact ⟨e :: t, last, .head hstep hsteps, hstands⟩

theorem Comes.here {r : Caller × World α} (hsite : r.2.site = s) (h : r.1.Stands v standing) :
    Comes payload v s standing r := by
  subst hsite
  exact ⟨[], standing, .refl, h⟩

theorem Comes.bind {r r' : Caller × World α} (h : Comes payload v s standing r)
    (h' : ∀ standing', r.1.Stands v standing' → Comes payload v r.2.site standing' r') :
    Comes payload v s standing r' := by
  obtain ⟨t, standing', hsteps, hstands⟩ := h
  obtain ⟨t', last, hsteps', hlast⟩ := h' standing' hstands
  exact ⟨t ++ t', last, hsteps.append hsteps', hlast⟩

theorem stands_finish (hkind : v.kind = c.call.kind) (outcome : Outcome Reply) :
    (c.finish outcome).Stands v (v.answer outcome) := by
  unfold Stands finish Visit.answer
  rw [hkind]
  exact .inl rfl

end Caller

/-! ### What a call does when it goes on -/

theorem World.play_kept (owner : Nat) (w : World α) (actions : List Action) :
    (w.play owner actions).1.site = w.site ∧ (w.play owner actions).1.payload = w.payload := by
  fun_induction World.play owner w actions with
  | case1 | case8 => exact ⟨rfl, rfl⟩
  | case2 | case3 | case4 | case5 | case6 | case7 => assumption

namespace Caller

variable {policy : Nat} {key : String}

section

variable (hkind : v.kind = c.call.kind) (hv : v.Does .evict policy key)

include hkind hv

theorem conclude_comes :
    Comes payload v w.site .writing (c.conclude w (some (policy, key))) := by
  refine .head (.write hv c.call.script.ending) ?_
  unfold conclude
  cases outcomeOf c.call.script.ending with
  | error e => exact .here rfl (stands_finish hkind _)
  | ok reply =>
      by_cases hfirst : (w.site.policy policy).evictsFirst = true
      · simp only [Visit.afterWrite, hfirst, if_true]
        exact .here rfl (stands_finish hkind _)
      · have hevict : CallStep payload v w.site (.written reply) _ _ _ := .evict hv
        simp only [Visit.afterWrite, hfirst]
        generalize w.site.evict policy key = result at hevict ⊢
        obtain ⟨result, site⟩ := result
        refine .head hevict ?_
        cases result with
        | error e => exact .here rfl (stands_finish hkind _)
        | ok _ => exact .here rfl (stands_finish hkind _)

theorem playOwn_comes (rest : List Action) :
    Comes payload v w.site .writing (c.playOwn w rest (some (policy, key))) := by
  have hsite := (World.play_kept c.number w rest).1
  unfold playOwn
  generalize w.play c.number rest = result at hsite ⊢
  obtain ⟨w', pause⟩ := result
  rw [← hsite]
  cases pause with
  | none => exact conclude_comes hkind hv
  | some pause => exact .here rfl ⟨policy, key, rfl, hv, rfl⟩

theorem write_comes : Comes payload v w.site .arrived (c.write w policy key) := by
  unfold write
  by_cases hfirst : (w.site.policy policy).evictsFirst = true
  · have hclear : CallStep payload v w.site .arrived _ _ _ := .clear hv hfirst
    rw [if_pos hfirst]
    generalize w.site.evict policy key = result at hclear ⊢
    obtain ⟨result, site⟩ := result
    refine .head hclear ?_
    cases result with
    | error e => exact .here rfl (stands_finish hkind _)
    | ok done =>
        cases done
        exact playOwn_comes (w := { w with site }) hkind hv _
  · rw [if_neg hfirst]
    exact .head (.begin hv (Bool.eq_false_iff.2 hfirst)) (playOwn_comes hkind hv _)

end

theorem read_comes (hkind : v.kind = c.call.kind) (hv : v.Does .read policy key) :
    Comes w.payload v w.site .arrived (c.read w policy key) := by
  have hlook : CallStep w.payload v w.site .arrived _ _ _ := .look hv
  unfold read
  generalize w.site.lookup policy key = result at hlook ⊢
  obtain ⟨found, site⟩ := result
  refine .head hlook ?_
  cases found with
  | error e => exact .here rfl (stands_finish hkind _)
  | ok found =>
      cases found with
      | some entry => exact .here rfl (stands_finish hkind _)
      | none =>
          cases hflight : site.flight? policy key with
          | some load =>
              simp only [hflight]
              exact .head (.join hv hflight) (.here rfl rfl)
          | none =>
              simp only [hflight]
              exact .head (.start hv hflight) (.here rfl rfl)

theorem begin_comes (hvisit : c.call.visit? = some v) :
    Comes w.payload v w.site .outside (c.begin w) := by
  obtain ⟨hattachment, hkind, -⟩ := Call.eq_of_visit? hvisit
  refine .head .arrive ?_
  unfold begin
  simp only [hattachment]
  cases hkey : goodKey v.attachment.key with
  | error e => exact .head (.refuse hkey) (.here rfl (stands_finish hkind _))
  | ok key =>
      cases huse : v.attachment.use with
      | read => exact read_comes hkind ⟨huse, rfl, hkey⟩
      | evict => exact write_comes hkind ⟨huse, rfl, hkey⟩

theorem look_comes {load : Nat} {wake : Option Nat} (hkind : v.kind = c.call.kind)
    (hstands : c.Stands v (.waiting ⟨policy, key, load⟩)) :
    Comes w.payload v w.site (.waiting ⟨policy, key, load⟩) (c.look w policy key load wake) := by
  unfold look
  cases houtcome : w.site.outcome? load with
  | some ending =>
      refine .head (.receive houtcome) ?_
      cases ending with
      | returned outcome => exact .here rfl (stands_finish hkind _)
      | panicked => exact .here rfl (stands_finish hkind _)
  | none =>
      cases hlimit : (w.site.policy policy).waitLimit with
      | none => exact .here rfl hstands
      | some limit =>
          cases wake with
          | none => exact .here rfl hstands
          | some wake =>
              dsimp only
              split
              · exact .head (.giveUp hlimit) (.here rfl (.inr ⟨_, rfl, rfl⟩))
              · exact .here rfl hstands

theorem advance_comes (hvisit : c.call.visit? = some v) (hstands : c.Stands v standing) :
    Comes w.payload v w.site standing (c.advance w) := by
  obtain ⟨-, hkind, -⟩ := Call.eq_of_visit? hvisit
  have hsame := hstands
  unfold Stands at hstands
  unfold advance
  cases hprogress : c.progress with
  | starting wake =>
      rw [hprogress] at hstands
      obtain ⟨rfl, -⟩ := hstands
      dsimp only
      split
      · exact begin_comes hvisit
      · exact .here rfl hsame
  | playing wake rest evicts =>
      rw [hprogress] at hstands
      obtain ⟨policy, key, rfl, hdoes, rfl⟩ := hstands
      dsimp only
      split
      · exact playOwn_comes hkind hdoes rest
      · exact .here rfl hsame
  | waiting policy key load wake =>
      rw [hprogress] at hstands
      obtain rfl := hstands
      exact look_comes hkind hsame
  | done outcome => exact .here rfl hsame

/-- Only a call that has started has a time limit. -/
theorem Stands.isOpen {deadline : Nat} (h : c.Stands v standing) (hdone : c.isDone = false)
    (hdeadline : c.deadline = some deadline) : standing.isOpen = true := by
  unfold Stands at h
  unfold isDone at hdone
  cases hprogress : c.progress with
  | starting wake =>
      rw [hprogress] at h
      rw [h.2] at hdeadline
      cases hdeadline
  | playing wake rest evicts =>
      rw [hprogress] at h
      obtain ⟨_, _, -, -, rfl⟩ := h
      rfl
  | waiting policy key load wake =>
      rw [hprogress] at h
      obtain rfl := h
      rfl
  | done outcome =>
      rw [hprogress] at hdone
      cases hdone

theorem expire_comes (htimeout : v.timeout = c.call.timeout) (hstands : c.Stands v standing) :
    Comes payload v w.site standing (c.expire w.now, w) := by
  unfold expire
  split
  · rename_i limit deadline hdone hlimit hdeadline
    split
    · refine .head (.expire (hstands.isOpen hdone hdeadline) (htimeout.trans hlimit)) ?_
      exact .here rfl (.inr ⟨_, rfl, rfl⟩)
    · exact .here rfl hstands
  · exact .here rfl hstands

/-- A cached call that goes on takes its own steps. -/
theorem poll_comes (hvisit : c.call.visit? = some v) (hstands : c.Stands v standing)
    (hkept : Kept c w (c.advance w)) : Comes w.payload v w.site standing (c.poll w) := by
  obtain ⟨-, -, htimeout⟩ := Call.eq_of_visit? hvisit
  refine (advance_comes hvisit hstands).bind ?_
  intro standing' hstands'
  rw [← hkept.call] at htimeout
  exact expire_comes htimeout hstands'

/-! ### What stays -/

theorem Kept.of_deadline {deadline : Option Nat} {r : Caller × World α}
    (h : Kept { c with deadline } w r) : Kept c w r := ⟨h.number, h.call, h.payload⟩

theorem Kept.of_site {r : Caller × World α} (h : Kept c { w with site := s } r) : Kept c w r :=
  ⟨h.number, h.call, h.payload⟩

theorem conclude_kept (c : Caller) (w : World α) (evicts : Option (Nat × String)) :
    Kept c w (c.conclude w evicts) := by
  unfold conclude
  split
  · split
    · exact ⟨rfl, rfl, rfl⟩
    · split <;> exact ⟨rfl, rfl, rfl⟩
  · exact ⟨rfl, rfl, rfl⟩

theorem playOwn_kept (c : Caller) (w : World α) (rest : List Action)
    (evicts : Option (Nat × String)) : Kept c w (c.playOwn w rest evicts) := by
  have hpayload := (World.play_kept c.number w rest).2
  unfold playOwn
  generalize w.play c.number rest = result at hpayload ⊢
  obtain ⟨w', pause⟩ := result
  cases pause with
  | none =>
      have hkept := conclude_kept c w' evicts
      exact ⟨hkept.number, hkept.call, hkept.payload.trans hpayload⟩
  | some pause => exact ⟨rfl, rfl, hpayload⟩

theorem read_kept (c : Caller) (w : World α) (policy : Nat) (key : String) :
    Kept c w (c.read w policy key) := by
  unfold read
  split
  · exact ⟨rfl, rfl, rfl⟩
  · exact ⟨rfl, rfl, rfl⟩
  · dsimp only
    split <;> exact ⟨rfl, rfl, rfl⟩

theorem write_kept (c : Caller) (w : World α) (policy : Nat) (key : String) :
    Kept c w (c.write w policy key) := by
  unfold write
  split
  · split
    · exact ⟨rfl, rfl, rfl⟩
    · exact (playOwn_kept c _ _ _).of_site
  · exact playOwn_kept c w _ _

theorem begin_kept (c : Caller) (w : World α) : Kept c w (c.begin w) := by
  unfold begin
  dsimp only
  split
  · exact (playOwn_kept _ w _ _).of_deadline
  · split
    · exact ⟨rfl, rfl, rfl⟩
    · split
      · exact (read_kept _ w _ _).of_deadline
      · exact (write_kept _ w _ _).of_deadline

theorem look_kept (c : Caller) (w : World α) (policy : Nat) (key : String) (load : Nat)
    (wake : Option Nat) : Kept c w (c.look w policy key load wake) := by
  unfold look
  split
  · exact ⟨rfl, rfl, rfl⟩
  · exact ⟨rfl, rfl, rfl⟩
  · split
    · split <;> exact ⟨rfl, rfl, rfl⟩
    · exact ⟨rfl, rfl, rfl⟩

theorem advance_kept (c : Caller) (w : World α) : Kept c w (c.advance w) := by
  unfold advance
  split
  · split
    · exact begin_kept c w
    · exact ⟨rfl, rfl, rfl⟩
  · split
    · exact playOwn_kept c w _ _
    · exact ⟨rfl, rfl, rfl⟩
  · exact look_kept c w _ _ _ _
  · exact ⟨rfl, rfl, rfl⟩

theorem poll_kept (c : Caller) (w : World α) : Kept c w (c.poll w) := by
  have hkept := advance_kept c w
  have hexpire : ∀ (c : Caller) (now : Nat),
      (c.expire now).number = c.number ∧ (c.expire now).call = c.call := by
    intro c now
    unfold expire
    split
    · split <;> exact ⟨rfl, rfl⟩
    · exact ⟨rfl, rfl⟩
  obtain ⟨hnumber, hcall⟩ := hexpire (c.advance w).1 (c.advance w).2.now
  exact ⟨hnumber.trans hkept.number, hcall.trans hkept.call, hkept.payload⟩

/-! ### Calls without a cache -/

theorem playOwn_bare (c : Caller) (w : World α) (rest : List Action) :
    (c.playOwn w rest none).1.Bare ∧ (c.playOwn w rest none).2.site = w.site := by
  have hsite := (World.play_kept c.number w rest).1
  unfold playOwn
  generalize w.play c.number rest = result at hsite ⊢
  obtain ⟨w', pause⟩ := result
  cases pause with
  | none =>
      unfold conclude
      cases outcomeOf c.call.script.ending with
      | error e => exact ⟨trivial, hsite⟩
      | ok reply => exact ⟨trivial, hsite⟩
  | some pause => exact ⟨rfl, hsite⟩

theorem advance_bare (hattachment : c.call.attachment = none) (hbare : c.Bare) :
    (c.advance w).1.Bare ∧ (c.advance w).2.site = w.site := by
  have hsame := hbare
  unfold Bare at hbare
  unfold advance
  cases hprogress : c.progress with
  | starting wake =>
      dsimp only
      split
      · unfold begin
        simp only [hattachment]
        exact playOwn_bare _ w _
      · exact ⟨hsame, rfl⟩
  | playing wake rest evicts =>
      rw [hprogress] at hbare
      obtain rfl := hbare
      dsimp only
      split
      · exact playOwn_bare c w rest
      · exact ⟨hsame, rfl⟩
  | waiting policy key load wake =>
      rw [hprogress] at hbare
      exact absurd hbare id
  | done outcome => exact ⟨hsame, rfl⟩

theorem expire_bare (hbare : c.Bare) (now : Nat) : (c.expire now).Bare := by
  unfold expire
  split
  · split
    · trivial
    · exact hbare
  · exact hbare

/-! ### Any call -/

/-- **A call that goes on takes steps of its own, and leaves all others where they are.** -/
theorem Mirrored.poll (h : c.Mirrored visit m) (hsite : m.site = w.site) :
    ∃ t m', Steps w.payload visit m t m' ∧ m'.site = (c.poll w).2.site ∧
      (c.poll w).1.Mirrored visit m' ∧ ∀ i, i ≠ c.number → m'.standing i = m.standing i := by
  obtain ⟨hnumber, hcall, -⟩ := poll_kept c w
  cases h with
  | bare hvisit hbare =>
      obtain ⟨hbare, hsame⟩ := advance_bare (w := w) (Option.map_eq_none_iff.1 hvisit) hbare
      exact ⟨[], m, .refl, hsite.trans hsame.symm, .bare (hcall ▸ hvisit) (expire_bare hbare _),
        fun _ _ => rfl⟩
  | cached hvisit hstands =>
      have hcomes := poll_comes (w := w) hvisit hstands (advance_kept c w)
      rw [← hsite] at hcomes
      obtain ⟨t, standing', hsteps, hlast⟩ := hcomes
      obtain ⟨t', m', hsteps', hsite', hself, hother⟩ := hsteps.steps
      refine ⟨t', m', hsteps', hsite', ?_, hother⟩
      rw [← hself, ← hnumber] at hlast
      rw [← hnumber, ← hcall] at hvisit
      exact .cached hvisit hlast

end Caller

/-! ### Loads -/

/-- An operation on a load is a step of it, or comes at the wrong time and changes nothing. -/
def StepOrNone (payload : Payload α) (s s' : Site α) : Prop :=
  s' = s ∨ ∃ f e, LoadStep payload s f e s'

theorem StepOrNone.steps {site : Site α} (h : StepOrNone payload m.site site) :
    ∃ t, Steps payload visit m t ⟨site, m.standing⟩ := by
  rcases h with rfl | ⟨f, e, hstep⟩
  · exact ⟨[], .refl⟩
  · exact ⟨_, .single (.load hstep)⟩

section

variable (payload) (s) (number : Nat)

theorem finish_stepOrNone (r : Ending Reply) :
    StepOrNone payload s (s.finish number (payload.endingOf r)) := by
  by_cases h : ∃ policy key, s.At ⟨policy, key, number⟩ .running
  · obtain ⟨policy, key, hat⟩ := h
    exact .inr ⟨_, _, .run hat r⟩
  · left
    unfold Site.finish
    split
    · rename_i hload
      exact absurd ⟨_, _, hload⟩ h
    · rfl

theorem store_stepOrNone : StepOrNone payload s (s.store number).2 := by
  by_cases h : ∃ policy key ending, s.At ⟨policy, key, number⟩ (.ended ending)
  · obtain ⟨policy, key, ending, hat⟩ := h
    exact .inr ⟨_, _, .store ending hat⟩
  · left
    unfold Site.store
    split
    · rename_i hload
      exact absurd ⟨_, _, _, hload⟩ h
    · rfl

theorem release_stepOrNone : StepOrNone payload s (s.release number) := by
  by_cases h : ∃ policy key ending, s.At ⟨policy, key, number⟩ (.stored ending)
  · obtain ⟨policy, key, ending, hat⟩ := h
    exact .inr ⟨_, _, .release hat⟩
  · left
    unfold Site.release
    split
    · rename_i hload
      exact absurd ⟨_, _, _, hload⟩ h
    · rfl

theorem publish_stepOrNone : StepOrNone payload s (s.publish number) := by
  by_cases h : ∃ policy key ending, s.At ⟨policy, key, number⟩ (.released ending)
  · obtain ⟨policy, key, ending, hat⟩ := h
    exact .inr ⟨_, _, .publish hat⟩
  · left
    unfold Site.publish
    split
    · rename_i hload
      exact absurd ⟨_, _, _, hload⟩ h
    · rfl

end

/-- A load that is settled takes all its steps at once. -/
theorem settle_steps (payload : Payload α) (visit : Nat → Visit) (m : Moment α) (number : Nat)
    (r : Ending Reply) : ∃ t, Steps payload visit m t
      ⟨(m.site.settle number (payload.endingOf r)).2, m.standing⟩ := by
  obtain ⟨t₁, h₁⟩ := (finish_stepOrNone payload m.site number r).steps
  obtain ⟨t₂, h₂⟩ := StepOrNone.steps (m := ⟨_, m.standing⟩) (store_stepOrNone payload _ number)
  obtain ⟨t₃, h₃⟩ := StepOrNone.steps (m := ⟨_, m.standing⟩) (release_stepOrNone payload _ number)
  obtain ⟨t₄, h₄⟩ := StepOrNone.steps (m := ⟨_, m.standing⟩) (publish_stepOrNone payload _ number)
  exact ⟨_, ((h₁.append h₂).append h₃).append h₄⟩

namespace World

theorem endingOf_eq (w : World α) (r : Ending Reply) : w.endingOf r = w.payload.endingOf r := by
  cases r <;> rfl

theorem runTask_steps (visit : Nat → Visit) (w : World α) (task : Task)
    (standing : Nat → Standing) : ∃ t, Steps w.payload visit ⟨w.site, standing⟩ t
      ⟨(w.runTask task).site, standing⟩ ∧ (w.runTask task).payload = w.payload := by
  obtain ⟨hsite, hpayload⟩ := play_kept task.owner w task.rest
  unfold runTask
  generalize w.play task.owner task.rest = result at hsite hpayload ⊢
  obtain ⟨w', pause⟩ := result
  cases pause with
  | some pause =>
      refine ⟨[], ?_, hpayload⟩
      rw [← hsite]
      exact .refl
  | none =>
      obtain ⟨t, hsteps⟩ := settle_steps w.payload visit ⟨w.site, standing⟩ task.load task.ending
      refine ⟨t, ?_⟩
      dsimp only at hsite hpayload hsteps ⊢
      rw [endingOf_eq, hsite, hpayload]
      generalize w.site.settle task.load (w.payload.endingOf task.ending) = settled at hsteps ⊢
      obtain ⟨problem, site⟩ := settled
      cases problem <;> exact ⟨hsteps, rfl⟩

theorem runTasks_steps (visit : Nat → Visit) (w : World α) (standing : Nat → Standing) :
    ∃ t, Steps w.payload visit ⟨w.site, standing⟩ t ⟨w.runTasks.site, standing⟩ ∧
      w.runTasks.payload = w.payload := by
  have hfold : ∀ (tasks : List Task) (w : World α),
      ∃ t, Steps w.payload visit ⟨w.site, standing⟩ t ⟨(tasks.foldl runTask w).site, standing⟩ ∧
        (tasks.foldl runTask w).payload = w.payload := by
    intro tasks
    induction tasks with
    | nil => exact fun w => ⟨[], .refl, rfl⟩
    | cons task tasks ih =>
        intro w
        obtain ⟨t, hsteps, hpayload⟩ := runTask_steps visit w task standing
        obtain ⟨t', hsteps', hpayload'⟩ := ih (w.runTask task)
        rw [hpayload] at hsteps'
        exact ⟨t ++ t', hsteps.append hsteps', hpayload'.trans hpayload⟩
  exact hfold w.ready { w with ready := [] }

/-- A moment shows a world and its calls, which are these under these numbers. -/
structure Mirrored (payload : Payload α) (visit : Nat → Visit) (calls : List (Nat × Call))
    (m : Moment α) (r : List Caller × World α) : Prop where
  site_eq : m.site = r.2.site
  payload_eq : r.2.payload = payload
  calls_eq : r.1.map (fun c => (c.number, c.call)) = calls
  callers : ∀ c ∈ r.1, c.Mirrored visit m

/-- Some steps lead to a moment that shows a world; calls with other numbers take no part. -/
def Reaches (payload : Payload α) (visit : Nat → Visit) (calls : List (Nat × Call)) (m : Moment α)
    (r : List Caller × World α) : Prop :=
  ∃ t m', Steps payload visit m t m' ∧ Mirrored payload visit calls m' r ∧
    ∀ i, i ∉ calls.map Prod.fst → m'.standing i = m.standing i

variable {calls : List (Nat × Call)} {callers : List Caller} {r r' : List Caller × World α}

theorem Mirrored.reaches (h : Mirrored payload visit calls m r) :
    Reaches payload visit calls m r := ⟨[], m, .refl, h, fun _ _ => rfl⟩

theorem Reaches.bind (h : Reaches payload visit calls m r)
    (h' : ∀ m', Mirrored payload visit calls m' r → Reaches payload visit calls m' r') :
    Reaches payload visit calls m r' := by
  obtain ⟨t, m₁, hsteps, hmirrored, hother⟩ := h
  obtain ⟨t', m₂, hsteps', hmirrored', hother'⟩ := h' m₁ hmirrored
  refine ⟨t ++ t', m₂, hsteps.append hsteps', hmirrored', ?_⟩
  intro i hi
  exact (hother' i hi).trans (hother i hi)

theorem pollAll_reaches (hnodup : (calls.map Prod.fst).Nodup)
    (h : Mirrored payload visit calls m (callers, w)) :
    Reaches payload visit calls m (w.pollAll callers) := by
  obtain ⟨hsite, hpayload, hcalls, hcallers⟩ := h
  subst hcalls hpayload
  induction callers generalizing w m with
  | nil => exact ⟨[], m, .refl, ⟨hsite, rfl, rfl, hcallers⟩, fun _ _ => rfl⟩
  | cons c rest ih =>
      obtain ⟨hc, hrest⟩ := List.nodup_cons.1 hnodup
      have hmem : ∀ c' ∈ rest, c'.number ≠ c.number := by
        intro c' hc' heq
        have hin : c'.number ∈ (rest.map fun c => (c.number, c.call)).map Prod.fst :=
          List.mem_map.2 ⟨_, List.mem_map_of_mem hc', rfl⟩
        rw [heq] at hin
        exact hc hin
      obtain ⟨t, m₁, hsteps, hsite₁, hfirst, hother⟩ :=
        (hcallers c List.mem_cons_self).poll hsite
      obtain ⟨hnumber, hcall, hpayload⟩ := Caller.poll_kept c w
      -- the calls that come after it have other numbers, and stand where they stood
      have hrest₁ : ∀ c' ∈ rest, c'.Mirrored visit m₁ := by
        intro c' hc'
        exact (hcallers c' (List.mem_cons_of_mem _ hc')).congr (hother _ (hmem c' hc'))
      obtain ⟨t', m₂, hsteps', ⟨hsite₂, hpayload₂, hcalls₂, hcallers₂⟩, hother₂⟩ :=
        ih hsite₁ hrest₁ hrest
      rw [hpayload] at hsteps' hpayload₂
      refine ⟨t ++ t', m₂, hsteps.append hsteps', ⟨hsite₂, hpayload₂, ?_, ?_⟩, ?_⟩
      · exact congrArg₂ List.cons (Prod.ext hnumber hcall) hcalls₂
      · intro c' hc'
        rcases List.mem_cons.1 hc' with rfl | hc'
        · exact hfirst.congr (hother₂ _ (hnumber ▸ hc))
        · exact hcallers₂ c' hc'
      · intro i hi
        obtain ⟨hne, hi⟩ := not_or.1 (fun h => hi (List.mem_cons.2 h))
        exact (hother₂ i hi).trans (hother i hne)

theorem runTasks_reaches (h : Mirrored payload visit calls m (callers, w)) :
    Reaches payload visit calls m (callers, w.runTasks) := by
  obtain ⟨hsite, hpayload, hcalls, hcallers⟩ := h
  obtain ⟨t, hsteps, hkept⟩ := runTasks_steps visit w m.standing
  subst hpayload
  rw [← show m.site = w.site from hsite] at hsteps
  refine ⟨t, _, hsteps, ⟨rfl, hkept, hcalls, ?_⟩, fun _ _ => rfl⟩
  intro c hc
  exact (hcallers c hc).congr rfl

theorem Mirrored.passTo (h : Mirrored payload visit calls m (callers, w)) (time : Nat) :
    Mirrored payload visit calls m (callers, w.passTo time) :=
  ⟨h.site_eq, h.payload_eq, h.calls_eq, h.callers⟩

theorem drive_reaches (hnodup : (calls.map Prod.fst).Nodup) (fuel : Nat)
    (h : Mirrored payload visit calls m (callers, w)) :
    Reaches payload visit calls m (drive fuel callers w) := by
  -- each round is: all calls, then the tasks, then perhaps time; only the first two take steps
  induction fuel generalizing callers w m with
  | zero => exact h.reaches
  | succ fuel ih =>
      unfold drive
      refine (pollAll_reaches hnodup h).bind ?_
      intro m₁ h₁
      generalize w.pollAll callers = polled at h₁ ⊢
      obtain ⟨callers, w⟩ := polled
      dsimp only
      split
      · exact h₁.reaches
      · refine (runTasks_reaches h₁).bind ?_
        intro m₂ h₂
        split
        · exact ih h₂
        · split
          · exact ih (h₂.passTo _)
          · exact h₂.reaches

/-- Calls under the numbers that follow those of the calls before. -/
def numbered (w : World α) (calls : List Call) : List (Nat × Call) :=
  calls.mapIdx fun i call => (w.calls + i, call)

theorem numbered_fst (w : World α) (calls : List Call) :
    (w.numbered calls).map Prod.fst = List.range' w.calls calls.length := by
  unfold numbered
  refine List.ext_getElem (by simp) ?_
  intro i h₁ h₂
  simp

theorem mem_numbered {calls : List Call} {number : Nat} {call : Call}
    (h : (number, call) ∈ w.numbered calls) :
    ∃ i, number = w.calls + i ∧ calls[i]? = some call := by
  obtain ⟨i, hi, heq⟩ := List.mem_mapIdx.1 h
  cases heq
  exact ⟨i, rfl, List.getElem?_eq_getElem hi⟩

/-- The calls as they are before they start. -/
def starting (w : World α) (calls : List Call) : List Caller :=
  calls.mapIdx fun i call => ⟨w.calls + i, call, .starting (w.after call.start), none⟩

theorem mirrored_starting {calls : List Call} (hsite : m.site = w.site)
    (hvisit : ∀ i call v, calls[i]? = some call → call.visit? = some v → visit (w.calls + i) = v)
    (houtside : ∀ i, i < calls.length → m.standing (w.calls + i) = .outside) :
    Mirrored w.payload visit (w.numbered calls) m
      (w.starting calls, { w with calls := w.calls + calls.length }) := by
  refine ⟨hsite, rfl, ?_, ?_⟩
  · unfold starting numbered
    refine List.ext_getElem (by simp) ?_
    intro i h₁ h₂
    simp
  · intro c hc
    obtain ⟨i, hi, rfl⟩ := List.mem_mapIdx.1 hc
    cases hv : calls[i].visit? with
    | none => exact .bare hv trivial
    | some v =>
        refine .cached ?_ ⟨houtside i hi, rfl⟩
        exact hv.trans (congrArg some (hvisit i _ v (List.getElem?_eq_getElem hi) hv).symm)

/-- What is told of a call in the end. -/
def report (c : Caller) : Nat × Outcome Reply :=
  match c.progress with
  | .done outcome => (c.number, outcome)
  | _ => (c.number, .error (.other "call has not ended"))

theorem perform_eq (w : World α) (calls : List Call) :
    w.perform calls =
      ((drive (w.work (w.starting calls)) (w.starting calls)
        { w with calls := w.calls + calls.length }).1.map report,
      (drive (w.work (w.starting calls)) (w.starting calls)
        { w with calls := w.calls + calls.length }).2) := rfl

/-- A call is told the outcome to which its steps have led, or that it has not ended. -/
def Told (standing : Standing) (outcome : Outcome Reply) : Prop :=
  standing = .answered outcome ∨ (∃ cause, outcome = .error cause ∧ standing = .late cause) ∨
    outcome = .error (.other "call has not ended")

theorem told_report (hmirrored : c.Mirrored visit m) (hvisit : c.call.visit?.isSome = true) :
    Told (m.standing c.number) (report c).2 := by
  cases hmirrored with
  | bare hnone hbare =>
      rw [hnone] at hvisit
      cases hvisit
  | cached hsome hstands =>
      unfold Caller.Stands at hstands
      unfold report
      cases hprogress : c.progress with
      | done outcome =>
          rw [hprogress] at hstands
          rcases hstands with h | h
          · exact .inl h
          · exact .inr (.inl h)
      | _ => exact .inr (.inr rfl)

theorem report_fst (c : Caller) : (report c).1 = c.number := by
  unfold report
  split <;> rfl

/-- **Calls that are performed take steps**, which lead to the site that is left and to the outcomes
that are told; calls with other numbers take no part in them. -/
theorem exists_steps_of_perform (w : World α) (calls : List Call) (hsite : m.site = w.site)
    (hvisit : ∀ i call v, calls[i]? = some call → call.visit? = some v → visit (w.calls + i) = v)
    (houtside : ∀ i, i < calls.length → m.standing (w.calls + i) = .outside) :
    ∃ t m', Steps w.payload visit m t m' ∧ m'.site = (w.perform calls).2.site ∧
      (∀ number outcome, (number, outcome) ∈ (w.perform calls).1 →
        ∃ i call, number = w.calls + i ∧ calls[i]? = some call ∧
          (call.visit?.isSome = true → Told (m'.standing number) outcome)) ∧
      ∀ i, i < w.calls ∨ w.calls + calls.length ≤ i → m'.standing i = m.standing i := by
  have hnodup : ((w.numbered calls).map Prod.fst).Nodup := by
    rw [numbered_fst]
    exact List.nodup_range'
  have hstart := mirrored_starting hsite hvisit houtside
  obtain ⟨t, m', hsteps, hlast, hother⟩ := drive_reaches hnodup (w.work (w.starting calls)) hstart
  rw [perform_eq]
  generalize drive _ _ _ = last at hlast ⊢
  refine ⟨t, m', hsteps, hlast.site_eq, ?_, ?_⟩
  · intro number outcome hmem
    obtain ⟨c, hc, heq⟩ := List.mem_map.1 hmem
    have hlabel : (c.number, c.call) ∈ w.numbered calls := by
      rw [← hlast.calls_eq]
      exact List.mem_map.2 ⟨c, hc, rfl⟩
    obtain ⟨i, hnumber, hcall⟩ := mem_numbered hlabel
    have hfst := report_fst c
    rw [heq] at hfst
    refine ⟨i, c.call, hfst.trans hnumber, hcall, ?_⟩
    intro hvisit
    have htold := told_report (hlast.callers c hc) hvisit
    rw [heq] at htold
    rw [show number = c.number from hfst]
    exact htold
  · intro i hi
    refine hother i ?_
    rw [numbered_fst, List.mem_range'_1]
    omega

/-- The visits that calls make, by their numbers. -/
def visitsOf (calls : List Call) (i : Nat) : Visit := (calls[i]?.bind Call.visit?).getD default

/-- **Calls that are performed on an idle site make up a run.** -/
theorem exists_run_of_perform (payload : Payload α) (hidle : s.Idle) (calls : List Call) :
    ∃ t m, Run payload (visitsOf calls) s t m ∧
      m.site = ((ofSite payload s).perform calls).2.site := by
  have hvisit : ∀ i call v, calls[i]? = some call → call.visit? = some v →
      visitsOf calls ((ofSite payload s).calls + i) = v := by
    intro i call v hcall hv
    have hi : (ofSite payload s).calls + i = i := Nat.zero_add i
    unfold visitsOf
    rw [hi, hcall, Option.bind_some, hv]
    rfl
  obtain ⟨t, m, hsteps, hsite, -⟩ := exists_steps_of_perform (m := ⟨s, fun _ => .outside⟩)
    (ofSite payload s) calls rfl hvisit fun _ _ => rfl
  exact ⟨t, m, ⟨hidle, hsteps⟩, hsite⟩

end World

end SqlAccess.Cache
