/-
**What reads return after an eviction.**

A write that evicts its key when its statement has succeeded takes away what the store holds then.
It does not reach a load under way: the load may have run before the statement did, and may store
its value, or be joined, after the eviction.  So a read that starts when the write has returned may
still bring an old value, but only from a load that was in flight when the key was evicted.

Main definitions:

* `SqlAccess.Cache.Found`, `SqlAccess.Cache.Served` — the load that has produced what a read
  returns.

Main results:

* `SqlAccess.Cache.Run.not_released_of_joins` — whoever joins a load finds it in flight;
* `SqlAccess.Cache.stale_value_outlives_eviction` — **an old value is returned after an eviction**;
* `SqlAccess.Cache.Run.served_after_eviction` — it comes from a load that was in flight then.
-/

import SqlAccess.Proofs.Cache.Agreement
import SqlAccess.Proofs.Cache.Origin

set_option autoImplicit false

namespace SqlAccess.Cache

variable {α : Type} {payload : Payload α} {visit : Nat → Visit} {v : Visit} {s s' : Site α}
  {standing standing' : Standing} {f : Flight} {c w : Nat} {t before after p q : List (Event α)}
  {m m' : Moment α}

/-! ### What comes first -/

/-- Of two places in a list, the one that has something before it that the other has not comes
later. -/
theorem exists_between {β : Type} {p q before after : List β} {x y a : β}
    (h : p ++ x :: q = before ++ y :: after) (hp : a ∈ p) (hbefore : a ∉ before) :
    ∃ between, p = before ++ y :: between ∧ after = between ++ x :: q := by
  rcases List.append_eq_append_iff.1 h with ⟨rest, rfl, -⟩ | ⟨rest, rfl, hrest⟩
  · exact absurd (List.mem_append_left _ hp) hbefore
  · cases rest with
    | nil =>
        rw [List.append_nil] at hp
        exact absurd hp hbefore
    | cons z rest =>
        obtain ⟨rfl, rfl⟩ := List.cons.inj hrest
        exact ⟨rest, rfl, rfl⟩

/-- There is one last place of a kind in a list. -/
theorem eq_of_last {β : Type} {P : β → Prop} {b b' a a' : List β} {x y : β}
    (h : b ++ x :: a = b' ++ y :: a') (hx : P x) (hy : P y) (ha : ∀ e ∈ a, ¬ P e)
    (ha' : ∀ e ∈ a', ¬ P e) : b = b' ∧ x = y := by
  rcases List.append_eq_append_iff.1 h with ⟨rest, rfl, hrest⟩ | ⟨rest, rfl, hrest⟩
  · cases rest with
    | nil => exact ⟨(List.append_nil _).symm, (List.cons.inj hrest).1⟩
    | cons z rest =>
        obtain ⟨rfl, rfl⟩ := List.cons.inj hrest
        exact absurd hy (ha _ (List.mem_append_right _ List.mem_cons_self))
  · cases rest with
    | nil => exact ⟨List.append_nil _, (List.cons.inj hrest).1.symm⟩
    | cons z rest =>
        obtain ⟨rfl, rfl⟩ := List.cons.inj hrest
        exact absurd hx (ha' _ (List.mem_append_right _ List.mem_cons_self))

theorem CallStep.eq_arrived {e : CallEvent α} (h : CallStep payload v s .outside e s' standing') :
    e = .arrived := by
  cases h with
  | arrive => rfl
  | expire hopen hlimit => cases hopen
  | drop hopen => cases hopen

theorem Run.arrived_of_standing (run : Run payload visit s t m) (h : m.standing c ≠ .outside) :
    .call c .arrived ∈ t := by
  obtain ⟨hidle, hsteps⟩ := run
  induction hsteps with
  | refl => exact absurd rfl h
  | @tail t m e m' hsteps hstep ih =>
      -- the first step that a call takes is to arrive
      by_cases hbefore : m.standing c = .outside
      · rcases hstep.of_call c with ⟨ce, rfl, hcall⟩ | ⟨-, hsame⟩
        · rw [hbefore] at hcall
          rw [hcall.eq_arrived]
          exact List.mem_append_right _ List.mem_cons_self
        · exact absurd (hsame.trans hbefore) h
      · exact List.mem_append_left _ (ih hbefore)

/-- A call has started before it does anything else. -/
theorem Run.arrived_before {ce : CallEvent α} (run : Run payload visit s (p ++ .call c ce :: q) m)
    (hce : ce ≠ .arrived) : .call c .arrived ∈ p := by
  obtain ⟨m₁, m₂, run₁, hstep, -⟩ := run.exists_of_cons
  refine run₁.arrived_of_standing ?_
  intro houtside
  have hcall := hstep.callStep
  rw [houtside] at hcall
  exact hce hcall.eq_arrived

/-- A call has come to its standing by the last step of its own. -/
theorem Run.exists_last (run : Run payload visit s t m) (h : m.standing c ≠ .outside) :
    ∃ p ce q m₁ s₂, t = p ++ .call c ce :: q ∧ Run payload visit s p m₁ ∧
      CallStep payload (visit c) m₁.site (m₁.standing c) ce s₂ (m.standing c) := by
  obtain ⟨hidle, hsteps⟩ := run
  induction hsteps with
  | refl => exact absurd rfl h
  | @tail t m e m' hsteps hstep ih =>
      rcases hstep.of_call c with ⟨ce, rfl, hcall⟩ | ⟨-, hsame⟩
      · exact ⟨t, ce, [], m, m'.site, rfl, ⟨hidle, hsteps⟩, hcall⟩
      · rw [hsame] at h
        obtain ⟨p, ce, q, m₁, s₂, rfl, run₁, hcall⟩ := ih h
        rw [hsame]
        exact ⟨p, ce, q ++ [e], m₁, s₂, by simp, run₁, hcall⟩

/-! ### Loads that are waited for -/

theorem Visit.afterLook_ne_waiting (found : Outcome (Option (Entry α))) :
    v.afterLook payload found ≠ .waiting f := by
  cases found with
  | error e => exact nofun
  | ok found => cases found <;> exact nofun

theorem Visit.afterClear_ne_waiting (result : Outcome Unit) : v.afterClear result ≠ .waiting f := by
  cases result <;> exact nofun

theorem Visit.afterWrite_ne_waiting (evictsFirst : Bool) (outcome : Outcome Reply) :
    v.afterWrite evictsFirst outcome ≠ .waiting f := by
  cases outcome with
  | error e => exact nofun
  | ok reply => cases evictsFirst <;> exact nofun

theorem Visit.afterEvict_ne_waiting (reply : Reply) (result : Outcome Unit) :
    v.afterEvict reply result ≠ .waiting f := by
  cases result <;> exact nofun

theorem CallStep.of_waiting {e : CallEvent α}
    (h : CallStep payload v s standing e s' (.waiting f)) : e.Joins f := by
  generalize hstanding : Standing.waiting f = standing' at h
  cases h with
  | join hv hflight =>
      cases hstanding
      exact .inl rfl
  | start hv hflight =>
      cases hstanding
      exact .inr rfl
  | look hv => exact absurd hstanding.symm (Visit.afterLook_ne_waiting _)
  | clear hv hfirst => exact absurd hstanding.symm (Visit.afterClear_ne_waiting _)
  | write hv ending => exact absurd hstanding.symm (Visit.afterWrite_ne_waiting _ _)
  | evict hv => exact absurd hstanding.symm (Visit.afterEvict_ne_waiting _ _)
  | _ => cases hstanding

theorem CallStep.eq_waiting (h : CallStep payload v s standing (.received f) s' standing') :
    standing = .waiting f := by
  cases h with
  | receive houtcome => rfl

/-- Whoever joins a load finds it in flight. -/
theorem Run.not_released_of_joins {ce : CallEvent α} (hce : ce.Joins f)
    (run : Run payload visit s (p ++ .call c ce :: q) m) : .load f .released ∉ p := by
  obtain ⟨m₁, m₂, run₁, hstep, run₂, -⟩ := run.exists_of_cons
  obtain ⟨-, -, phase, hat, hphase⟩ := hstep.callStep.joined run₁.tidy hce
  obtain ⟨-, hreleased⟩ := run₂.loading_iff.2 ⟨phase, hat, hphase⟩
  intro hmem
  exact hreleased (List.mem_append_left _ hmem)

/-- A call waits for no load that it has not joined. -/
theorem Run.joined_of_waiting (run : Run payload visit s t m) (h : m.standing c = .waiting f) :
    Joined t c f := by
  obtain ⟨p, ce, q, m₁, s₂, rfl, -, hlast⟩ := run.exists_last (by rw [h]; exact nofun)
  rw [h] at hlast
  exact ⟨ce, List.mem_append_right _ List.mem_cons_self, hlast.of_waiting⟩

/-- A call that is told the outcome of a load has joined it after it had started itself. -/
theorem Run.not_released_of_received (run : Run payload visit s t m)
    (hreceived : .call c (.received f) ∈ t) {y : Event α} (ht : t = before ++ y :: after)
    (hlate : .call c .arrived ∉ before) : .load f .released ∉ before := by
  obtain ⟨p, q, rfl⟩ := List.append_of_mem hreceived
  obtain ⟨m₁, m₂, run₁, hstep, -⟩ := run.exists_of_cons
  obtain ⟨ce, hmem, hjoins⟩ := run₁.joined_of_waiting hstep.callStep.eq_waiting
  obtain ⟨p₁, p₂, rfl⟩ := List.append_of_mem hmem
  rw [List.append_assoc, List.cons_append] at run ht
  have harrived : .call c .arrived ∈ p₁ := by
    refine run.arrived_before ?_
    rcases hjoins with rfl | rfl <;> exact nofun
  obtain ⟨between, rfl, -⟩ := exists_between ht harrived hlate
  intro hreleased
  exact run.not_released_of_joins hjoins (List.mem_append_left _ hreleased)

/-! ### Answers of reads -/

theorem Visit.eq_ok_of_answer {outcome : Outcome Reply} {reply : Reply}
    (h : v.answer outcome = .answered (.ok reply)) : outcome = .ok reply := by
  injection h with h
  cases outcome with
  | error e => cases h
  | ok reply' =>
      change (if reply'.kind = v.kind then Except.ok reply' else _) = _ at h
      split at h
      · exact h
      · cases h

theorem Visit.eq_hit_of_afterLook {found : Outcome (Option (Entry α))} {reply : Reply}
    (h : v.afterLook payload found = .answered (.ok reply)) :
    ∃ entry, found = .ok (some entry) ∧ reply = payload.toReply entry.toOption := by
  cases found with
  | error e => cases Visit.eq_ok_of_answer h
  | ok found =>
      cases found with
      | none => cases h
      | some entry =>
          cases Visit.eq_ok_of_answer h
          exact ⟨entry, rfl, rfl⟩

theorem Payload.eq_of_answer {ending : Ending (Option α)} {key : String} {reply : Reply}
    (h : payload.answer key ending = .ok reply) :
    ∃ value, ending = .returned (.ok value) ∧ reply = payload.toReply value := by
  cases ending with
  | panicked => cases h
  | returned outcome =>
      cases outcome with
      | error e => cases h
      | ok value =>
          cases h
          exact ⟨value, rfl, rfl⟩

/-- A read is answered with what it has found, or with what it has been told. -/
theorem CallStep.of_answered {e : CallEvent α} {policy : Nat} {key : String} {reply : Reply}
    (hv : v.Does .read policy key)
    (h : CallStep payload v s standing e s' (.answered (.ok reply))) :
    (∃ entry, e = .looked (.ok (some entry)) ∧ reply = payload.toReply entry.toOption) ∨
      ∃ f value, e = .received f ∧ standing = .waiting f ∧
        s.outcome? f.load = some (.returned (.ok value)) ∧ reply = payload.toReply value := by
  generalize hstanding : Standing.answered (.ok reply) = standing' at h
  cases h with
  | look hv =>
      obtain ⟨entry, hfound, hreply⟩ := Visit.eq_hit_of_afterLook hstanding.symm
      rw [hfound]
      exact .inl ⟨entry, rfl, hreply⟩
  | receive houtcome =>
      obtain ⟨value, rfl, hreply⟩ := Payload.eq_of_answer (Visit.eq_ok_of_answer hstanding.symm)
      exact .inr ⟨_, value, rfl, rfl, houtcome, hreply⟩
  | refuse hkey => cases Visit.eq_ok_of_answer hstanding.symm
  | clear hwrite hfirst => cases (hv.unique hwrite).1
  | write hwrite ending => cases (hv.unique hwrite).1
  | evict hwrite => cases (hv.unique hwrite).1
  | _ => cases hstanding

/-! ### The load behind what a read returns -/

/-- A read has found the entry of a load: the load was the last to put one under the key. -/
def Found (s : Site α) (t : List (Event α)) (store : Nat) (key : String) (c : Nat) (f : Flight)
    (entry : Entry α) : Prop :=
  ∃ before between after,
    t = before ++ .load f (.stored (some entry) none) ::
      (between ++ .call c (.looked (.ok (some entry))) :: after) ∧
    (s.policy f.policy).store = store ∧ f.key = key ∧ ∀ e ∈ between, ¬ e.Stores s store key

/-- A load has produced what a read returns: the read was told its outcome, or has found its
entry. -/
def Served (s : Site α) (t : List (Event α)) (store : Nat) (key : String) (c : Nat) (f : Flight) :
    Prop :=
  .call c (.received f) ∈ t ∨ ∃ entry, Found s t store key c f entry

/-- An eviction that has succeeded leaves nothing under its key. -/
theorem CallStep.not_holds_evicted {policy : Nat} {key : String} {entry : Entry α}
    (h : CallStep payload v s standing (.evicted (.ok ())) s' standing')
    (hw : v.Does .evict policy key) : ¬ s'.Holds (s.policy policy).store key entry := by
  generalize hresult : Except.ok () = result at h
  cases h with
  | evict hw' =>
      obtain ⟨-, rfl, rfl⟩ := hw.unique hw'
      exact Site.not_holds_evict hresult.symm

/-- A load stores once. -/
theorem Run.stored_once {entry entry' : Option (Entry α)} {problem problem' : Option Error}
    (run : Run payload visit s (p ++ .load f (.stored entry problem) :: q) m) :
    .load f (.stored entry' problem') ∉ p := by
  intro hmem
  obtain ⟨m₁, m₂, run₁, hstep, -⟩ := run.exists_of_cons
  cases hstep with
  | load h =>
      cases h with
      | store ending hat =>
          have htrail := run₁.recorded.trail f _ hat
          rw [← mem_trail] at hmem
          generalize trail f p = es at htrail hmem
          cases htrail
          simp at hmem

variable {pw pc : Nat} {key : String}

/-- What is found after an eviction has been put there after it. -/
theorem Run.exists_between_of_hit {between : List (Event α)} {entry : Entry α}
    (run : Run payload visit s
      (before ++ .call w (.evicted (.ok ())) ::
        (between ++ .call c (.looked (.ok (some entry))) :: q)) m)
    (hw : (visit w).Does .evict pw key) (hc : (visit c).Does .read pc key)
    (hstore : (s.policy pc).store = (s.policy pw).store) :
    ∃ b f a, between = b ++ .load f (.stored (some entry) none) :: a ∧
      (s.policy f.policy).store = (s.policy pc).store ∧ f.key = key ∧
      ∀ e ∈ a, ¬ e.Stores s (s.policy pc).store key := by
  obtain ⟨m₁, m₂, run₁, hevict, run₂, hrest⟩ := run.exists_of_cons
  obtain ⟨m₃, hbetween, hlook⟩ := hrest.exists_of_append
  obtain ⟨m₄, hlook, -⟩ := hlook.exists_of_cons
  obtain ⟨policy, key', hc', hholds, -⟩ := hlook.callStep.hit
  obtain ⟨-, rfl, rfl⟩ := hc.unique hc'
  rw [Run.policy ⟨run.idle, run₂.steps.append hbetween⟩] at hholds
  have hempty : ¬ m₂.site.Holds (m₁.site.policy pw).store key entry :=
    hevict.callStep.not_holds_evicted hw
  rw [run₁.policy, ← hstore] at hempty
  rcases hbetween.holds run₂.steps.policies hholds with ⟨hold, -⟩ | h
  · exact absurd hold hempty
  · exact h

/-- What a read that starts after an eviction finds has been put there after it. -/
theorem Run.not_stored_of_found {entry : Entry α} (run : Run payload visit s t m)
    (hfound : Found s t (s.policy pc).store key c f entry) (hw : (visit w).Does .evict pw key)
    (hc : (visit c).Does .read pc key) (hstore : (s.policy pc).store = (s.policy pw).store)
    (ht : t = before ++ .call w (.evicted (.ok ())) :: after) (hlate : .call c .arrived ∉ before)
    (handed : Option (Entry α)) (problem : Option Error) :
    .load f (.stored handed problem) ∉ before := by
  obtain ⟨b, a, q, rfl, hfstore, hfkey, hnone⟩ := hfound
  have honce : .load f (.stored handed problem) ∉ b := run.stored_once
  have hsplit : b ++ .load f (.stored (some entry) none) ::
      (a ++ .call c (.looked (.ok (some entry))) :: q) =
      (b ++ .load f (.stored (some entry) none) :: a) ++
        .call c (.looked (.ok (some entry))) :: q := by simp
  rw [hsplit] at run ht
  have harrived := run.arrived_before nofun
  obtain ⟨between, hbetween, rfl⟩ := exists_between ht harrived hlate
  rw [ht] at run
  obtain ⟨b', f', a', rfl, hplace, hkey, hnone'⟩ := run.exists_between_of_hit hw hc hstore
  -- the last entry put there is that of the load
  rw [← List.cons_append, ← List.append_assoc] at hbetween
  obtain ⟨rfl, -⟩ := eq_of_last (P := fun e => e.Stores s (s.policy pc).store key) hbetween
    ⟨hfstore, hfkey⟩ ⟨hplace, hkey⟩ hnone hnone'
  intro hmem
  exact honce (List.mem_append_left _ hmem)

/-- A read that starts after an eviction and finds an entry has found that of some load. -/
theorem Run.exists_found {entry : Entry α}
    (run : Run payload visit s (p ++ .call c (.looked (.ok (some entry))) :: q) m)
    (hw : (visit w).Does .evict pw key) (hc : (visit c).Does .read pc key)
    (hstore : (s.policy pc).store = (s.policy pw).store)
    (ht : p ++ .call c (.looked (.ok (some entry))) :: q =
      before ++ .call w (.evicted (.ok ())) :: after)
    (hlate : .call c .arrived ∉ before) :
    ∃ f, Found s (p ++ .call c (.looked (.ok (some entry))) :: q) (s.policy pc).store key c f entry
      ∧ Returned payload (p ++ .call c (.looked (.ok (some entry))) :: q) f entry.toOption := by
  obtain ⟨between, rfl, rfl⟩ := exists_between ht (run.arrived_before nofun) hlate
  have run' := run
  rw [ht] at run'
  obtain ⟨b, f, a, rfl, hplace, hkey, hnone⟩ := run'.exists_between_of_hit hw hc hstore
  have hstored : .load f (.stored (some entry) none) ∈
      (before ++ .call w (.evicted (.ok ())) :: (b ++ .load f (.stored (some entry) none) :: a)) ++
        .call c (.looked (.ok (some entry))) :: q := by simp
  refine ⟨f, ⟨before ++ .call w (.evicted (.ok ())) :: b, a, q, ?_, hplace, hkey, hnone⟩,
    (run.returned_of_stored hstored).1⟩
  simp

/-- What a call is told has been returned by the load for which it waited. -/
theorem Run.returned_of_outcome {value : Option α} (run : Run payload visit s t m)
    (hwaiting : m.standing c = .waiting f)
    (houtcome : m.site.outcome? f.load = some (.returned (.ok value))) :
    Returned payload t f value := by
  obtain ⟨-, ⟨phase, hat⟩, -⟩ := run.followed (run.joined_of_waiting hwaiting)
  have hphase := hat.eq_published houtcome
  subst hphase
  exact run.returned_of_ending hat rfl

/-! ### An eviction that comes too early -/

/-- Two reads of one key, and a write that evicts it. -/
def readWriteRead : Nat → Visit
  | 1 => ⟨⟨.evict, 0, .ok "k"⟩, .affected, none⟩
  | _ => reader

/-- A load has started, and then the statement of the write is carried out. -/
def beforeEviction : List (Event Value) := [
  .call 0 .arrived, .call 0 (.looked (.ok none)), .call 0 (.started ⟨0, "k", 0⟩),
  .call 1 .arrived, .call 1 .began, .call 1 (.wrote (.returned (.ok (.affected 1))))]

/-- The load ends with what there was before, and the other read finds it. -/
def afterEviction : List (Event Value) := [
  .load ⟨0, "k", 0⟩ (.ran (.returned (.ok (.optionalValue (some (.text "old")))))),
  .load ⟨0, "k", 0⟩ (.stored (some (.present (.text "old"))) none),
  .load ⟨0, "k", 0⟩ .released, .load ⟨0, "k", 0⟩ .published,
  .call 0 (.received ⟨0, "k", 0⟩),
  .call 2 .arrived, .call 2 (.looked (.ok (some (.present (.text "old")))))]

def lateLoad : List (Event Value) :=
  beforeEviction ++ .call 1 (.evicted (.ok ())) :: afterEviction

theorem exists_run_lateLoad : ∃ m, Run .value readWriteRead smallSite lateLoad m ∧
    m.standing 1 = .answered (.ok (.affected 1)) ∧
    m.standing 2 = .answered (.ok (.optionalValue (some (.text "old")))) := by
  have hwrite : (readWriteRead 1).Does .evict 0 "k" := ⟨rfl, rfl, rfl⟩
  refine ⟨?m, ⟨⟨rfl, rfl⟩, ?steps⟩, ?written, ?read⟩
  case steps =>
    refine .head (.call .arrive) ?_
    refine .head (.call (.look reader_does)) ?_
    refine .head (.call (.start reader_does rfl)) ?_
    refine .head (.call .arrive) ?_
    refine .head (.call (.begin hwrite rfl)) ?_
    refine .head (.call (.write hwrite (.returned (.ok (.affected 1))))) ?_
    refine .head (.call (.evict hwrite)) ?_
    refine .head (.load (.run (by rfl) (.returned (.ok (.optionalValue (some (.text "old"))))))) ?_
    refine .head (.load (.store (.returned (.ok (some (Value.text "old")))) (by rfl))) ?_
    refine .head (.load (.release (by rfl))) ?_
    refine .head (.load (.publish (by rfl))) ?_
    refine .head (.call (.receive (by rfl))) ?_
    refine .head (.call .arrive) ?_
    refine .head (.call (.look reader_does)) ?_
    exact .refl
  case written => rfl
  case read => rfl

theorem found_lateLoad :
    Found smallSite lateLoad 0 "k" 2 ⟨0, "k", 0⟩ (.present (.text "old")) := by
  refine ⟨beforeEviction ++ [.call 1 (.evicted (.ok ())),
      .load ⟨0, "k", 0⟩ (.ran (.returned (.ok (.optionalValue (some (.text "old"))))))],
    [.load ⟨0, "k", 0⟩ .released, .load ⟨0, "k", 0⟩ .published, .call 0 (.received ⟨0, "k", 0⟩),
      .call 2 .arrived], [], rfl, rfl, rfl, ?_⟩
  simp [Event.Stores]

/-- **An old value can outlive an eviction**: the run of a load has started before the statement of
a write has ended, the write has evicted the key and has returned, and a read that starts then still
finds what the load has returned. -/
theorem stale_value_outlives_eviction :
    (readWriteRead 1).Does .evict 0 "k" ∧ (readWriteRead 2).Does .read 0 "k" ∧
      lateLoad = beforeEviction ++ .call 1 (.evicted (.ok ())) :: afterEviction ∧
      .call 2 .arrived ∉ beforeEviction ∧
      ∃ m f r, Run .value readWriteRead smallSite lateLoad m ∧
        [.call 0 (.started f), .call 1 (.wrote r)].Sublist beforeEviction ∧
        Served smallSite lateLoad 0 "k" 2 f ∧ Returned .value lateLoad f (some (.text "old")) ∧
        m.standing 1 = .answered (.ok (.affected 1)) ∧
        m.standing 2 = .answered (.ok (.optionalValue (some (.text "old")))) := by
  refine ⟨⟨rfl, rfl, rfl⟩, reader_does, rfl, by simp [beforeEviction], ?_⟩
  obtain ⟨m, run, hwritten, hread⟩ := exists_run_lateLoad
  refine ⟨m, ⟨0, "k", 0⟩, .returned (.ok (.affected 1)), run, ?_, .inr ⟨_, found_lateLoad⟩, ?_,
    hwritten, hread⟩
  · exact .cons _ (.cons _ (.cons_cons _ (.cons _ (.cons _ (.cons_cons _ .slnil)))))
  · exact ⟨.optionalValue (some (.text "old")), by simp [lateLoad, afterEviction], rfl⟩

/-! ### What a read can still return -/

/-- **A read that starts after a write has evicted its key returns the value of some load, and a
load that had started before the eviction can only be one that was still in flight then; if the read
finds the value in the store, it has been put there after the eviction.** -/
theorem Run.served_after_eviction (run : Run payload visit s t m)
    (hw : (visit w).Does .evict pw key) (hc : (visit c).Does .read pc key)
    (hstore : (s.policy pc).store = (s.policy pw).store)
    (ht : t = before ++ .call w (.evicted (.ok ())) :: after)
    (hlate : .call c .arrived ∉ before) :
    (∀ f, Served s t (s.policy pc).store key c f → (∃ r, .call r (.started f) ∈ before) →
      Loading before f) ∧
    (∀ f entry, Found s t (s.policy pc).store key c f entry →
      ∀ handed problem, .load f (.stored handed problem) ∉ before) ∧
    ∀ reply, m.standing c = .answered (.ok reply) → ∃ f value,
      Served s t (s.policy pc).store key c f ∧ Returned payload t f value ∧
        reply = payload.toReply value := by
  have hfound : ∀ f entry, Found s t (s.policy pc).store key c f entry →
      ∀ handed problem, .load f (.stored handed problem) ∉ before := by
    intro f entry h
    exact run.not_stored_of_found h hw hc hstore ht hlate
  refine ⟨?_, hfound, ?_⟩
  · rintro f (hreceived | ⟨entry, h⟩) hstarted
    · exact ⟨hstarted, run.not_released_of_received hreceived ht hlate⟩
    · refine ⟨hstarted, ?_⟩
      intro hreleased
      -- a load stores before it gives up its place
      subst ht
      obtain ⟨m₁, -, run₁, -⟩ := run.exists_of_cons
      obtain ⟨-, handed, problem, hstored⟩ := run₁.stored_of_released hreleased
      exact hfound f entry h handed problem hstored
  · intro reply hreply
    have houtside : m.standing c ≠ .outside := by
      rw [hreply]
      exact nofun
    obtain ⟨p, ce, q, m₁, s₂, rfl, run₁, hlast⟩ := run.exists_last houtside
    rw [hreply] at hlast
    rcases hlast.of_answered hc with ⟨entry, rfl, rfl⟩ | ⟨f, value, rfl, hwaiting, houtcome, rfl⟩
    · obtain ⟨f, hf, hreturned⟩ := run.exists_found hw hc hstore ht hlate
      exact ⟨f, entry.toOption, .inr ⟨entry, hf⟩, hreturned, rfl⟩
    · obtain ⟨reply, hran, htake⟩ := run₁.returned_of_outcome hwaiting houtcome
      refine ⟨f, value, .inl (List.mem_append_right _ List.mem_cons_self), ?_, rfl⟩
      exact ⟨reply, List.mem_append_left _ hran, htake⟩

/-- The old value of the run above comes from a load that was in flight when the key was evicted. -/
theorem lateLoad_served_after_eviction : ∃ m,
    Run .value readWriteRead smallSite lateLoad m ∧ Loading beforeEviction ⟨0, "k", 0⟩ ∧
      ∃ f value, Served smallSite lateLoad 0 "k" 2 f ∧ Returned .value lateLoad f value ∧
        value = some (.text "old") := by
  obtain ⟨m, run, -, hread⟩ := exists_run_lateLoad
  have hwrite : (readWriteRead 1).Does .evict 0 "k" := ⟨rfl, rfl, rfl⟩
  have hlate : (.call 2 .arrived : Event Value) ∉ beforeEviction := by simp [beforeEviction]
  obtain ⟨hflight, -, hserved⟩ :=
    run.served_after_eviction (c := 2) hwrite reader_does rfl rfl hlate
  have hstarted : .call 0 (.started ⟨0, "k", 0⟩) ∈ beforeEviction := by simp [beforeEviction]
  obtain ⟨f, value, hf, hvalue, hreply⟩ := hserved _ hread
  refine ⟨m, run, hflight _ (.inr ⟨_, found_lateLoad⟩) ⟨0, hstarted⟩, f, value, hf, hvalue, ?_⟩
  injection hreply with hreply
  exact hreply.symm

end SqlAccess.Cache
