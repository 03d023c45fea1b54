/-
**How cached calls fail.**

The key of a call may be no good, and a store may fail whenever it is asked.  Here each call is
followed through all the steps it takes, whatever happens between them: there are few courses a call
can take, and how far it is says which one it has taken.  So a call that fails has done nothing that
it would have done later, and a write that evicts its key in the end does so once and last, if its
statement has succeeded, and not at all otherwise.

A call that takes too long or is dropped breaks its course off; what it has done till then is still
the beginning of one.

Main definitions:

* `SqlAccess.Cache.BadKey` — a key that is no good, and the error it brings;
* `SqlAccess.Cache.eventsOf` — the events of one call;
* `SqlAccess.Cache.Underway`, `SqlAccess.Cache.Concluded`, `SqlAccess.Cache.Course` — the courses of
  a call that is open, that has been answered, and of any;
* `SqlAccess.Cache.CallEvent.Effect` — what an event does to the site;
* `SqlAccess.Cache.FailsCleanly` — what a failure leaves undone.

Main results:

* `SqlAccess.Placeholder.splice_eq_error_iff` — a key does not resolve for the first path that leads
  nowhere;
* `SqlAccess.Cache.Run.takes_course` — **every call takes one of the courses**;
* `SqlAccess.Cache.Caller.begin_of_stops` — a call that fails at once leaves the world as it is;
* `SqlAccess.Cache.fails_cleanly` — **what each failure leaves undone**.
-/

import Mathlib.Data.Nat.Init
import SqlAccess.Proofs.Cache.Agreement
import SqlAccess.Proofs.Except
import SqlAccess.Proofs.Statement.Template

set_option autoImplicit false

namespace SqlAccess

/-! ### Keys -/

namespace Placeholder

/-- A path that leads nowhere. -/
def isMissing (scope : Scope) (path : String) : Bool := (scope.lookup? path).isNone

/-- **A template does not resolve for the first of its paths that leads nowhere.** -/
theorem splice_eq_error_iff (template : String) (scope : Scope) (fault : BuildFault) :
    splice template scope = .error fault ↔
      ∃ path, (extract template).2.find? (isMissing scope) = some path ∧
        fault = .unresolvedArgument path := by
  rw [extract_eq (source_cut template.toList) (leftmost_cut template.toList), splice,
    Except.map_eq_error_iff, spliceChars_eq_cut, Except.map_eq_error_iff, resolveArgs_eq_error_iff]
  simp only [and_comm]
  rfl

end Placeholder

namespace Cache

/-- A key that is empty or does not resolve, and the error that it brings. -/
inductive BadKey : Except BuildFault String → Error → Prop where
  | empty : BadKey (.ok "") .emptyCacheKey
  | unresolved (fault : BuildFault) : BadKey (.error fault) (.build fault)

theorem goodKey_eq_error_iff {key : Except BuildFault String} {e : Error} :
    goodKey key = .error e ↔ BadKey key e := by
  constructor
  · intro h
    unfold goodKey at h
    split at h
    · split at h
      · rename_i hempty
        cases h
        obtain rfl := String.isEmpty_iff.1 hempty
        exact .empty
      · cases h
    · cases h
      exact .unresolved _
  · rintro (_ | fault) <;> rfl

variable {α : Type} {payload : Payload α} {visit : Nat → Visit} {v : Visit} {s s' : Site α}
  {standing standing' : Standing} {evictsFirst : Bool} {outcome : Outcome Reply} {f : Flight}
  {c policy : Nat} {key : String} {t before after : List (Event α)} {es : List (CallEvent α)}
  {m m' : Moment α}

/-! ### The events of a call -/

/-- What an event says of a call. -/
def Event.ofCall? (c : Nat) : Event α → Option (CallEvent α)
  | .call i e => if i = c then some e else none
  | _ => none

/-- The events of one call, in order. -/
def eventsOf (c : Nat) (t : List (Event α)) : List (CallEvent α) := t.filterMap (Event.ofCall? c)

theorem Event.ofCall?_eq_some_iff {e : Event α} {ce : CallEvent α} :
    e.ofCall? c = some ce ↔ e = .call c ce := by
  cases e with
  | call i e => by_cases hi : i = c <;> simp [ofCall?, hi]
  | _ => simp [ofCall?]

theorem mem_eventsOf {e : CallEvent α} : e ∈ eventsOf c t ↔ .call c e ∈ t := by
  simp [eventsOf, Event.ofCall?_eq_some_iff]

theorem eventsOf_append_call (c : Nat) (t : List (Event α)) (e : CallEvent α) :
    eventsOf c (t ++ [.call c e]) = eventsOf c t ++ [e] := by
  simp [eventsOf, Event.ofCall?]

theorem eventsOf_append_of_ne {e : Event α} (h : ∀ ce, e ≠ .call c ce) :
    eventsOf c (t ++ [e]) = eventsOf c t := by
  have hof : e.ofCall? c = none := by
    refine Option.eq_none_iff_forall_ne_some.2 ?_
    intro ce hce
    exact h ce (Event.ofCall?_eq_some_iff.1 hce)
  simp [eventsOf, hof]

/-- The event looks into the store or changes it, or has to do with what is behind the cache. -/
def CallEvent.Touches : CallEvent α → Prop
  | looked _ | joined _ | started _ | began | cleared _ | wrote _ | evicted _ => True
  | arrived | refused | received _ | gaveUp | expired | dropped => False

/-- What an event does to the site: a look and an eviction are what they are by the store, a new
load is registered, and all else leaves the site as it is. -/
def CallEvent.Effect (v : Visit) (s s' : Site α) : CallEvent α → Prop
  | looked found => ∃ policy key, v.Does .read policy key ∧ s.lookup policy key = (found, s')
  | started f => v.Does .read f.policy f.key ∧ s.register f.policy f.key = (f.load, s')
  | cleared result | evicted result =>
    ∃ policy key, v.Does .evict policy key ∧ s.evict policy key = (result, s')
  | _ => s' = s

theorem CallStep.effect {e : CallEvent α} (h : CallStep payload v s standing e s' standing') :
    e.Effect v s s' := by
  cases h with
  | look hv => exact ⟨_, _, hv, rfl⟩
  | start hv hflight => exact ⟨hv, rfl⟩
  | clear hv hfirst => exact ⟨_, _, hv, rfl⟩
  | evict hv => exact ⟨_, _, hv, rfl⟩
  | _ => rfl

/-! ### Courses -/

/-- The call has a good key, and this is what it does with it. -/
def Visit.Uses (v : Visit) (use : Use) : Prop := ∃ policy key, v.Does use policy key

/-- The events that have led an open call to its standing. -/
inductive Underway (v : Visit) (evictsFirst : Bool) : Standing → List (CallEvent α) → Prop where
  | outside : Underway v evictsFirst .outside []
  | arrived : Underway v evictsFirst .arrived [.arrived]
  | missed (hv : v.Uses .read) : Underway v evictsFirst .missed [.arrived, .looked (.ok none)]
  | waiting {f : Flight} {e : CallEvent α} (hv : v.Uses .read) (he : e.Joins f) :
      Underway v evictsFirst (.waiting f) [.arrived, .looked (.ok none), e]
  | began (hv : v.Uses .evict) (hlast : evictsFirst = false) :
      Underway v evictsFirst .writing [.arrived, .began]
  | cleared (hv : v.Uses .evict) (hfirst : evictsFirst = true) :
      Underway v evictsFirst .writing [.arrived, .cleared (.ok ())]
  | written {ending : Ending Reply} {reply : Reply} (hv : v.Uses .evict)
      (hlast : evictsFirst = false) (hending : Caller.outcomeOf ending = .ok reply) :
      Underway v evictsFirst (.written reply) [.arrived, .began, .wrote ending]

/-- The events that have led a call to its answer. -/
inductive Concluded (payload : Payload α) (v : Visit) (evictsFirst : Bool) :
    Outcome Reply → List (CallEvent α) → Prop where
  | refused {e : Error} (hkey : BadKey v.attachment.key e) :
      Concluded payload v evictsFirst (.error e) [.arrived, .refused]
  | unread (hv : v.Uses .read) (e : Error) :
      Concluded payload v evictsFirst (.error e) [.arrived, .looked (.error e)]
  | hit (hv : v.Uses .read) (entry : Entry α) :
      Concluded payload v evictsFirst (Reply.expect v.kind (payload.toReply entry.toOption))
        [.arrived, .looked (.ok (some entry))]
  | received {f : Flight} {e : CallEvent α} (hv : v.Uses .read) (he : e.Joins f)
      (ending : Ending (Option α)) :
      Concluded payload v evictsFirst ((payload.answer f.key ending).bind (Reply.expect v.kind))
        [.arrived, .looked (.ok none), e, .received f]
  | uncleared (hv : v.Uses .evict) (hfirst : evictsFirst = true) (e : Error) :
      Concluded payload v evictsFirst (.error e) [.arrived, .cleared (.error e)]
  | wroteCleared (hv : v.Uses .evict) (hfirst : evictsFirst = true) (ending : Ending Reply) :
      Concluded payload v evictsFirst ((Caller.outcomeOf ending).bind (Reply.expect v.kind))
        [.arrived, .cleared (.ok ()), .wrote ending]
  | failed {ending : Ending Reply} {e : Error} (hv : v.Uses .evict) (hlast : evictsFirst = false)
      (hending : Caller.outcomeOf ending = .error e) :
      Concluded payload v evictsFirst (.error e) [.arrived, .began, .wrote ending]
  | evicted {ending : Ending Reply} {reply : Reply} (hv : v.Uses .evict)
      (hlast : evictsFirst = false) (hending : Caller.outcomeOf ending = .ok reply)
      (result : Outcome Unit) :
      Concluded payload v evictsFirst (result.bind fun _ => Reply.expect v.kind reply)
        [.arrived, .began, .wrote ending, .evicted result]

/-- The events that have led a call to its standing; one that takes too long or is dropped ends its
course before its time. -/
inductive Course (payload : Payload α) (v : Visit) (evictsFirst : Bool) :
    Standing → List (CallEvent α) → Prop where
  | underway {standing : Standing} {es : List (CallEvent α)}
      (h : Underway v evictsFirst standing es) : Course payload v evictsFirst standing es
  | answered {outcome : Outcome Reply} {es : List (CallEvent α)}
      (h : Concluded payload v evictsFirst outcome es) :
      Course payload v evictsFirst (.answered outcome) es
  | late {standing : Standing} {es : List (CallEvent α)} {e : CallEvent α}
      (h : Underway v evictsFirst standing es) (he : e = .gaveUp ∨ e = .expired) (cause : Error) :
      Course payload v evictsFirst (.late cause) (es ++ [e])
  | dropped {standing : Standing} {es : List (CallEvent α)}
      (h : Underway v evictsFirst standing es) :
      Course payload v evictsFirst .dropped (es ++ [.dropped])

theorem Visit.afterWrite_true (v : Visit) (outcome : Outcome Reply) :
    v.afterWrite true outcome = v.answer outcome := by
  cases outcome <;> rfl

theorem Visit.afterEvict_eq (v : Visit) (reply : Reply) (result : Outcome Unit) :
    v.afterEvict reply result =
      .answered (result.bind fun _ => Reply.expect v.kind reply) := by
  cases result <;> rfl

theorem Course.underway_of_open (h : Course payload v evictsFirst standing es)
    (hopen : standing = .outside ∨ standing.isOpen = true) :
    Underway v evictsFirst standing es := by
  cases h with
  | underway h => exact h
  | answered h => rcases hopen with hopen | hopen <;> cases hopen
  | late h he cause => rcases hopen with hopen | hopen <;> cases hopen
  | dropped h => rcases hopen with hopen | hopen <;> cases hopen

/-- **Each step of a call goes on with its course.** -/
theorem Course.callStep {e : CallEvent α} (h : Course payload v evictsFirst standing es)
    (hpolicy : (s.policy v.attachment.policy).evictsFirst = evictsFirst)
    (hstep : CallStep payload v s standing e s' standing') :
    Course payload v evictsFirst standing' (es ++ [e]) := by
  -- only a call that has not ended takes a step, and then its standing tells its events
  have hunder := h.underway_of_open hstep.isOpen
  cases hstep with
  | arrive =>
      cases hunder
      exact .underway .arrived
  | refuse hkey =>
      cases hunder
      exact .answered (.refused (goodKey_eq_error_iff.1 hkey))
  | @look policy key hv =>
      cases hunder
      generalize (s.lookup policy key).1 = found
      cases found with
      | error e => exact .answered (.unread ⟨policy, key, hv⟩ e)
      | ok found =>
          cases found with
          | none => exact .underway (.missed ⟨policy, key, hv⟩)
          | some entry => exact .answered (.hit ⟨policy, key, hv⟩ entry)
  | join hv hflight =>
      cases hunder
      exact .underway (.waiting ⟨_, _, hv⟩ (.inl rfl))
  | start hv hflight =>
      cases hunder
      exact .underway (.waiting ⟨_, _, hv⟩ (.inr rfl))
  | receive houtcome =>
      cases hunder with
      | waiting hv he => exact .answered (.received hv he _)
  | giveUp hlimit => exact .late hunder (.inl rfl) _
  | expire hopen hlimit => exact .late hunder (.inr rfl) _
  | drop hopen => exact .dropped hunder
  | begin hv hfirst =>
      cases hunder
      rw [← hv.policy_eq] at hfirst
      exact .underway (.began ⟨_, _, hv⟩ (hpolicy.symm.trans hfirst))
  | @clear policy key hv hfirst =>
      cases hunder
      rw [← hv.policy_eq] at hfirst
      generalize (s.evict policy key).1 = result
      cases result with
      | error e => exact .answered (.uncleared ⟨policy, key, hv⟩ (hpolicy.symm.trans hfirst) e)
      | ok done => exact .underway (.cleared ⟨policy, key, hv⟩ (hpolicy.symm.trans hfirst))
  | write hv ending =>
      rw [← hv.policy_eq, hpolicy]
      cases hunder with
      | cleared _ hfirst =>
          subst hfirst
          rw [Visit.afterWrite_true]
          exact .answered (.wroteCleared ⟨_, _, hv⟩ rfl ending)
      | began _ hlast =>
          subst hlast
          cases hending : Caller.outcomeOf ending with
          | error e => exact .answered (.failed ⟨_, _, hv⟩ rfl hending)
          | ok reply => exact .underway (.written ⟨_, _, hv⟩ rfl hending)
  | @evict policy key reply hv =>
      cases hunder with
      | written _ hlast hending =>
          rw [Visit.afterEvict_eq]
          exact .answered (.evicted ⟨policy, key, hv⟩ hlast hending _)

/-- **Every call takes one of the courses, whatever happens between its steps.** -/
theorem Run.takes_course (run : Run payload visit s t m) (c : Nat) :
    Course payload (visit c) (s.policy (visit c).attachment.policy).evictsFirst (m.standing c)
      (eventsOf c t) := by
  obtain ⟨hidle, hsteps⟩ := run
  induction hsteps with
  | refl => exact .underway .outside
  | @tail t m e m' hsteps hstep ih =>
      rcases hstep.of_call c with ⟨ce, rfl, hcall⟩ | ⟨hne, hsame⟩
      · rw [eventsOf_append_call]
        refine ih.callStep ?_ hcall
        rw [Run.policy ⟨hidle, hsteps⟩]
      · rw [eventsOf_append_of_ne hne, hsame]
        exact ih

/-! ### What a course says -/

theorem BadKey.goodKey_eq {e : Error} (h : BadKey v.attachment.key e) :
    goodKey v.attachment.key = .error e := goodKey_eq_error_iff.2 h

theorem BadKey.not_uses {e : Error} (h : BadKey v.attachment.key e) (use : Use) :
    ¬ v.Uses use := by
  rintro ⟨policy, key, hv⟩
  have hkey := h.goodKey_eq.symm.trans hv.key_eq
  cases hkey

theorem Visit.Uses.unique {use use' : Use} (h : v.Uses use) (h' : v.Uses use') : use = use' := by
  obtain ⟨policy, key, hv⟩ := h
  obtain ⟨policy', key', hv'⟩ := h'
  exact (hv.unique hv').1

theorem Underway.eq_arrived_of_badKey {e : Error} {ce : CallEvent α}
    (h : Underway v evictsFirst standing es) (hkey : BadKey v.attachment.key e) (hmem : ce ∈ es) :
    ce = .arrived := by
  cases h with
  | outside => cases hmem
  | arrived => exact List.mem_singleton.1 hmem
  | missed hv | waiting hv _ | began hv _ | cleared hv _ | written hv _ _ =>
      exact absurd hv (hkey.not_uses _)

theorem Concluded.eq_refused {e : Error} (h : Concluded payload v evictsFirst outcome es)
    (hkey : BadKey v.attachment.key e) : outcome = .error e ∧ es = [.arrived, .refused] := by
  cases h with
  | refused hkey' =>
      have heq := hkey'.goodKey_eq.symm.trans hkey.goodKey_eq
      cases heq
      exact ⟨rfl, rfl⟩
  | unread hv _ | hit hv _ | received hv _ _ | uncleared hv _ _ | wroteCleared hv _ _
  | failed hv _ _ | evicted hv _ _ _ => exact absurd hv (hkey.not_uses _)

/-- After the event the call has nothing left to do. -/
def CallEvent.IsLast (evictsFirst : Bool) : CallEvent α → Prop
  | refused | looked (.error _) | looked (.ok (some _)) | received _ | cleared (.error _)
  | evicted _ => True
  | wrote _ => evictsFirst = true
  | _ => False

theorem Underway.not_isLast {ce : CallEvent α} (h : Underway v evictsFirst standing es)
    (hmem : ce ∈ es) : ¬ ce.IsLast evictsFirst := by
  cases h with
  | outside => cases hmem
  | waiting hv he =>
      simp only [List.mem_cons, List.not_mem_nil, or_false] at hmem
      rcases hmem with rfl | rfl | rfl
      · exact id
      · exact id
      · rcases he with rfl | rfl <;> exact id
  | written hv hlast hending =>
      subst hlast
      simp only [List.mem_cons, List.not_mem_nil, or_false] at hmem
      rcases hmem with rfl | rfl | rfl <;> simp [CallEvent.IsLast]
  | arrived =>
      rw [List.mem_singleton.1 hmem]
      exact id
  | _ => rcases List.mem_pair.1 hmem with rfl | rfl <;> exact id

theorem Underway.of_began (h : Underway v evictsFirst standing es) (hmem : .began ∈ es) :
    evictsFirst = false := by
  cases h with
  | began hv hlast => exact hlast
  | written hv hlast hending => exact hlast
  | waiting hv he => rcases he with rfl | rfl <;> simp at hmem
  | _ => simp at hmem

namespace Course

/-- An event of a call belongs to a course that has led to an answer, or to one on the way, or it
breaks one off. -/
theorem mem_cases {ce : CallEvent α} (h : Course payload v evictsFirst standing es)
    (hmem : ce ∈ es) :
    (∃ outcome, standing = .answered outcome ∧ Concluded payload v evictsFirst outcome es) ∨
      (∃ standing' es', Underway v evictsFirst standing' es' ∧ ce ∈ es') ∨
      ce = .gaveUp ∨ ce = .expired ∨ ce = .dropped := by
  cases h with
  | underway h => exact .inr (.inl ⟨_, _, h, hmem⟩)
  | answered h => exact .inl ⟨_, rfl, h⟩
  | late h he cause =>
      rcases List.mem_append.1 hmem with hmem | hmem
      · exact .inr (.inl ⟨_, _, h, hmem⟩)
      · rw [List.mem_singleton.1 hmem]
        exact .inr (.inr (he.imp_right .inl))
  | dropped h =>
      rcases List.mem_append.1 hmem with hmem | hmem
      · exact .inr (.inl ⟨_, _, h, hmem⟩)
      · exact .inr (.inr (.inr (.inr (List.mem_singleton.1 hmem))))

/-- Without a good key nothing is touched. -/
theorem not_touches {e : Error} {ce : CallEvent α} (h : Course payload v evictsFirst standing es)
    (hkey : BadKey v.attachment.key e) (hmem : ce ∈ es) : ¬ ce.Touches := by
  rcases h.mem_cases hmem with ⟨outcome, -, hdone⟩ | ⟨_, _, hunder, hmem⟩ | rfl | rfl | rfl
  · obtain ⟨-, rfl⟩ := hdone.eq_refused hkey
    rcases List.mem_pair.1 hmem with rfl | rfl <;> exact id
  · rw [hunder.eq_arrived_of_badKey hkey hmem]
    exact id
  all_goals exact id

/-- A call that has taken its last step has been answered. -/
theorem concluded_of_isLast {ce : CallEvent α} (h : Course payload v evictsFirst standing es)
    (hmem : ce ∈ es) (hlast : ce.IsLast evictsFirst) :
    ∃ outcome, standing = .answered outcome ∧ Concluded payload v evictsFirst outcome es := by
  rcases h.mem_cases hmem with hdone | ⟨_, _, hunder, hmem⟩ | rfl | rfl | rfl
  · exact hdone
  · exact absurd hlast (hunder.not_isLast hmem)
  all_goals cases hlast

/-- A look that fails is the last step of its call. -/
theorem of_unread {e : Error} (h : Course payload v evictsFirst standing es)
    (hmem : .looked (.error e) ∈ es) :
    es = [.arrived, .looked (.error e)] ∧ standing = .answered (.error e) := by
  obtain ⟨outcome, rfl, hdone⟩ := h.concluded_of_isLast hmem ⟨⟩
  cases hdone with
  | unread hv e' =>
      obtain rfl : e = e' := by simpa using hmem
      exact ⟨rfl, rfl⟩
  | received hv he ending => rcases he with rfl | rfl <;> simp at hmem
  | _ => simp at hmem

/-- So is an eviction that fails before the statement. -/
theorem of_uncleared {e : Error} (h : Course payload v evictsFirst standing es)
    (hmem : .cleared (.error e) ∈ es) :
    es = [.arrived, .cleared (.error e)] ∧ standing = .answered (.error e) := by
  obtain ⟨outcome, rfl, hdone⟩ := h.concluded_of_isLast hmem ⟨⟩
  cases hdone with
  | uncleared hv hfirst e' =>
      obtain rfl : e = e' := by simpa using hmem
      exact ⟨rfl, rfl⟩
  | received hv he ending => rcases he with rfl | rfl <;> simp at hmem
  | _ => simp at hmem

/-- A statement that runs after the eviction of its key runs only if that has succeeded. -/
theorem of_wrote {ending : Ending Reply} (h : Course payload v true standing es)
    (hmem : .wrote ending ∈ es) :
    es = [.arrived, .cleared (.ok ()), .wrote ending] ∧
      standing = v.answer (Caller.outcomeOf ending) := by
  obtain ⟨outcome, rfl, hdone⟩ := h.concluded_of_isLast hmem rfl
  cases hdone with
  | wroteCleared hv hfirst ending' =>
      obtain rfl : ending = ending' := by simpa using hmem
      exact ⟨rfl, rfl⟩
  | received hv he ending => rcases he with rfl | rfl <;> simp at hmem
  | failed hv hlast hending => cases hlast
  | evicted hv hlast hending result => cases hlast
  | _ => simp at hmem

/-- A statement that starts without an eviction is that of a write that evicts its key in the
end. -/
theorem of_began (h : Course payload v evictsFirst standing es) (hmem : .began ∈ es) :
    evictsFirst = false := by
  rcases h.mem_cases hmem with ⟨outcome, -, hdone⟩ | ⟨_, _, hunder, hmem⟩ | he | he | he
  · cases hdone with
    | failed hv hlast hending => exact hlast
    | evicted hv hlast hending result => exact hlast
    | received hv he ending => rcases he with rfl | rfl <;> simp at hmem
    | _ => simp at hmem
  · exact hunder.of_began hmem
  all_goals cases he

/-- An eviction after the statement is the last step of its call. -/
theorem of_evicted {result : Outcome Unit} (h : Course payload v evictsFirst standing es)
    (hmem : .evicted result ∈ es) :
    evictsFirst = false ∧ ∃ outcome, standing = .answered outcome := by
  obtain ⟨outcome, rfl, hdone⟩ := h.concluded_of_isLast hmem trivial
  cases hdone with
  | evicted hv hlast hending result' => exact ⟨hlast, _, rfl⟩
  | received hv he ending => rcases he with rfl | rfl <;> simp at hmem
  | _ => simp at hmem

/-- A write that evicts its key in the end does so after its statement has succeeded, or is answered
with the error of its statement. -/
theorem of_answered (h : Course payload v false (.answered outcome) es) (hv : v.Uses .evict) :
    ∃ ending, (∃ e, Caller.outcomeOf ending = .error e ∧ outcome = .error e ∧
        es = [.arrived, .began, .wrote ending]) ∨
      ∃ reply result, Caller.outcomeOf ending = .ok reply ∧
        es = [.arrived, .began, .wrote ending, .evicted result] ∧
        outcome = result.bind fun _ => Reply.expect v.kind reply := by
  cases h with
  | underway h => cases h
  | answered h =>
      cases h with
      | failed hv hlast hending => exact ⟨_, .inl ⟨_, hending, rfl, rfl⟩⟩
      | evicted hv hlast hending result => exact ⟨_, .inr ⟨_, result, hending, rfl, rfl⟩⟩
      | refused hkey => exact absurd hv (hkey.not_uses _)
      | unread hread _ | hit hread _ | received hread _ _ => cases hv.unique hread
      | uncleared _ hfirst _ | wroteCleared _ hfirst _ => cases hfirst

end Course

/-! ### What an event leaves behind -/

namespace Site

theorem lookup_of_error {e : Error} (h : (s.lookup policy key).1 = .error e) :
    (s.lookup policy key).2 = s := by
  unfold lookup at h ⊢
  split at h
  · rename_i hfault
    rw [if_pos hfault]
  · cases h

theorem evict_of_error {e : Error} (h : (s.evict policy key).1 = .error e) :
    (s.evict policy key).2 = s := by
  unfold evict at h ⊢
  split at h
  · rename_i hfault
    rw [if_pos hfault]
  · cases h

end Site

/-- What an eviction that succeeds leaves behind does not hold its key. -/
theorem CallEvent.Effect.not_holds {e : CallEvent α} {entry : Entry α} (h : e.Effect v s s')
    (he : e = .cleared (.ok ()) ∨ e = .evicted (.ok ())) (hv : v.Does .evict policy key) :
    ¬ s'.Holds (s.policy policy).store key entry := by
  have hevict : ∃ policy key, v.Does .evict policy key ∧ s.evict policy key = (.ok (), s') := by
    rcases he with rfl | rfl <;> exact h
  obtain ⟨policy', key', hv', hevict⟩ := hevict
  obtain ⟨-, rfl, rfl⟩ := hv.unique hv'
  have hgone : ¬ (s.evict policy key).2.Holds (s.policy policy).store key entry :=
    Site.not_holds_evict (by rw [hevict])
  rwa [hevict] at hgone

/-! ### Calls that fail at once -/

/-- The error at which a call stops before anything is behind it: its key is no good, or the store
that it asks first fails. -/
def Attachment.stops? (a : Attachment) (s : Site α) : Option Error :=
  match goodKey a.key, a.use with
  | .error e, _ => some e
  | .ok key, .read => match (s.lookup a.policy key).1 with
    | .error e => some e
    | .ok _ => none
  | .ok key, .evict =>
    if (s.policy a.policy).evictsFirst then match (s.evict a.policy key).1 with
      | .error e => some e
      | .ok _ => none
    else none

/-- **A call that stops at once leaves the world as it is**: its stores, its loads, and whatever has
been observed. -/
theorem Caller.begin_of_stops {c : Caller} {w : World α} {a : Attachment} {e : Error}
    (hattachment : c.call.attachment = some a) (h : a.stops? w.site = some e) :
    (c.begin w).2 = w ∧ (c.begin w).1.progress = .done (.error e) := by
  unfold Attachment.stops? at h
  unfold begin
  simp only [hattachment]
  split at h
  · rename_i hkey
    cases h
    rw [hkey]
    exact ⟨rfl, rfl⟩
  · rename_i key hkey huse
    split at h
    · rename_i hlookup
      cases h
      have hsite := Site.lookup_of_error hlookup
      rw [hkey, huse]
      dsimp only
      unfold read
      generalize w.site.lookup a.policy key = result at hlookup hsite ⊢
      obtain ⟨result, site⟩ := result
      subst hlookup hsite
      exact ⟨rfl, rfl⟩
    · cases h
  · rename_i key hkey huse
    split at h
    · rename_i hfirst
      split at h
      · rename_i hevict
        cases h
        have hsite := Site.evict_of_error hevict
        rw [hkey, huse]
        dsimp only
        unfold write
        rw [if_pos hfirst]
        generalize w.site.evict a.policy key = result at hevict hsite ⊢
        obtain ⟨result, site⟩ := result
        subst hevict hsite
        exact ⟨rfl, rfl⟩
      · cases h
    · cases h

/-! ### Clean failures -/

/-- What the failures of a call leave undone. -/
structure FailsCleanly (payload : Payload α) (visit : Nat → Visit) (s : Site α)
    (t : List (Event α)) (m : Moment α) (c : Nat) : Prop where
  /-- Without a good key a call touches neither a store nor what is behind its cache; it can be
  answered, and its answer is the error of its key. -/
  refused : ∀ e, BadKey (visit c).attachment.key e →
    (∀ ce, .call c ce ∈ t → ¬ ce.Touches) ∧
    (∀ outcome, m.standing c = .answered outcome → outcome = .error e) ∧
    (m.standing c = .arrived →
      Step payload visit m (.call c .refused) (m.stand c (.answered (.error e))))
  /-- A read whose look fails has neither started nor joined a load, and is answered with the
  error. -/
  unread : ∀ e, .call c (.looked (.error e)) ∈ t →
    eventsOf c t = [.arrived, .looked (.error e)] ∧ m.standing c = .answered (.error e)
  /-- A write that evicts its key in the end is answered with the error of its statement and has not
  asked the store, or its statement has succeeded and it has asked once, after all else. -/
  evictsLast : (visit c).Uses .evict →
    (s.policy (visit c).attachment.policy).evictsFirst = false →
    ∀ outcome, m.standing c = .answered outcome → ∃ ending,
      (∃ e, Caller.outcomeOf ending = .error e ∧ outcome = .error e ∧
        eventsOf c t = [.arrived, .began, .wrote ending]) ∨
      ∃ reply result, Caller.outcomeOf ending = .ok reply ∧
        eventsOf c t = [.arrived, .began, .wrote ending, .evicted result] ∧
        outcome = result.bind fun _ => Reply.expect (visit c).kind reply
  /-- No other call evicts its key after a statement, and none that has not been answered. -/
  evicted : ∀ result, .call c (.evicted result) ∈ t →
    (s.policy (visit c).attachment.policy).evictsFirst = false ∧
      ∃ outcome, m.standing c = .answered outcome
  /-- The statement of a write that evicts its key first has run after an eviction that has
  succeeded, and nothing comes after it; if the eviction has failed, that is the answer. -/
  evictsFirst : (s.policy (visit c).attachment.policy).evictsFirst = true →
    (.call c .began ∉ t) ∧
    (∀ ending, .call c (.wrote ending) ∈ t →
      eventsOf c t = [.arrived, .cleared (.ok ()), .wrote ending] ∧
        m.standing c = (visit c).answer (Caller.outcomeOf ending)) ∧
    ∀ e, .call c (.cleared (.error e)) ∈ t →
      eventsOf c t = [.arrived, .cleared (.error e)] ∧ m.standing c = .answered (.error e)
  /-- Each event of the call leaves the site as it is, but for a look, an eviction and a new load;
  and once the key is evicted it is not held. -/
  effect : ∀ before ce after, t = before ++ .call c ce :: after → ∃ m₁ m₂,
    Run payload visit s before m₁ ∧ Step payload visit m₁ (.call c ce) m₂ ∧
      Steps payload visit m₂ after m ∧ ce.Effect (visit c) m₁.site m₂.site ∧
      ∀ policy key, (visit c).Does .evict policy key →
        (ce = .cleared (.ok ()) ∨ ce = .evicted (.ok ())) →
        ∀ entry, ¬ m₂.site.Holds (s.policy policy).store key entry

theorem Run.failsCleanly (run : Run payload visit s t m) (c : Nat) :
    FailsCleanly payload visit s t m c := by
  have hcourse := run.takes_course c
  constructor
  · intro e hkey
    refine ⟨fun ce hmem => hcourse.not_touches hkey (mem_eventsOf.2 hmem), ?_, ?_⟩
    · intro outcome houtcome
      rw [houtcome] at hcourse
      cases hcourse with
      | underway h => cases h
      | answered h => exact (h.eq_refused hkey).1
    · intro harrived
      refine .call ?_
      rw [harrived]
      exact .refuse hkey.goodKey_eq
  · intro e hmem
    exact hcourse.of_unread (mem_eventsOf.2 hmem)
  · intro hv hlast outcome houtcome
    rw [hlast, houtcome] at hcourse
    exact hcourse.of_answered hv
  · intro result hmem
    exact hcourse.of_evicted (mem_eventsOf.2 hmem)
  · intro hfirst
    rw [hfirst] at hcourse
    refine ⟨?_, fun ending hmem => hcourse.of_wrote (mem_eventsOf.2 hmem),
      fun e hmem => hcourse.of_uncleared (mem_eventsOf.2 hmem)⟩
    intro hmem
    cases hcourse.of_began (mem_eventsOf.2 hmem)
  · intro before ce after ht
    subst ht
    obtain ⟨m₁, m₂, run₁, hstep, -, hrest⟩ := run.exists_of_cons
    have heffect := hstep.callStep.effect
    refine ⟨m₁, m₂, run₁, hstep, hrest, heffect, ?_⟩
    intro policy key hv hce entry
    rw [← run₁.policy]
    exact heffect.not_holds hce hv

/-- **Whatever the stores, the other calls and what is behind the cache do, a call that fails leaves
undone what it would have done later**, in any run; a call that stops at once leaves the world as it
is; and a template does not resolve for the first of its paths that leads nowhere. -/
theorem fails_cleanly (payload : Payload α) (visit : Nat → Visit) (s : Site α) :
    (∀ t m, Run payload visit s t m → ∀ c, FailsCleanly payload visit s t m c) ∧
    (∀ (c : Caller) (w : World α) (a : Attachment) (e : Error), c.call.attachment = some a →
      a.stops? w.site = some e → (c.begin w).2 = w ∧ (c.begin w).1.progress = .done (.error e)) ∧
    ∀ template scope fault, Placeholder.splice template scope = .error fault ↔
      ∃ path, (Placeholder.extract template).2.find? (Placeholder.isMissing scope) = some path ∧
        fault = .unresolvedArgument path := by
  refine ⟨fun t m run c => run.failsCleanly c, ?_, Placeholder.splice_eq_error_iff⟩
  intro c w a e hattachment hstops
  exact Caller.begin_of_stops hattachment hstops

/-- Two policies for one store; by the second, writes evict their keys first. -/
def twoPolicies : Site Value :=
  .ofStores [⟨0, false, false, none⟩, ⟨0, false, true, none⟩] [.empty 16 none]

/-- A read without a key, a write whose statement fails, one that evicts its key first, and a
read. -/
def failingVisits : Nat → Visit
  | 0 => ⟨⟨.read, 0, Placeholder.splice "user:#\x7bid\x7d" ⟨[]⟩⟩, .optionalValue, none⟩
  | 1 => ⟨⟨.evict, 0, .ok "k"⟩, .affected, none⟩
  | 2 => ⟨⟨.evict, 1, .ok "k"⟩, .affected, none⟩
  | _ => reader

/-- The store fails once the first write has ended. -/
def failingRun : List (Event Value) := [
  .call 0 .arrived, .call 0 .refused,
  .call 1 .arrived, .call 1 .began, .call 1 (.wrote (.returned (.error (.other "lost")))),
  .faults ⟨true, false, true⟩,
  .call 2 .arrived, .call 2 (.cleared (.error (.other "delete failed"))),
  .call 3 .arrived, .call 3 (.looked (.error (.other "get failed")))]

/-- Each of these calls is answered with its error. -/
theorem fails_cleanly_of_failingRun :
    ∃ m, Run .value failingVisits twoPolicies failingRun m ∧
      m.standing 0 = .answered (.error (.build (.unresolvedArgument "id"))) ∧
      m.standing 1 = .answered (.error (.other "lost")) ∧
      m.standing 2 = .answered (.error (.other "delete failed")) ∧
      m.standing 3 = .answered (.error (.other "get failed")) ∧
      ∀ c, FailsCleanly .value failingVisits twoPolicies failingRun m c := by
  have hsplice : Placeholder.splice "user:#\x7bid\x7d" ⟨[]⟩ =
      .error (.unresolvedArgument "id") := by decide +kernel
  have hkey : BadKey (failingVisits 0).attachment.key (.build (.unresolvedArgument "id")) := by
    change BadKey (Placeholder.splice _ _) _
    rw [hsplice]
    exact .unresolved _
  have hlast : (failingVisits 1).Does .evict 0 "k" := ⟨rfl, rfl, rfl⟩
  have hfirst : (failingVisits 2).Does .evict 1 "k" := ⟨rfl, rfl, rfl⟩
  have hsteps : ∃ m, Run .value failingVisits twoPolicies failingRun m ∧
      m.standing 0 = .answered (.error (.build (.unresolvedArgument "id"))) ∧
      m.standing 1 = .answered (.error (.other "lost")) ∧
      m.standing 2 = .answered (.error (.other "delete failed")) ∧
      m.standing 3 = .answered (.error (.other "get failed")) := by
    refine ⟨?m, ⟨⟨rfl, rfl⟩, ?steps⟩, ?_, ?_, ?_, ?_⟩
    case steps =>
      refine .head (.call .arrive) ?_
      refine .head (.call (.refuse hkey.goodKey_eq)) ?_
      refine .head (.call .arrive) ?_
      refine .head (.call (.begin hlast rfl)) ?_
      refine .head (.call (.write hlast (.returned (.error (.other "lost"))))) ?_
      refine .head (.fault ⟨true, false, true⟩) ?_
      refine .head (.call .arrive) ?_
      refine .head (.call (.clear hfirst rfl)) ?_
      refine .head (.call .arrive) ?_
      refine .head (.call (.look reader_does)) ?_
      exact .refl
    all_goals rfl
  obtain ⟨m, run, hrefused, hfailed, huncleared, hunread⟩ := hsteps
  exact ⟨m, run, hrefused, hfailed, huncleared, hunread,
    (fails_cleanly .value failingVisits twoPolicies).1 failingRun m run⟩

end Cache

end SqlAccess
