/-
**Remarks do not change what is performed.**

Calls whose scripts differ in remarks only pause at the same times, do the same, and leave the same
site.  A world is compared with itself after all that has been remarked, and all that is still to be
remarked, has been taken out of it; what happens next is the same in both, remarks aside.

Main definitions:

* `SqlAccess.Cache.Call.plain`, `SqlAccess.Cache.Caller.plain`, `SqlAccess.Cache.World.plain` —
  calls and worlds without remarks.

Main results:

* `SqlAccess.Cache.World.play_plain` — actions are played up to the same pause;
* `SqlAccess.Cache.Caller.poll_congr`, `SqlAccess.Cache.World.runTasks_congr` — calls and loads go
  on in the same way;
* `SqlAccess.Cache.World.drive_congr` — so do all together, round by round;
* `SqlAccess.Cache.World.perform_congr` — **calls are performed in the same way**, remarks aside.
-/

import SqlAccess.Proofs.Cache.Schedule
import SqlAccess.Proofs.Pipeline.Remarks

set_option autoImplicit false

namespace SqlAccess.Cache

open SqlAccess.Action

/-! ### Without remarks -/

/-- Remarks are no pauses. -/
theorem pauses_deeds (actions : List Action) : pauses (deeds actions) = pauses actions := by
  rw [pauses, pauses, deeds, List.countP_filter]
  congr
  funext a
  cases a <;> rfl

/-- A call whose script makes no remarks. -/
def Call.plain (c : Call) : Call := { c with script := ⟨deeds c.script.actions, c.script.ending⟩ }

/-- Progress without remarks that are still to be made. -/
def Progress.plain : Progress → Progress
  | .playing wake rest evicts => .playing wake (deeds rest) evicts
  | p => p

/-- A call under way without remarks. -/
def Caller.plain (c : Caller) : Caller :=
  { c with call := c.call.plain, progress := c.progress.plain }

/-- A task without remarks. -/
def Task.plain (t : Task) : Task := { t with rest := deeds t.rest }

/-- A task that sleeps, without remarks. -/
def Sleeper.plain (s : Sleeper) : Sleeper := { s with task := s.task.plain }

variable {α : Type}

/-- A world without remarks, made or still to be made by its tasks. -/
def World.plain (w : World α) : World α :=
  { w with
    ready := w.ready.map Task.plain
    sleeping := w.sleeping.map Sleeper.plain
    observed := { w.observed with log := [] } }

/-- A call and the world without remarks. -/
def plainly (p : Caller × World α) : Caller × World α := (p.1.plain, p.2.plain)

@[simp] theorem Call.plain_plain (c : Call) : c.plain.plain = c.plain := by
  simp [plain]

@[simp] theorem Progress.plain_plain (p : Progress) : p.plain.plain = p.plain := by
  cases p <;> simp [plain]

@[simp] theorem Caller.plain_plain (c : Caller) : c.plain.plain = c.plain := by
  simp [plain]

@[simp] theorem Task.plain_plain (t : Task) : t.plain.plain = t.plain := by
  simp [plain]

@[simp] theorem Sleeper.plain_plain (s : Sleeper) : s.plain.plain = s.plain := by
  simp [plain]

@[simp] theorem World.plain_plain (w : World α) : w.plain.plain = w.plain := by
  simp [plain, Function.comp_def]

@[simp] theorem plainly_plainly (p : Caller × World α) : plainly (plainly p) = plainly p := by
  simp [plainly]

@[simp] theorem World.plain_site (w : World α) : w.plain.site = w.site := rfl

@[simp] theorem World.plain_now (w : World α) : w.plain.now = w.now := rfl

@[simp] theorem Task.plain_rest (t : Task) : t.plain.rest = deeds t.rest := rfl

@[simp] theorem Task.plain_owner (t : Task) : t.plain.owner = t.owner := rfl

@[simp] theorem Caller.plain_number (c : Caller) : c.plain.number = c.number := rfl

@[simp] theorem Caller.plain_progress (c : Caller) : c.plain.progress = c.progress.plain := rfl

@[simp] theorem Caller.plain_ending (c : Caller) :
    c.plain.call.script.ending = c.call.script.ending := rfl

@[simp] theorem Caller.plain_timeout (c : Caller) : c.plain.call.timeout = c.call.timeout := rfl

@[simp] theorem Caller.plain_deadline (c : Caller) : c.plain.deadline = c.deadline := rfl

namespace World

/-- What worlds have in common that are the same without remarks. -/
theorem eq_of_plain {w w' : World α} (h : w.plain = w'.plain) :
    w.site = w'.site ∧ w.now = w'.now ∧ w.calls = w'.calls ∧
      w.observed.seen = w'.observed.seen ∧ w.observed.totals = w'.observed.totals := by
  simp only [plain, mk.injEq, Observed.mk.injEq] at h
  exact ⟨h.2.1, h.2.2.1, h.2.2.2.2.2.2, h.2.2.2.2.2.1.2⟩

/-! ### Loads -/

variable (w : World α)

/-- Actions are played up to the same pause. -/
theorem play_plain (owner : Nat) (actions : List Action) :
    w.plain.play owner (deeds actions) =
      ((w.play owner actions).1.plain,
        (w.play owner actions).2.map fun p => (p.1, deeds p.2)) := by
  induction actions generalizing w with
  | nil => rfl
  | cons a rest ih =>
      cases a with
      | log e => exact ih (w.logEvent e)
      | note line => exact ih (w.note line)
      | statement s => exact ih (w.see s)
      | work d => exact ih w
      | totals t => exact ih (w.setTotals owner t)
      | sleep d =>
          rw [deeds_cons_of_deed rfl, play, play]
          by_cases hdue : w.after d ≤ w.now
          · have hplain : w.plain.after d ≤ w.plain.now := hdue
            rw [if_pos hdue, if_pos hplain]
            exact ih w
          · have hplain : ¬w.plain.after d ≤ w.plain.now := hdue
            rw [if_neg hdue, if_neg hplain]
            rfl

/-- A load goes on in the same way. -/
theorem runTask_plain (t : Task) : (w.runTask t).plain = (w.plain.runTask t.plain).plain := by
  unfold runTask
  rw [Task.plain_rest, Task.plain_owner, play_plain]
  generalize w.play t.owner t.rest = result
  obtain ⟨w', _ | ⟨wake, rest⟩⟩ := result
  · dsimp only [Option.map_none, Task.plain]
    rw [plain_site, show w'.plain.endingOf t.ending = w'.endingOf t.ending from rfl]
    generalize w'.site.settle t.load (w'.endingOf t.ending) = settled
    have hsite (site : Site α) : ({ w' with site } : World α).plain =
        ({ w'.plain with site } : World α).plain := by
      simp [plain, Function.comp_def]
    obtain ⟨_ | problem, site⟩ := settled
    · exact hsite site
    · exact hsite site
  · simp [plain, Function.comp_def, Task.plain, Sleeper.plain]

variable {w} {w' : World α}

theorem foldl_runTask_congr (tasks : List Task) (h : w.plain = w'.plain) :
    (tasks.foldl runTask w).plain = ((tasks.map Task.plain).foldl runTask w').plain := by
  induction tasks generalizing w w' with
  | nil => exact h
  | cons t rest ih =>
      refine ih ?_
      rw [runTask_plain w t, h, runTask_plain w' t.plain, Task.plain_plain]

/-- Loads go on in the same way. -/
theorem runTasks_congr (h : w.plain = w'.plain) : w.runTasks.plain = w'.runTasks.plain := by
  have hready : w.ready.map Task.plain = w'.ready.map Task.plain := congrArg World.ready h
  have hrest : ({ w with ready := [] } : World α).plain =
      ({ w' with ready := [] } : World α).plain :=
    congrArg (fun w : World α => { w with ready := [] }) h
  rw [runTasks, runTasks, foldl_runTask_congr w.ready hrest, hready]
  exact (foldl_runTask_congr w'.ready rfl).symm

end World

/-! ### Calls -/

namespace Caller

variable (c : Caller) (w : World α)

theorem finish_plain (outcome : Outcome Reply) :
    c.plain.finish outcome = (c.finish outcome).plain := rfl

theorem isDone_plain : c.plain.isDone = c.isDone := by
  unfold isDone plain Progress.plain
  cases c.progress <;> rfl

/-- A call that ends, in a world in which only the site and the log have changed. -/
theorem plainly_finish (outcome : Outcome Reply) (site : Site α) :
    plainly (c.finish outcome, ({ w with site } : World α)) =
      plainly (c.plain.finish outcome, ({ w.plain with site } : World α)) := by
  simp [plainly, World.plain, Function.comp_def, finish_plain c outcome]

theorem conclude_plain (evicts : Option (Nat × String)) :
    plainly (c.conclude w evicts) = plainly (c.plain.conclude w.plain evicts) := by
  unfold conclude
  rw [plain_ending]
  cases outcomeOf c.call.script.ending with
  | error e => exact c.plainly_finish w _ _
  | ok reply =>
      rcases evicts with _ | ⟨policy, key⟩
      · exact c.plainly_finish w _ _
      · dsimp only
        rw [World.plain_site]
        by_cases hfirst : (w.site.policy policy).evictsFirst = true
        · rw [if_pos hfirst, if_pos hfirst]
          exact c.plainly_finish w _ _
        · rw [if_neg hfirst, if_neg hfirst]
          generalize w.site.evict policy key = result
          obtain ⟨_ | _, site⟩ := result
          · exact c.plainly_finish w _ _
          · exact c.plainly_finish w _ _

theorem playOwn_plain (rest : List Action) (evicts : Option (Nat × String)) :
    plainly (c.playOwn w rest evicts) = plainly (c.plain.playOwn w.plain (deeds rest) evicts) := by
  unfold playOwn
  rw [plain_number, World.play_plain]
  generalize w.play c.number rest = result
  obtain ⟨w', _ | ⟨wake, rest⟩⟩ := result
  · exact c.conclude_plain w' evicts
  · simp [plainly, plain, Progress.plain]

theorem await_plain (policy : Nat) (key : String) (load : Nat) :
    (c.await w policy key load).plain = (c.plain.await w.plain policy key load).plain :=
  (plain_plain (c.await w policy key load)).symm

/-- A load starts in the same way: the remark that it makes first is left out. -/
theorem start_plain (site : Site α) (key : String) (load : Nat) :
    ({ w with
      site
      ready := w.ready ++
        [⟨load, c.number, .log (missEvent key) :: c.call.script.actions, c.call.script.ending⟩] } :
      World α).plain =
    ({ w.plain with
      site
      ready := w.plain.ready ++
        [⟨load, c.number, .log (missEvent key) :: c.plain.call.script.actions,
          c.call.script.ending⟩] } : World α).plain := by
  have hrest : deeds (.log (missEvent key) :: c.plain.call.script.actions) =
      deeds (.log (missEvent key) :: c.call.script.actions) :=
    deeds_deeds c.call.script.actions
  simp [World.plain, Task.plain, Function.comp_def, hrest]

theorem read_plain (policy : Nat) (key : String) :
    plainly (c.read w policy key) = plainly (c.plain.read w.plain policy key) := by
  unfold read
  rw [World.plain_site]
  generalize w.site.lookup policy key = result
  obtain ⟨_ | _ | entry, site⟩ := result
  · exact c.plainly_finish w _ _
  · dsimp only
    cases site.flight? policy key with
    | some load =>
        refine Prod.ext (c.await_plain { w with site } policy key load) ?_
        exact (World.plain_plain { w with site }).symm
    | none =>
        refine Prod.ext ?_ (c.start_plain w _ key _)
        exact c.await_plain { w with site := (site.register policy key).2 } policy key _
  · exact c.plainly_finish w _ _

theorem write_plain (policy : Nat) (key : String) :
    plainly (c.write w policy key) = plainly (c.plain.write w.plain policy key) := by
  unfold write
  rw [World.plain_site]
  by_cases hfirst : (w.site.policy policy).evictsFirst = true
  · rw [if_pos hfirst, if_pos hfirst]
    generalize w.site.evict policy key = result
    obtain ⟨_ | _, site⟩ := result
    · exact c.plainly_finish w _ _
    · exact c.playOwn_plain { w with site } _ _
  · rw [if_neg hfirst, if_neg hfirst]
    exact c.playOwn_plain w _ _

theorem begin_plain : plainly (c.begin w) = plainly (c.plain.begin w.plain) := by
  unfold begin
  cases hattachment : c.call.attachment with
  | none =>
      have hplain : c.plain.call.attachment = none := hattachment
      simp only [hattachment, hplain]
      exact playOwn_plain { c with deadline := c.call.timeout.map w.after } w _ _
  | some attachment =>
      have hplain : c.plain.call.attachment = some attachment := hattachment
      simp only [hattachment, hplain]
      cases goodKey attachment.key with
      | error e => exact plainly_finish { c with deadline := c.call.timeout.map w.after } w _ w.site
      | ok key =>
          cases attachment.use with
          | read => exact read_plain { c with deadline := c.call.timeout.map w.after } w _ key
          | evict => exact write_plain { c with deadline := c.call.timeout.map w.after } w _ key

theorem look_plain (policy : Nat) (key : String) (load : Nat) (wake : Option Nat) :
    plainly (c.look w policy key load wake) =
      plainly (c.plain.look w.plain policy key load wake) := by
  have hstay : plainly (c, w) = plainly (c.plain, w.plain) := (plainly_plainly (c, w)).symm
  unfold look
  rw [World.plain_site]
  cases w.site.outcome? load with
  | some ending =>
      cases ending with
      | returned outcome => exact c.plainly_finish w _ w.site
      | panicked => exact c.plainly_finish w _ w.site
  | none =>
      cases (w.site.policy policy).waitLimit with
      | none => exact hstay
      | some limit =>
          cases wake with
          | none => exact hstay
          | some wake =>
              dsimp only
              by_cases hlate : wake ≤ w.now
              · have hplain : wake ≤ w.plain.now := hlate
                rw [if_pos hlate, if_pos hplain]
                exact c.plainly_finish w _ w.site
              · have hplain : ¬wake ≤ w.plain.now := hlate
                rw [if_neg hlate, if_neg hplain]
                exact hstay

theorem advance_plain : plainly (c.advance w) = plainly (c.plain.advance w.plain) := by
  have hstay : plainly (c, w) = plainly (c.plain, w.plain) := (plainly_plainly (c, w)).symm
  unfold advance
  rw [plain_progress, World.plain_now]
  cases c.progress with
  | starting wake =>
      dsimp only [Progress.plain]
      split
      · exact c.begin_plain w
      · exact hstay
  | playing wake rest evicts =>
      dsimp only [Progress.plain]
      split
      · exact c.playOwn_plain w rest evicts
      · exact hstay
  | waiting policy key load wake => exact c.look_plain w policy key load wake
  | done outcome => exact hstay

theorem expire_plain (now : Nat) : c.plain.expire now = (c.expire now).plain := by
  unfold expire
  rw [isDone_plain, plain_timeout, plain_deadline]
  split
  · split <;> rfl
  · rfl

/-- A call goes on in the same way. -/
theorem poll_congr {c c' : Caller} {w w' : World α} (hc : c.plain = c'.plain)
    (hw : w.plain = w'.plain) : plainly (c.poll w) = plainly (c'.poll w') := by
  have hadvance : plainly (c.advance w) = plainly (c'.advance w') := by
    rw [advance_plain, hc, hw, ← advance_plain]
  unfold poll
  generalize c.advance w = result at hadvance
  generalize c'.advance w' = result' at hadvance
  obtain ⟨hcaller, hworld⟩ := Prod.ext_iff.1 hadvance
  obtain ⟨-, hnow, -⟩ := World.eq_of_plain hworld
  refine Prod.ext ?_ hworld
  exact (result.1.expire_plain _).symm.trans
    ((congrArg₂ expire hcaller hnow).trans (result'.1.expire_plain _))

theorem wakes_plain : c.plain.wakes = c.wakes := by
  unfold wakes
  rw [isDone_plain, plain_progress]
  cases c.progress <;> rfl

end Caller

/-! ### Time -/

namespace World

variable {w w' : World α} {callers callers' : List Caller}

/-- All calls go on in the same way. -/
theorem pollAll_congr (hcallers : callers.map Caller.plain = callers'.map Caller.plain)
    (hw : w.plain = w'.plain) :
    (w.pollAll callers).1.map Caller.plain = (w'.pollAll callers').1.map Caller.plain ∧
      (w.pollAll callers).2.plain = (w'.pollAll callers').2.plain := by
  induction callers generalizing callers' w w' with
  | nil =>
      obtain rfl := List.map_eq_nil_iff.1 hcallers.symm
      exact ⟨rfl, hw⟩
  | cons c rest ih =>
      obtain ⟨c', rest', rfl, hc, hrest⟩ := List.map_eq_cons_iff.1 hcallers.symm
      obtain ⟨hcaller, hworld⟩ := Prod.ext_iff.1 (Caller.poll_congr hc.symm hw)
      obtain ⟨hlist, hlast⟩ := ih hrest.symm hworld
      refine ⟨?_, hlast⟩
      exact congrArg₂ List.cons hcaller hlist

theorem nextWake?_congr (hcallers : callers.map Caller.plain = callers'.map Caller.plain)
    (hw : w.plain = w'.plain) : w.nextWake? callers = w'.nextWake? callers' := by
  have hwakes (cs : List Caller) : (cs.map Caller.plain).flatMap Caller.wakes =
      cs.flatMap Caller.wakes := by
    simp [List.flatMap_map, Caller.wakes_plain]
  have hsleepers (ss : List Sleeper) : (ss.map Sleeper.plain).map Sleeper.wake =
      ss.map Sleeper.wake := by
    simp [Sleeper.plain, Function.comp_def]
  have hsleeping : w.sleeping.map Sleeper.plain = w'.sleeping.map Sleeper.plain :=
    congrArg World.sleeping hw
  rw [nextWake?, nextWake?, ← hwakes, hcallers, hwakes, ← hsleepers, hsleeping, hsleepers]

theorem passTo_plain (w : World α) (time : Nat) :
    (w.passTo time).plain = w.plain.passTo time := by
  have hpartition : (w.sleeping.map Sleeper.plain).partition (fun s => decide (s.wake ≤ time)) =
      ((w.sleeping.partition fun s => decide (s.wake ≤ time)).1.map Sleeper.plain,
        (w.sleeping.partition fun s => decide (s.wake ≤ time)).2.map Sleeper.plain) := by
    simp only [List.partition_eq_filter_filter, List.filter_map]
    rfl
  unfold passTo
  simp only [plain, hpartition, List.map_append, List.map_map]
  rfl

theorem all_isDone_congr (h : callers.map Caller.plain = callers'.map Caller.plain) :
    callers.all Caller.isDone = callers'.all Caller.isDone := by
  have hplain (cs : List Caller) : (cs.map Caller.plain).all Caller.isDone =
      cs.all Caller.isDone := by
    rw [List.all_map]
    exact congrArg cs.all (funext Caller.isDone_plain)
  rw [← hplain, h, hplain]

/-- Calls and tasks go on in the same way until all calls have ended. -/
theorem drive_congr (fuel : Nat)
    (hcallers : callers.map Caller.plain = callers'.map Caller.plain) (hw : w.plain = w'.plain) :
    (drive fuel callers w).1.map Caller.plain = (drive fuel callers' w').1.map Caller.plain ∧
      (drive fuel callers w).2.plain = (drive fuel callers' w').2.plain := by
  -- each round is: all calls, then the tasks, then perhaps time
  induction fuel generalizing callers callers' w w' with
  | zero => exact ⟨hcallers, hw⟩
  | succ fuel ih =>
      obtain ⟨hpolled, hworld⟩ := pollAll_congr hcallers hw
      unfold drive
      generalize w.pollAll callers = polled at hpolled hworld
      generalize w'.pollAll callers' = polled' at hpolled hworld
      obtain ⟨callers, w⟩ := polled
      obtain ⟨callers', w'⟩ := polled'
      dsimp only at hpolled hworld ⊢
      have htasks := runTasks_congr hworld
      obtain ⟨hsite, -⟩ := eq_of_plain hworld
      obtain ⟨hran, -⟩ := eq_of_plain htasks
      rw [all_isDone_congr hpolled, hsite, hran, nextWake?_congr hpolled htasks]
      split
      · exact ⟨hpolled, hworld⟩
      · split
        · exact ih hpolled htasks
        · split
          · refine ih hpolled ?_
            rw [passTo_plain, htasks, passTo_plain]
          · exact ⟨hpolled, htasks⟩

/-! ### From start to end -/

theorem starting_plain (w : World α) (calls : List Call) :
    (w.starting calls).map Caller.plain = w.plain.starting (calls.map Call.plain) := by
  unfold starting
  refine List.ext_getElem (by simp) ?_
  intro i h₁ h₂
  simp only [List.getElem_map, List.getElem_mapIdx]
  rfl

theorem report_plain (c : Caller) : report c.plain = report c := by
  unfold report
  rw [Caller.plain_progress]
  cases c.progress <;> rfl

theorem work_plain (w : World α) (callers : List Caller) :
    w.plain.work (callers.map Caller.plain) = w.work callers := by
  have hcallers : (callers.map Caller.plain).map (fun c => 2 * c.work) =
      callers.map fun c => 2 * c.work := by
    simp [Caller.work, Caller.plain, Call.plain, pauses_deeds]
  have htasks : ((w.ready ++ w.sleeping.map Sleeper.task).map Task.plain).map
      (fun t => pauses t.rest + 4) =
      (w.ready ++ w.sleeping.map Sleeper.task).map fun t => pauses t.rest + 4 := by
    rw [List.map_map]
    exact List.map_congr_left fun t _ => congrArg (· + 4) (pauses_deeds t.rest)
  have hready : w.plain.ready ++ w.plain.sleeping.map Sleeper.task =
      (w.ready ++ w.sleeping.map Sleeper.task).map Task.plain := by
    simp [plain, Sleeper.plain, Function.comp_def]
  rw [work, work, hready, hcallers, htasks]

/-- **Calls are performed in the same way**, remarks aside: with the same outcomes, and leaving the
same site, statements and totals. -/
theorem perform_congr {calls calls' : List Call}
    (hcalls : calls.map Call.plain = calls'.map Call.plain) (hw : w.plain = w'.plain) :
    (w.perform calls).1 = (w'.perform calls').1 ∧
      (w.perform calls).2.plain = (w'.perform calls').2.plain := by
  have hstarting : (w.starting calls).map Caller.plain = (w'.starting calls').map Caller.plain := by
    rw [starting_plain, hcalls, hw, starting_plain]
  have hfuel : w.work (w.starting calls) = w'.work (w'.starting calls') := by
    rw [← work_plain, hstarting, hw, work_plain]
  have hlength : calls.length = calls'.length := by
    simpa using congrArg List.length hcalls
  obtain ⟨-, -, hcount, -⟩ := eq_of_plain hw
  have hworld : ({ w with calls := w.calls + calls.length } : World α).plain =
      ({ w' with calls := w'.calls + calls'.length } : World α).plain := by
    rw [hlength, hcount]
    exact congrArg (fun w : World α => { w with calls := w'.calls + calls'.length }) hw
  have hreport (cs : List Caller) : (cs.map Caller.plain).map report = cs.map report := by
    simp [report_plain]
  obtain ⟨hlist, hlast⟩ := drive_congr (w.work (w.starting calls)) hstarting hworld
  rw [perform_eq, perform_eq, ← hfuel]
  refine ⟨?_, hlast⟩
  dsimp only
  rw [← hreport, hlist, hreport]

end World

end SqlAccess.Cache
