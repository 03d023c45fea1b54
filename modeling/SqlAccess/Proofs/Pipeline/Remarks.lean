/-
**Remarks.**

Some actions only tell of a call: entries in the log, and notes.  What is left of a trace without
them is what has been done.  Two runs are alike if they do the same and end in the same way,
whatever has been remarked before them or is remarked by them.  Being alike is no reflexive
relation: a run that reads the remarks need not be alike to itself.

Main definitions:

* `SqlAccess.Action.deeds` — a trace without remarks;
* `SqlAccess.Run.Alike` — runs that do the same and end in the same way.

Main results:

* `SqlAccess.Run.Alike.bind` — runs put together from alike runs are alike;
* `SqlAccess.Run.Alike.remark_left` — **a remark makes no difference**;
* `SqlAccess.Executor.alike_perform` — an executor does not see remarks.
-/

import SqlAccess.Proofs.Pipeline.Trace

set_option autoImplicit false

namespace SqlAccess

/-! ### Deeds -/

namespace Action

/-- Whether an action only tells of a call. -/
def isRemark : Action → Bool
  | log _ | note _ => true
  | _ => false

/-- A trace without remarks. -/
def deeds (t : List Action) : List Action := t.filter fun a => !a.isRemark

variable {t t' : List Action} {a : Action}

@[simp] theorem deeds_nil : deeds [] = [] := rfl

@[simp] theorem deeds_append (t t' : List Action) : deeds (t ++ t') = deeds t ++ deeds t' :=
  List.filter_append ..

theorem deeds_cons_of_remark (h : a.isRemark = true) (t : List Action) :
    deeds (a :: t) = deeds t := by
  simp [deeds, h]

theorem deeds_cons_of_deed (h : a.isRemark = false) (t : List Action) :
    deeds (a :: t) = a :: deeds t := by
  simp [deeds, h]

theorem deeds_concat_of_remark (h : a.isRemark = true) (t : List Action) :
    deeds (t ++ [a]) = deeds t := by
  rw [deeds_append, deeds_cons_of_remark h, deeds_nil, List.append_nil]

@[simp] theorem deeds_deeds (t : List Action) : deeds (deeds t) = deeds t := by
  simp [deeds, List.filter_filter]

/-- Statements are no remarks. -/
theorem statements_deeds (t : List Action) : statements (deeds t) = statements t := by
  rw [statements, statements, deeds, List.filterMap_filter]
  congr
  funext a
  cases a <;> rfl

/-- Totals are no remarks. -/
theorem totalsIn_deeds (t : List Action) : totalsIn (deeds t) = totalsIn t := by
  rw [totalsIn, totalsIn, deeds, List.filterMap_filter]
  congr
  funext a
  cases a <;> rfl

theorem statements_eq_of_deeds (h : deeds t = deeds t') : statements t = statements t' := by
  rw [← statements_deeds, h, statements_deeds]

theorem totalsIn_eq_of_deeds (h : deeds t = deeds t') : totalsIn t = totalsIn t' := by
  rw [← totalsIn_deeds, h, totalsIn_deeds]

end Action

open SqlAccess.Action

/-! ### Alike runs -/

namespace Run

variable {α β : Type}

/-- Two runs do the same and end in the same way, remarks aside. -/
def Alike (r r' : Run α) : Prop :=
  ∀ ⦃t t'⦄, deeds t = deeds t' →
    (r.playFrom t).1 = (r'.playFrom t').1 ∧ deeds (r.playFrom t).2 = deeds (r'.playFrom t').2

namespace Alike

variable {r r' : Run α} {f f' : α → Run β}

theorem symm (h : r.Alike r') : r'.Alike r := by
  intro t t' ht
  obtain ⟨h₁, h₂⟩ := h ht.symm
  exact ⟨h₁.symm, h₂.symm⟩

theorem ofOutcome (o : Outcome α) : (Run.ofOutcome o).Alike (Run.ofOutcome o) := by
  intro t t' ht
  rw [playFrom_ofOutcome, playFrom_ofOutcome]
  exact ⟨rfl, ht⟩

theorem pure (a : α) : (Pure.pure a : Run α).Alike (Pure.pure a) := ofOutcome (.ok a)

theorem emit (a : Action) : (Run.emit a).Alike (Run.emit a) := by
  intro t t' ht
  rw [playFrom_emit, playFrom_emit, deeds_append, deeds_append, ht]
  exact ⟨rfl, rfl⟩

theorem bind (h : r.Alike r') (hf : ∀ a, (f a).Alike (f' a)) : (r >>= f).Alike (r' >>= f') := by
  intro t t' ht
  have hr := h ht
  rw [playFrom_bind, playFrom_bind]
  generalize r.playFrom t = p at hr
  generalize r'.playFrom t' = p' at hr
  obtain ⟨o, u⟩ := p
  obtain ⟨o', u'⟩ := p'
  obtain ⟨ho, hu⟩ := hr
  obtain rfl : o = o' := ho
  cases o with
  | error e => exact ⟨rfl, hu⟩
  | ok a => exact hf a hu

theorem attempt (h : r.Alike r') : r.attempt.Alike r'.attempt := by
  intro t t' ht
  rw [playFrom_attempt, playFrom_attempt]
  exact ⟨congrArg Except.ok (h ht).1, (h ht).2⟩

/-- Runs that look at the trace are alike if they do not look at remarks. -/
theorem look {g g' : List Action → Run β}
    (h : ∀ t t', deeds t = deeds t' → (g t).Alike (g' t')) :
    (trace >>= g).Alike (trace >>= g') := by
  intro t t' ht
  rw [playFrom_trace_bind, playFrom_trace_bind]
  exact h t t' ht ht

/-- **A remark makes no difference.** -/
theorem remark_left {a : Action} (ha : a.isRemark = true) {g : Unit → Run α}
    (h : (g ()).Alike r') : (Run.emit a >>= g).Alike r' := by
  intro t t' ht
  rw [playFrom_emit_bind]
  exact h ((deeds_concat_of_remark ha t).trans ht)

/-- Events that are logged make no difference. -/
theorem logged_left (events : List LogEvent) (h : r.Alike r') :
    (Run.logged events r).Alike r' := by
  induction events with
  | nil => exact h
  | cons e rest ih => exact remark_left rfl ih

theorem ite {p : Prop} [Decidable p] {s s' : Run α} (h : r.Alike r') (hs : s.Alike s') :
    (if p then r else s).Alike (if p then r' else s') := by
  split
  · exact h
  · exact hs

end Alike

end Run

/-- An executor does not see remarks: its answers depend on statements only. -/
theorem Executor.alike_perform {α : Type} (e : Executor) (method : Method) (sql : String)
    (args : List Value) (answer : List Statement → BoundSql → Outcome α) :
    (e.perform method sql args answer).Alike (e.perform method sql args answer) := by
  intro t t' ht
  rw [playFrom_perform, playFrom_perform, statements_eq_of_deeds ht, deeds_append, deeds_append, ht]
  exact ⟨rfl, rfl⟩

theorem Executor.alike_queryRow (e : Executor) (sql : String) (args : List Value) :
    (e.queryRow sql args).Alike (e.queryRow sql args) :=
  (e.alike_perform ..).bind fun _ => .pure _

end SqlAccess
