/-
**Pipelines as nested stages.**

A pipeline counts how many of its stages are passed.  What is left of it is the same as its
remaining stages folded around the terminal: each stage is wrapped around all that comes behind it.

Main definitions:

* `SqlAccess.Next.through` — stages before a rest, each around all that comes behind it;
* `SqlAccess.Next.nested` — stages around a terminal.

Main results:

* `SqlAccess.Next.behind_eq_nested`, `SqlAccess.Next.ofStages_eq_nested` — **what is left of a
  pipeline is its remaining stages, nested**.
-/

import SqlAccess.Pipeline.Interceptor

set_option autoImplicit false

namespace SqlAccess

/-! ### Nesting -/

/-- A stage before a rest. -/
def Interceptor.before (stage : Interceptor) (rest : Next) : Next :=
  ⟨rest.remaining + 1, fun request => stage request rest⟩

namespace Next

/-- Stages before a rest, each around all that comes behind it. -/
def through (stages : List Interceptor) (rest : Next) : Next :=
  stages.foldr Interceptor.before rest

/-- No stage, only the terminal. -/
def last (terminal : Terminal) : Next := ⟨0, terminal⟩

/-- Stages around a terminal. -/
def nested (stages : List Interceptor) (terminal : Terminal) : Next :=
  through stages (last terminal)

variable {stages : List Interceptor} {terminal : Terminal} {passed : Nat}

@[simp] theorem through_nil (rest : Next) : through [] rest = rest := rfl

@[simp] theorem through_cons (stage : Interceptor) (stages : List Interceptor) (rest : Next) :
    through (stage :: stages) rest = stage.before (through stages rest) := rfl

/-! ### Counting the stages passed -/

/-- The stage at a position is before what is left behind it. -/
theorem behind_of_lt (h : passed < stages.length) :
    behind stages terminal passed =
      stages[passed].before (behind stages terminal (passed + 1)) := by
  have hleft : stages.length - passed = stages.length - (passed + 1) + 1 := by omega
  rw [behind, Interceptor.before, remaining_behind, ← hleft]
  congr 1
  funext request
  split
  · rename_i hnone
    rw [List.getElem?_eq_getElem h] at hnone
    cases hnone
  · rename_i stage hstage
    rw [List.getElem?_eq_getElem h] at hstage
    obtain rfl := Option.some.inj hstage
    rfl

theorem behind_of_le (h : stages.length ≤ passed) :
    behind stages terminal passed = last terminal := by
  rw [behind, last, Nat.sub_eq_zero_of_le h]
  congr 1
  funext request
  split
  · rfl
  · rename_i stage hstage
    rw [List.getElem?_eq_none h] at hstage
    cases hstage

/-- **What is left of a pipeline is its remaining stages, nested.** -/
theorem behind_eq_nested (stages : List Interceptor) (terminal : Terminal) (passed : Nat) :
    behind stages terminal passed = nested (stages.drop passed) terminal := by
  -- the induction is on the number of stages left
  induction hleft : stages.length - passed generalizing passed with
  | zero =>
      have hle : stages.length ≤ passed := by omega
      rw [behind_of_le hle, List.drop_eq_nil_of_le hle, nested, through_nil]
  | succ left ih =>
      have hlt : passed < stages.length := by omega
      rw [behind_of_lt hlt, ih (passed + 1) (by omega), List.drop_eq_getElem_cons hlt, nested,
        nested, through_cons]

theorem ofStages_eq_nested (stages : List Interceptor) (terminal : Terminal) :
    ofStages stages terminal = nested stages terminal :=
  behind_eq_nested stages terminal 0

end Next

end SqlAccess
