/-
**The assignments of a `SET` clause.**

A clause is filled step by step, and a member that is blank when it is offered is dropped; a `SET`
clause without members is refused.  The commas at the end of a member are cut off later, when the
text of the clause is put together, and so are the blanks before them, once each.  So an assignment
comes out as it should exactly where blanks, commas and blanks, in this order, are all that follows
it.  Commas that stand apart from one another are not all cut off, and of a member of commas only
nothing is left, but it counts.

Main definitions:

* `SqlAccess.Clause.Step`, `SqlAccess.Clause.fill` — ways to offer a member, and the clause that
  they fill;
* `SqlAccess.Clause.members` — the members that are kept, as they were offered;
* `SqlAccess.Clause.IsAssignment` — a text that is not blank and ends in no comma and no blank;
* `SqlAccess.Clause.Tidy` — an assignment with blanks, commas and blanks behind it.

Main results:

* `SqlAccess.Clause.fragments_fill` — what a clause holds;
* `SqlAccess.Clause.exists_cut_off`, `SqlAccess.Clause.isAssignment_assigned_iff` — what is cut off
  a member, and when an assignment is left;
* `SqlAccess.Builder.assignments_of_fill` — **the `SET` clause of any steps**;
* `SqlAccess.Clause.commas_are_left` — commas that are not cut off.
-/

import Mathlib.Data.List.Forall2
import SqlAccess.Proofs.Text.Trim
import SqlAccess.Statement.Builder

set_option autoImplicit false

namespace SqlAccess

namespace Clause

/-! ### Steps -/

/-- A way to offer a member to a clause. -/
inductive Step where
  | push (f : Fragment)
  /-- On a condition. -/
  | pushWhen (cond : Bool) (f : Fragment)
  /-- The first whose condition holds, or else a fallback. -/
  | pushFirst (branches : List (Bool × Fragment)) (otherwise : Option Fragment)

namespace Step

/-- The clause after a step. -/
def apply (c : Clause) : Step → Clause
  | push f => c.push f.text f.args
  | pushWhen cond f => c.pushWhen cond f.text f.args
  | pushFirst branches otherwise => c.pushFirst branches otherwise

/-- The member that a step offers, blank or not. -/
def offered? : Step → Option Fragment
  | push f => some f
  | pushWhen cond f => if cond then some f else none
  | pushFirst branches otherwise => ((branches.find? Prod.fst).map Prod.snd).or otherwise

end Step

/-- The clause that some steps fill. -/
def fill (steps : List Step) : Clause := steps.foldl Step.apply empty

/-- Whether a member is kept: blank ones are not. -/
def isKept (f : Fragment) : Bool := !Text.allBlank f.text.toList

/-- The members that are kept, as they were offered. -/
def members (steps : List Step) : List Fragment := (steps.filterMap Step.offered?).filter isKept

/-- A member as it is kept. -/
def kept (f : Fragment) : Fragment := ⟨Text.trimmed f.text, f.args⟩

theorem members_cons (step : Step) (steps : List Step) :
    members (step :: steps) = step.offered?.toList.filter isKept ++ members steps := by
  rw [members, members, List.filterMap_cons]
  cases step.offered? with
  | none => rfl
  | some f => rw [Option.toList_some, ← List.filter_append, List.singleton_append]

theorem fragments_push (c : Clause) (f : Fragment) :
    (c.push f.text f.args).fragments =
      c.fragments ++ ([f].filter isKept).map kept := by
  rw [push]
  split
  · rename_i hblank
    simp [isKept, hblank]
  · rename_i hblank
    simp [isKept, hblank, kept]

/-- A step adds what it offers. -/
theorem fragments_apply (c : Clause) (step : Step) :
    (step.apply c).fragments = c.fragments ++ (step.offered?.toList.filter isKept).map kept := by
  cases step with
  | push f => exact c.fragments_push f
  | pushWhen cond f =>
      cases cond with
      | true => exact c.fragments_push f
      | false => exact (List.append_nil _).symm
  | pushFirst branches otherwise =>
      rw [Step.apply, pushFirst, Step.offered?]
      cases ((branches.find? Prod.fst).map Prod.snd).or otherwise with
      | none => exact (List.append_nil _).symm
      | some f => exact c.fragments_push f

/-- **A clause holds what was offered to it and is not blank**, in the order of the steps. -/
theorem fragments_fill (steps : List Step) :
    (fill steps).fragments = (members steps).map kept := by
  suffices h : ∀ c : Clause,
      (steps.foldl Step.apply c).fragments = c.fragments ++ (members steps).map kept from h empty
  induction steps with
  | nil => exact fun c => (List.append_nil _).symm
  | cons step steps ih =>
      intro c
      rw [List.foldl_cons, ih, fragments_apply, members_cons, List.map_append, List.append_assoc]

/-! ### What is cut off -/

/-- The characters are all blanks or commas. -/
def IsEnding (cs : List Char) : Prop := ∀ c ∈ cs, c = ',' ∨ Text.isBlank c = true

/-- Not blank, and with neither a comma nor a blank at the end. -/
def IsAssignment (cs : List Char) : Prop :=
  Text.allBlank cs = false ∧ ∀ c ∈ cs.getLast?, c ≠ ',' ∧ Text.isBlank c = false

/-- Behind an assignment stand blanks, then commas, then blanks, as many of each as there may be. -/
def Tidy (cs : List Char) : Prop :=
  ∃ core blanks commas more, IsAssignment core ∧ Text.allBlank blanks = true ∧
    (∀ c ∈ commas, c = ',') ∧ Text.allBlank more = true ∧
    cs = core ++ (blanks ++ (commas ++ more))

/-- What is written for a member: the blanks at both ends are cut off, then the commas at the end,
then the blanks at the end. -/
def assigned (cs : List Char) : List Char :=
  Text.trimEnd (Text.dropTrailing (· == ',') (Text.trim cs))

theorem toList_assignment_kept (f : Fragment) :
    (assignment (kept f)).toList = assigned f.text.toList := by
  simp [assignment, kept, assigned, Text.trimmed]

variable {cs core more before : List Char}

/-- **What is cut off**: blanks in front, and blanks, commas and blanks at the end. -/
theorem exists_cut_off (cs : List Char) :
    ∃ before blanks commas more, Text.allBlank before = true ∧ Text.allBlank blanks = true ∧
      (∀ c ∈ commas, c = ',') ∧ Text.allBlank more = true ∧
      cs = before ++ (assigned cs ++ (blanks ++ (commas ++ more))) := by
  obtain ⟨before, more, hbefore, hmore, htrim⟩ := Text.exists_blanks_trim cs
  obtain ⟨commas, hcommas, hdrop⟩ := Text.exists_dropTrailing_append (· == ',') (Text.trim cs)
  obtain ⟨blanks, hblanks, hend⟩ := Text.exists_dropTrailing_append Text.isBlank
    (Text.dropTrailing (· == ',') (Text.trim cs))
  refine ⟨before, blanks, commas, more, hbefore, Text.allBlank_iff.2 hblanks,
    fun c hc => by simpa using hcommas c hc, hmore, ?_⟩
  calc cs = before ++ (Text.trim cs ++ more) := htrim
    _ = before ++ (Text.dropTrailing (· == ',') (Text.trim cs) ++ commas ++ more) := by
      rw [← hdrop]
    _ = before ++ (assigned cs ++ blanks ++ commas ++ more) := by
      rw [assigned, Text.trimEnd, ← hend]
    _ = _ := by simp only [List.append_assoc]

theorem isBlank_of_mem_getLast?_assigned {c : Char} (h : c ∈ (assigned cs).getLast?) :
    Text.isBlank c = false := Text.eq_false_of_mem_getLast?_dropTrailing h

namespace IsAssignment

theorem ne_nil (h : IsAssignment cs) : cs ≠ [] := by
  rintro rfl
  cases h.1

/-- More in front does not matter. -/
theorem append (h : IsAssignment cs) (before : List Char) : IsAssignment (before ++ cs) := by
  refine ⟨?_, ?_⟩
  · rw [Bool.eq_false_iff, ne_eq, Text.allBlank_append, not_and]
    exact fun _ hcs => Bool.false_ne_true (h.1.symm.trans hcs)
  · rw [List.getLast?_append_of_ne_nil before h.ne_nil]
    exact h.2

/-- An assignment begins behind the blanks in front of it. -/
theorem exists_core (h : IsAssignment cs) :
    ∃ front core, Text.allBlank front = true ∧ IsAssignment core ∧
      (∀ c ∈ core.head?, Text.isBlank c = false) ∧ cs = front ++ core := by
  obtain ⟨front, core, hfront, hhead, rfl⟩ : ∃ front core, Text.allBlank front = true ∧
      (∀ c ∈ core.head?, Text.isBlank c = false) ∧ cs = front ++ core := by
    refine ⟨cs.takeWhile Text.isBlank, cs.dropWhile Text.isBlank,
      Text.allBlank_iff.2 fun c hc => List.mem_takeWhile_imp hc, fun c hc => ?_,
      List.takeWhile_append_dropWhile.symm⟩
    have hnot := List.head?_dropWhile_not Text.isBlank cs
    rwa [hc] at hnot
  obtain ⟨hblank, hlast⟩ := h
  have hcore : Text.allBlank core = false := by
    rw [Bool.eq_false_iff]
    intro hcore
    exact Bool.false_ne_true (hblank.symm.trans (Text.allBlank_append.2 ⟨hfront, hcore⟩))
  have hne : core ≠ [] := by
    rintro rfl
    cases hcore
  rw [List.getLast?_append_of_ne_nil front hne] at hlast
  exact ⟨front, core, hfront, ⟨hcore, hlast⟩, hhead, rfl⟩

end IsAssignment

/-- An assignment is left of a member that is one, with blanks, commas and blanks behind it. -/
theorem assigned_eq {front blanks commas : List Char} (hcore : IsAssignment core)
    (hhead : ∀ c ∈ core.head?, Text.isBlank c = false) (hfront : Text.allBlank front = true)
    (hblanks : Text.allBlank blanks = true) (hcommas : ∀ c ∈ commas, c = ',')
    (hmore : Text.allBlank more = true) :
    assigned (front ++ (core ++ (blanks ++ (commas ++ more)))) = core := by
  have hstart (tail : List Char) : Text.trimStart (core ++ tail) = core ++ tail := by
    cases core with
    | nil => exact absurd rfl hcore.ne_nil
    | cons c core => exact List.dropWhile_cons_of_neg (by simp [hhead c rfl])
  have hcut : Text.dropTrailing (· == ',') (core ++ blanks) = core ++ blanks := by
    refine Text.dropTrailing_eq_self fun c hc => ?_
    rw [List.getLast?_append, Option.mem_def, Option.or_eq_some_iff] at hc
    rcases hc with hc | ⟨-, hc⟩
    · have hblank := Text.allBlank_iff.1 hblanks c (List.mem_of_mem_getLast? hc)
      rw [beq_eq_false_iff_ne]
      rintro rfl
      cases hblank
    · simpa using (hcore.2 c hc).1
  have hend : Text.trimEnd core = core := Text.dropTrailing_eq_self fun c hc => (hcore.2 c hc).2
  rw [assigned, Text.trim_blanks_append hfront, Text.trim, hstart, ← List.append_assoc,
    ← List.append_assoc, Text.trimEnd_append_blanks hmore]
  -- the commas stop the first trimming, if there are any
  cases commas with
  | nil =>
      have hcore' : Text.dropTrailing (· == ',') core = core :=
        Text.dropTrailing_eq_self fun c hc => by simpa using (hcore.2 c hc).1
      rw [List.append_nil, Text.trimEnd_append_blanks hblanks, hend, hcore', hend]
  | cons c commas =>
      have hstop : Text.trimEnd (core ++ blanks ++ c :: commas) =
          core ++ blanks ++ c :: commas := by
        refine Text.dropTrailing_eq_self fun d hd => ?_
        rw [List.getLast?_append_of_ne_nil _ (List.cons_ne_nil c commas)] at hd
        rw [hcommas d (List.mem_of_mem_getLast? hd)]
        rfl
      rw [hstop, Text.dropTrailing_append fun d hd => by simpa using hcommas d hd, hcut,
        Text.trimEnd_append_blanks hblanks, hend]

/-- **An assignment is left of a member exactly if it is tidy.** -/
theorem isAssignment_assigned_iff : IsAssignment (assigned cs) ↔ Tidy cs := by
  constructor
  · intro h
    obtain ⟨before, blanks, commas, more, -, hblanks, hcommas, hmore, heq⟩ := exists_cut_off cs
    refine ⟨before ++ assigned cs, blanks, commas, more, h.append before, hblanks, hcommas, hmore,
      ?_⟩
    rw [List.append_assoc]
    exact heq
  · rintro ⟨core, blanks, commas, more, hcore, hblanks, hcommas, hmore, rfl⟩
    obtain ⟨front, start, hfront, hstart, hhead, rfl⟩ := hcore.exists_core
    rwa [List.append_assoc, assigned_eq hstart hhead hfront hblanks hcommas hmore]

end Clause

/-! ### The `SET` clause -/

open Clause in
/-- **The `SET` clause of any steps** is refused if all members that they offer are blank.  Else it
adds one part, `SET` and a list with commas between: for each member, in the order of the steps,
what is left without the blanks in front of it and without some commas and blanks at its end, never
with a blank at the end; and this is an assignment exactly if the member is tidy. -/
theorem Builder.assignments_of_fill (steps : List Clause.Step) (b : Builder) :
    (members steps = [] ∧ b.pushSet? (fill steps) = .error .emptySet) ∨
    ∃ assignments : List String, assignments ≠ [] ∧
      b.pushSet? (fill steps) = .ok ⟨b.parts ++ ["SET " ++ String.intercalate ", " assignments],
        b.args ++ (members steps).flatMap Fragment.args⟩ ∧
      List.Forall₂ (fun f a =>
          (∃ before after, Text.allBlank before = true ∧ IsEnding after ∧
            f.text.toList = before ++ (a.toList ++ after)) ∧
          (∀ c ∈ a.toList.getLast?, Text.isBlank c = false) ∧
          (IsAssignment a.toList ↔ Tidy f.text.toList))
        (members steps) assignments := by
  have hfragments := fragments_fill steps
  cases hmembers : members steps with
  | nil =>
      refine .inl ⟨rfl, if_pos ?_⟩
      rw [isEmpty, hfragments, hmembers]
      rfl
  | cons f rest =>
      rw [← hmembers]
      refine .inr ⟨(members steps).map fun f => assignment (kept f), ?_, ?_, ?_⟩
      · simp [hmembers]
      · have hne : (fill steps).isEmpty = false := by rw [isEmpty, hfragments, hmembers]; rfl
        rw [pushSet?, if_neg (by simp [hne]), setText, Clause.args, hfragments, List.map_map,
          List.flatMap_map]
        rfl
      · refine List.forall₂_map_right_iff.2 (List.forall₂_same.2 fun f _ => ?_)
        obtain ⟨before, blanks, commas, more, hbefore, hblanks, hcommas, hmore, heq⟩ :=
          exists_cut_off f.text.toList
        rw [toList_assignment_kept]
        refine ⟨⟨before, blanks ++ (commas ++ more), hbefore, ?_, heq⟩,
          fun c hc => isBlank_of_mem_getLast?_assigned hc, isAssignment_assigned_iff⟩
        simp only [IsEnding, List.forall_mem_append]
        exact ⟨fun c hc => .inr (Text.allBlank_iff.1 hblanks c hc),
          fun c hc => .inl (hcommas c hc), fun c hc => .inr (Text.allBlank_iff.1 hmore c hc)⟩

/-- Of the members one is left out on its condition, one is a fallback, and one is blank. -/
example : (Builder.empty.pushSet? (Clause.fill [
    .push ⟨" a = ? ,, ", [.int 1]⟩, .pushWhen false ⟨"b = 2", []⟩,
    .pushFirst [(false, ⟨"c = 3", []⟩)] (some ⟨"d = 4,", []⟩),
    .push ⟨" ", []⟩])).map Builder.parts = .ok ["SET a = ?, d = 4"] := by decide

namespace Clause

/-- **Not all commas are cut off**: a member of one comma is no assignment, yet it counts, and what
is added is `SET` with nothing behind it, which is no list of assignments; and of two commas with a
blank between them one is left. -/
theorem commas_are_left :
    (Builder.empty.pushSet? (fill [.push ⟨",", []⟩])).map Builder.parts = .ok ["SET "] ∧
      (¬ ∃ assignments : List String, assignments ≠ [] ∧
        "SET " ++ String.intercalate ", " assignments = "SET " ∧
        ∀ a ∈ assignments, IsAssignment a.toList) ∧
      (Builder.empty.pushSet? (fill [.push ⟨"a = 1, ,", []⟩])).map Builder.parts =
        .ok ["SET a = 1,"] := by
  refine ⟨by decide, ?_, by decide⟩
  rintro ⟨assignments, hne, htext, hall⟩
  obtain ⟨a, rest, rfl⟩ := List.exists_cons_of_ne_nil hne
  -- nothing is left for the first assignment
  have hnil : ", ".toList.intercalate (a.toList :: rest.map String.toList) = [] := by
    have hlist := congrArg String.toList htext
    rw [String.toList_append, String.toList_intercalate] at hlist
    exact List.append_right_eq_self.1 hlist
  have hfirst : a.toList = [] := by
    cases rest with
    | nil => simpa using hnil
    | cons next rest =>
        rw [List.map_cons, List.intercalate_cons_cons] at hnil
        simp at hnil
  exact (hall a List.mem_cons_self).ne_nil hfirst

end Clause

end SqlAccess
