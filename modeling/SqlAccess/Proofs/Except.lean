/-
**Computations that may fail.**

What a successful computation says of its parts: both halves of a sequence succeed, and a loop that
succeeds has kept whatever each of its steps keeps.  And when two computations agree, of which one
goes on where the other has given up.

Main definitions:

* `SqlAccess.Except.Mends` — one computation does what another does, but for some of its failures.

Main results:

* `SqlAccess.Except.bind_eq_ok_iff`, `SqlAccess.Except.map_eq_ok_iff`,
  `SqlAccess.Except.map_eq_error_iff` — sequences and results put to use;
* `SqlAccess.Except.mapM_eq_ok_iff` — when a loop over a list succeeds, and with which results;
* `SqlAccess.Except.exists_error_of_mapM` — a loop fails with one of the steps;
* `SqlAccess.Except.foldlM_ok` — what a loop keeps;
* `SqlAccess.Except.foldlM_eq_ok`, `SqlAccess.Except.foldlM_eq_error_iff` — a loop whose steps are
  known;
* `SqlAccess.Except.Mends.eq_iff` — the two computations agree just where no failure is mended.
-/

import Mathlib.Data.List.Forall2

set_option autoImplicit false

namespace SqlAccess.Except

variable {ε α β σ : Type}

theorem bind_eq_ok_iff {x : Except ε α} {f : α → Except ε β} {b : β} :
    x >>= f = .ok b ↔ ∃ a, x = .ok a ∧ f a = .ok b := by
  cases x with
  | error e => simp [bind, Except.bind]
  | ok a => simp [bind, Except.bind]

theorem map_eq_ok_iff {x : Except ε α} {f : α → β} {b : β} :
    x.map f = .ok b ↔ ∃ a, x = .ok a ∧ f a = b := by
  cases x with
  | error e => simp [Except.map]
  | ok a => simp [Except.map]

theorem map_eq_error_iff {x : Except ε α} {f : α → β} {e : ε} :
    x.map f = .error e ↔ x = .error e := by
  cases x with
  | error e' => simp [Except.map]
  | ok a => simp [Except.map]

theorem map_eq_bind (x : Except ε α) (f : α → β) : x.map f = (do return f (← x)) := by
  cases x with
  | error e => rfl
  | ok a => rfl

/-- Each result of a loop belongs to the item at its place. -/
theorem forall₂_of_mapM {f : α → Except ε β} {xs : List α} {ys : List β}
    (h : xs.mapM f = .ok ys) : List.Forall₂ (fun x y => f x = .ok y) xs ys := by
  induction xs generalizing ys with
  | nil =>
      obtain rfl : ys = [] := by simpa [pure, Except.pure, eq_comm] using h
      exact .nil
  | cons x xs ih =>
      rw [List.mapM_cons] at h
      obtain ⟨y, hy, h⟩ := bind_eq_ok_iff.1 h
      obtain ⟨zs, hzs, h⟩ := bind_eq_ok_iff.1 h
      cases h
      exact .cons hy (ih hzs)

/-- **A loop succeeds** just if each of its steps does. -/
theorem mapM_eq_ok_iff {f : α → Except ε β} {xs : List α} {ys : List β} :
    xs.mapM f = .ok ys ↔ List.Forall₂ (fun x y => f x = .ok y) xs ys := by
  refine ⟨forall₂_of_mapM, fun h => ?_⟩
  induction h with
  | nil => rfl
  | cons hx _ ih =>
      rw [List.mapM_cons, hx, ih]
      rfl

/-- Where one step of a loop fails, the loop fails with the cause of a step. -/
theorem exists_error_of_mapM {f : α → Except ε β} {xs : List α} {x : α} {e : ε} (hx : x ∈ xs)
    (h : f x = .error e) : ∃ y ∈ xs, ∃ e', f y = .error e' ∧ xs.mapM f = .error e' := by
  induction xs with
  | nil => cases hx
  | cons z zs ih =>
      rw [List.mapM_cons]
      cases hz : f z with
      | error e' => exact ⟨z, List.mem_cons_self, e', hz, rfl⟩
      | ok b =>
          rcases List.mem_cons.1 hx with rfl | hx
          · rw [hz] at h
            cases h
          · obtain ⟨y, hy, e', he', hrest⟩ := ih hx
            exact ⟨y, List.mem_cons_of_mem z hy, e', he', by rw [hrest]; rfl⟩

/-- What holds before a loop and is kept by each successful step, the steps taken so far in view,
holds after a successful run. -/
theorem foldlM_ok {f : σ → α → Except ε σ} {xs : List α} {s s' : σ} (kept : List α → σ → Prop)
    (hstart : kept [] s)
    (hstep : ∀ done x s s', x ∈ xs → kept done s → f s x = .ok s' → kept (done ++ [x]) s')
    (h : xs.foldlM f s = .ok s') : kept xs s' := by
  suffices hrun : ∀ ys done s, (∀ y ∈ ys, y ∈ xs) → kept done s → ys.foldlM f s = .ok s' →
      kept (done ++ ys) s' by
    simpa using hrun xs [] s (fun _ hy => hy) hstart h
  intro ys
  -- the steps still to be taken
  induction ys with
  | nil =>
      intro done s _ hs h
      obtain rfl : s = s' := by simpa [pure, Except.pure] using h
      simpa using hs
  | cons y ys ih =>
      intro done s hmem hs h
      rw [List.foldlM_cons] at h
      obtain ⟨t, ht, hrest⟩ := bind_eq_ok_iff.1 h
      have hkept := hstep done y s t (hmem y List.mem_cons_self) hs ht
      simpa using ih (done ++ [y]) t (fun z hz => hmem z (List.mem_cons_of_mem _ hz)) hkept hrest

/-! ### Loops whose steps are known -/

/-- Loops that take the same steps on their items. -/
theorem foldlM_congr {f g : σ → α → Except ε σ} {xs : List α}
    (h : ∀ x ∈ xs, ∀ s, f s x = g s x) (s : σ) : xs.foldlM f s = xs.foldlM g s := by
  induction xs generalizing s with
  | nil => rfl
  | cons x xs ih =>
      rw [List.forall_mem_cons] at h
      rw [List.foldlM_cons, List.foldlM_cons, h.1 s]
      exact congrArg (g s x >>= ·) (funext fun s' => ih h.2 s')

theorem foldlM_eq_ok {f : σ → α → Except ε σ} {g : σ → α → σ} {xs : List α}
    (h : ∀ x ∈ xs, ∀ s, f s x = .ok (g s x)) (s : σ) : xs.foldlM f s = .ok (xs.foldl g s) := by
  rw [foldlM_congr h s]
  exact List.foldlM_pure

theorem mapM_eq_ok {f : α → Except ε β} {g : α → β} {xs : List α}
    (h : ∀ x ∈ xs, f x = .ok (g x)) : xs.mapM f = .ok (xs.map g) := by
  induction xs with
  | nil => rfl
  | cons x xs ih =>
      rw [List.forall_mem_cons] at h
      rw [List.mapM_cons, h.1, ih h.2]
      rfl

/-- A loop whose steps fail in one way only, each because of its item, fails in that way if one of
the items makes it. -/
theorem foldlM_eq_error_iff {f : σ → α → Except ε σ} {cause : ε} {Fails : α → Prop}
    (h : ∀ s x e, f s x = .error e ↔ e = cause ∧ Fails x) (xs : List α) (s : σ) (e : ε) :
    xs.foldlM f s = .error e ↔ e = cause ∧ ∃ x ∈ xs, Fails x := by
  induction xs generalizing s with
  | nil => simp [pure, Except.pure]
  | cons x xs ih =>
      rw [List.foldlM_cons, List.exists_mem_cons_iff]
      cases hx : f s x with
      | error e' =>
          obtain ⟨rfl, hfails⟩ := (h s x e').1 hx
          simp [bind, Except.bind, hfails, eq_comm]
      | ok s' =>
          have hsound : ¬ Fails x := by
            intro hfails
            rw [(h s x cause).2 ⟨rfl, hfails⟩] at hx
            cases hx
          rw [or_iff_right hsound]
          exact ih s'

/-! ### Failures that are mended -/

/-- One computation mends another: it succeeds where that one does, and of the failures it keeps
those that last. -/
structure Mends (lasts : ε → Prop) (x y : Except ε α) : Prop where
  ok : ∀ a, y = .ok a → x = .ok a
  error : ∀ e, y = .error e → lasts e → x = .error e
  lasts : ∀ e, x = .error e → lasts e

namespace Mends

variable {lasts : ε → Prop} {x y : Except ε α}

theorem of_ok (a : α) : Mends lasts (.ok a : Except ε α) (.ok a) where
  ok _ h := h
  error _ h := by cases h
  lasts _ h := by cases h

theorem of_error {e : ε} (he : lasts e) :
    Mends lasts (.error e : Except ε α) (.error e) where
  ok _ h := h
  error _ h _ := h
  lasts _ h := by
    cases h
    exact he

/-- After a failure that does not last, anything may come but for such failures. -/
theorem of_not_lasts {e : ε} (he : ¬ lasts e) (hx : ∀ e, x = .error e → lasts e) :
    Mends lasts x (.error e) where
  ok _ h := by cases h
  error _ h hlasts := by
    cases h
    exact absurd hlasts he
  lasts := hx

/-- The two agree exactly if every failure lasts. -/
theorem eq_iff (h : Mends lasts x y) : x = y ↔ ∀ e, y = .error e → lasts e := by
  constructor
  · rintro rfl e he
    exact h.lasts e he
  · intro hy
    cases y with
    | ok a => exact h.ok a rfl
    | error e => exact h.error e rfl (hy e rfl)

theorem bind {f g : α → Except ε β} (h : Mends lasts x y) (hfg : ∀ a, Mends lasts (f a) (g a)) :
    Mends lasts (x >>= f) (y >>= g) where
  ok b hb := by
    obtain ⟨a, ha, hg⟩ := bind_eq_ok_iff.1 hb
    rw [h.ok a ha]
    exact (hfg a).ok b hg
  error e he hlasts := by
    cases hy : y with
    | error e' =>
        rw [hy] at he
        cases he
        rw [h.error e hy hlasts]
        rfl
    | ok a =>
        rw [hy] at he
        rw [h.ok a hy]
        exact (hfg a).error e he hlasts
  lasts e he := by
    cases hx : x with
    | error e' =>
        rw [hx] at he
        cases he
        exact h.lasts e hx
    | ok a =>
        rw [hx] at he
        exact (hfg a).lasts e he

theorem map (h : Mends lasts x y) (f : α → β) : Mends lasts (x.map f) (y.map f) := by
  rw [map_eq_bind, map_eq_bind]
  exact h.bind fun a => of_ok (f a)

/-- A loop that mends each step of another mends it. -/
theorem mapM {f g : α → Except ε β} {xs : List α} (h : ∀ x ∈ xs, Mends lasts (f x) (g x)) :
    Mends lasts (xs.mapM f) (xs.mapM g) := by
  induction xs with
  | nil => exact of_ok []
  | cons x xs ih =>
      rw [List.forall_mem_cons] at h
      rw [List.mapM_cons, List.mapM_cons]
      exact h.1.bind fun y => (ih h.2).bind fun ys => of_ok (y :: ys)

end Mends

end SqlAccess.Except
