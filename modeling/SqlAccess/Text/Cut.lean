/-
**Cutting texts.**

Main definitions:

* `SqlAccess.Text.cut?`, `SqlAccess.Text.cutLast?` — the text before and after the first or the
  last occurrence of a character;
* `SqlAccess.Text.cutAt?` — the same for the first occurrence of a text;
* `SqlAccess.Text.fields` — all pieces between the occurrences of a character;
* `SqlAccess.Text.occursIn` — whether a text occurs in another.

Main results:

* `SqlAccess.Text.eq_of_cut?`, `SqlAccess.Text.eq_of_cutAt?` — the pieces and what was cut out make
  up the text.
-/

set_option autoImplicit false

namespace SqlAccess.Text

/-! ### At a character -/

/-- The text before and after the first `sep`. -/
def cut? (sep : Char) : List Char → Option (List Char × List Char)
  | [] => none
  | c :: cs => if c = sep then some ([], cs) else (cut? sep cs).map fun p => (c :: p.1, p.2)

/-- The text before and after the last `sep`. -/
def cutLast? (sep : Char) (cs : List Char) : Option (List Char × List Char) :=
  (cut? sep cs.reverse).map fun p => (p.2.reverse, p.1.reverse)

/-- The pieces of a text between the occurrences of `sep`; there is one more than occurrences. -/
def fields (sep : Char) : List Char → List (List Char)
  | [] => [[]]
  | c :: cs =>
    if c = sep then [] :: fields sep cs
    else match fields sep cs with
      | [] => [[c]]
      | piece :: pieces => (c :: piece) :: pieces

theorem eq_of_cut? {sep : Char} {cs before rest : List Char}
    (h : cut? sep cs = some (before, rest)) : cs = before ++ sep :: rest := by
  induction cs generalizing before with
  | nil => simp [cut?] at h
  | cons c cs ih =>
    unfold cut? at h
    split at h
    · rename_i hc
      simp only [Option.some.injEq, Prod.mk.injEq] at h
      simp [← h.1, ← h.2, hc]
    · obtain ⟨p, hp, hq⟩ := Option.map_eq_some_iff.1 h
      simp only [Prod.mk.injEq] at hq
      rw [ih (show cut? sep cs = some (p.1, rest) by rw [hp, ← hq.2]), ← hq.1, List.cons_append]

/-! ### At a text -/

/-- The text before and after the first occurrence of `needle`. -/
def cutAt? (needle : List Char) : List Char → Option (List Char × List Char)
  | [] => if needle.isEmpty then some ([], []) else none
  | c :: cs =>
    match needle.isPrefixOf? (c :: cs) with
    | some rest => some ([], rest)
    | none => (cutAt? needle cs).map fun p => (c :: p.1, p.2)

/-- Whether `needle` occurs in the text. -/
def occursIn (needle cs : List Char) : Bool := (cutAt? needle cs).isSome

theorem eq_append_of_isPrefixOf? {needle cs rest : List Char}
    (h : needle.isPrefixOf? cs = some rest) : cs = needle ++ rest := by
  induction needle generalizing cs with
  | nil => exact Option.some.inj h
  | cons c needle ih =>
    cases cs with
    | nil => exact absurd h nofun
    | cons d cs =>
      change (if c == d then needle.isPrefixOf? cs else none) = some rest at h
      split at h
      · rename_i hd
        rw [ih h, List.cons_append, eq_of_beq hd]
      · simp at h

theorem eq_of_cutAt? {needle cs before rest : List Char}
    (h : cutAt? needle cs = some (before, rest)) : cs = before ++ needle ++ rest := by
  induction cs generalizing before with
  | nil =>
    unfold cutAt? at h
    split at h
    · rename_i hn
      simp only [Option.some.injEq, Prod.mk.injEq] at h
      simp [← h.1, ← h.2, List.isEmpty_iff.1 hn]
    · simp at h
  | cons c cs ih =>
    unfold cutAt? at h
    split at h
    · rename_i r hr
      simp only [Option.some.injEq, Prod.mk.injEq] at h
      rw [eq_append_of_isPrefixOf? hr, ← h.1, ← h.2, List.nil_append]
    · obtain ⟨p, hp, hq⟩ := Option.map_eq_some_iff.1 h
      simp only [Prod.mk.injEq] at hq
      rw [ih (show cutAt? needle cs = some (p.1, rest) by rw [hp, ← hq.2]), ← hq.1,
        List.cons_append, List.cons_append]

end SqlAccess.Text
