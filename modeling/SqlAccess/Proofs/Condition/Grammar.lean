/-
**The grammar of conditions.**

The reader goes down a condition separator by separator.  Here the same language is described flat:
the text is cut at once at all `|` outside braces, each piece at all `&` outside braces, and the
atoms that are left are read one by one from left to right.  The two agree on every text, in the
condition and in the fault.

Main definitions:

* `SqlAccess.Condition.Grammar.Balanced`, `SqlAccess.Condition.Grammar.Shallow` — how braces may
  stand, said of the prefixes of a text;
* `SqlAccess.Condition.Grammar.rows` — the atoms of a text, as a disjunction of conjunctions;
* `SqlAccess.Condition.Grammar.denoteAtom`, `SqlAccess.Condition.Grammar.denoteText` — what an atom
  and a text with braces in order denote;
* `SqlAccess.Condition.Grammar.denote` — **the flat description**.

Main results:

* `SqlAccess.Condition.Grammar.rows_of_cutTopLevel`,
  `SqlAccess.Condition.Grammar.row_of_cutTopLevel` — the first cut splits off the first piece;
* `SqlAccess.Condition.Grammar.parsePart_eq_denoteText` — a part with braces in order;
* `SqlAccess.Condition.parse_eq_denote` — **the reader follows the flat description**.
-/

import Mathlib.Data.List.DropRight
import Mathlib.Data.List.Infix
import Mathlib.Tactic.IntervalCases
import SqlAccess.Proofs.Condition.Reading

set_option autoImplicit false

namespace SqlAccess.Condition

namespace Grammar

/-! ### Braces -/

/-- How many more braces a text opens than it closes. -/
def surplus (cs : List Char) : Int := cs.count '{' - cs.count '}'

/-- The braces pair up: no prefix closes more than it opens, and the whole text closes them all. -/
def Balanced (cs : List Char) : Prop := surplus cs = 0 ∧ ∀ p ∈ cs.inits, 0 ≤ surplus p

/-- At no point is more than one brace open. -/
def Shallow (cs : List Char) : Prop := ∀ p ∈ cs.inits, surplus p ≤ 1

instance (cs : List Char) : Decidable (Balanced cs) :=
  inferInstanceAs (Decidable (_ ∧ ∀ p ∈ cs.inits, 0 ≤ surplus p))

instance (cs : List Char) : Decidable (Shallow cs) :=
  inferInstanceAs (Decidable (∀ p ∈ cs.inits, surplus p ≤ 1))

/-! ### Cutting -/

/-- Each character with the number of braces that are open before it. -/
def placed : Int → List Char → List (Char × Int)
  | _, [] => []
  | depth, c :: cs => (c, depth) :: placed (depth + surplus [c]) cs

/-- The pieces between all `sep` outside braces. -/
def pieces (sep : Char) (cs : List (Char × Int)) : List (List (Char × Int)) :=
  cs.splitOnP fun p => p.1 == sep && p.2 == 0

/-- The atoms of one conjunction. -/
def row (cs : List (Char × Int)) : List (List Char) := (pieces '&' cs).map (List.map Prod.fst)

/-- The atoms of a text: the members of a disjunction, each with the members of a conjunction. -/
def rows (cs : List Char) : List (List (List Char)) := (pieces '|' (placed 0 cs)).map row

/-! ### Reading -/

/-- Conditions joined by an operation, grouped to the right. -/
def nest (op : Condition → Condition → Condition) : List Condition → Option Condition
  | [] => none
  | [c] => some c
  | c :: d :: rest => (nest op (d :: rest)).map (op c)

/-- Things read one by one from left to right, and what they denote joined; the first fault decides.
-/
def denoteAll {α : Type} (source : String) (op : Condition → Condition → Condition)
    (read : α → Except Fault Condition) (xs : List α) : Except Fault Condition := do
  match nest op (← xs.mapM read) with
  | some c => return c
  | none => throw (.emptyExpression source)

/-- The body of a text that is one group. -/
def body? (atom : List Char) : Option (List Char) :=
  let body := atom.tail.dropLast
  if atom = '{' :: (body ++ ['}']) ∧ '{' ∉ body ∧ '}' ∉ body then some body else none

/-- A unit: a position, or a field and an operator on the two sides of the last dot. -/
def denoteUnit (table : Table) (source : String) (unit : List Char) : Except Fault Predicate :=
  let field := Text.trim (unit.rdropWhile (· != '.')).dropLast
  let after := Text.trim (unit.rtakeWhile (· != '.'))
  if Text.isDigits unit then resolve table (.index (indexValue unit)) .eq
  else if '.' ∉ unit then .error (.missingOperator (String.ofList unit))
  else if field = [] then .error (.emptyExpression source)
  else match Operator.all.find? fun op => Text.sameIgnoringCase op.keyword.toList after with
    | some op => resolve table (Field.ofText field) op
    | none => .error (.unknownOperator (String.ofList after))

/-- A trimmed atom: nothing, a group, whose body `read` reads, or a unit. -/
def denoteAtom (table : Table) (source : String) (atom : List Char)
    (read : (body : List Char) → body? atom = some body → Except Fault Condition) :
    Except Fault Condition :=
  if atom = [] then .error (.emptyExpression source)
  else match h : body? atom with
    | some body => (read body h).map .group
    | none => (denoteUnit table source atom).map .simple

theorem length_le_of_mem_splitOnP {α : Type} {p : α → Bool} {xs piece : List α}
    (h : piece ∈ xs.splitOnP p) : piece.length ≤ xs.length := by
  induction xs generalizing piece with
  | nil => simp_all
  | cons x xs ih =>
      rw [List.splitOnP_cons_eq_if_modifyHead] at h
      split at h
      · rcases List.mem_cons.1 h with rfl | h
        · simp
        · exact Nat.le_succ_of_le (ih h)
      · obtain ⟨first, others, hsplit⟩ := List.exists_cons_of_ne_nil (List.splitOnP_ne_nil p xs)
        rw [hsplit, List.modifyHead_cons] at h
        rcases List.mem_cons.1 h with rfl | h
        · exact Nat.succ_le_succ (ih (by simp [hsplit]))
        · exact Nat.le_succ_of_le (ih (by simp [hsplit, h]))

@[simp] theorem map_fst_placed (depth : Int) (cs : List Char) :
    (placed depth cs).map Prod.fst = cs := by
  induction cs generalizing depth with
  | nil => rfl
  | cons c cs ih => simp [placed, ih]

theorem length_le_of_mem_rows {cs : List Char} {r : List (List Char)} {atom : List Char}
    (hr : r ∈ rows cs) (ha : atom ∈ r) : atom.length ≤ cs.length := by
  obtain ⟨piece, hpiece, rfl⟩ := List.mem_map.1 hr
  obtain ⟨part, hpart, rfl⟩ := List.mem_map.1 ha
  have h₁ := length_le_of_mem_splitOnP hpart
  have h₂ := length_le_of_mem_splitOnP hpiece
  have h₃ := congrArg List.length (map_fst_placed 0 cs)
  rw [List.length_map] at h₃ ⊢
  omega

theorem length_lt_of_body? {atom body : List Char} (h : body? atom = some body) :
    body.length < atom.length := by
  unfold body? at h
  dsimp only at h
  split at h
  · rename_i hatom
    have hlen := congrArg List.length hatom.1
    rw [Option.some.inj h, List.length_cons, List.length_append] at hlen
    omega
  · cases h

/-- A text with braces in order: the atoms are read and joined by `and`, then by `or`.  The body of
a group is a text again. -/
def denoteText (table : Table) (source : String) (cs : List Char) : Except Fault Condition :=
  denoteAll source .or (fun r : { r // r ∈ rows cs } =>
    denoteAll source .and (fun atom : { atom // atom ∈ r.1 } =>
      denoteAtom table source (Text.trim atom.1) fun body _h => denoteText table source body)
      r.1.attach) (rows cs).attach
  termination_by cs.length
  decreasing_by
    have h₁ := length_lt_of_body? _h
    have h₂ := length_trim_le atom.1
    have h₃ := length_le_of_mem_rows r.2 atom.2
    omega

/-- The condition that a text denotes: first the braces are tested, then the atoms are read. -/
def denote (table : Table) (source : String) : Except Fault Condition :=
  if ¬Balanced source.toList then .error (.unbalancedBraces source)
  else if ¬Shallow source.toList then .error (.nestedBraces source)
  else denoteText table source source.toList

/-! ### The two tests of the braces -/

@[simp] theorem surplus_nil : surplus [] = 0 := rfl

theorem surplus_append (cs ds : List Char) : surplus (cs ++ ds) = surplus cs + surplus ds := by
  simp only [surplus, List.count_append, Nat.cast_add]
  omega

theorem surplus_cons (c : Char) (cs : List Char) : surplus (c :: cs) = surplus [c] + surplus cs :=
  surplus_append [c] cs

theorem surplus_open : surplus ['{'] = 1 := by decide

theorem surplus_close : surplus ['}'] = -1 := by decide

theorem surplus_of_ne {c : Char} (ho : c ≠ '{') (hc : c ≠ '}') : surplus [c] = 0 := by
  simp [surplus, ho, hc]

/-- The prefixes of a text: the empty one, and those of the rest with the first character. -/
theorem forall_inits_cons (P : Int → Prop) (c : Char) (cs : List Char) :
    (∀ p ∈ (c :: cs).inits, P (surplus p)) ↔
      P 0 ∧ ∀ p ∈ cs.inits, P (surplus [c] + surplus p) := by
  simp only [List.inits, List.mem_cons, List.mem_map, forall_eq_or_imp, surplus_nil]
  refine and_congr Iff.rfl ⟨fun h p hp => ?_, ?_⟩
  · rw [← surplus_cons]
    exact h _ ⟨p, hp, rfl⟩
  · rintro h _ ⟨p, hp, rfl⟩
    rw [surplus_cons]
    exact h p hp

/-- Counting the open braces succeeds exactly when no prefix closes too many. -/
theorem braceDepth?_eq_some_iff {depth d : Nat} {cs : List Char} :
    braceDepth? depth cs = some d ↔
      (d : Int) = depth + surplus cs ∧ ∀ p ∈ cs.inits, 0 ≤ (depth : Int) + surplus p := by
  induction cs generalizing depth with
  | nil =>
      simp [braceDepth?, eq_comm]
  | cons c cs ih =>
      rw [forall_inits_cons (fun n => 0 ≤ (depth : Int) + n), surplus_cons]
      rcases eq_brace_or_ne c with rfl | rfl | ⟨ho, hc⟩
      · rw [braceDepth?_cons_open, ih, surplus_open]
        simp only [Nat.cast_succ, ← add_assoc]
        exact ⟨fun h => ⟨h.1, by omega, h.2⟩, fun h => ⟨h.1, h.2.2⟩⟩
      · rw [surplus_close]
        cases depth with
        | zero =>
            rw [braceDepth?_cons_close_zero]
            refine ⟨fun h => absurd h (by simp), fun h => ?_⟩
            have hfirst := h.2.2 [] (by simp)
            rw [surplus_nil] at hfirst
            omega
        | succ depth =>
            rw [braceDepth?_cons_close, ih]
            simp only [Nat.cast_succ, ← add_assoc, add_neg_cancel_right]
            exact ⟨fun h => ⟨h.1, by omega, h.2⟩, fun h => ⟨h.1, h.2.2⟩⟩
      · rw [braceDepth?_cons_of_ne ho hc, ih, surplus_of_ne ho hc]
        simp only [zero_add]
        exact ⟨fun h => ⟨h.1, by omega, h.2⟩, fun h => ⟨h.1, h.2.2⟩⟩

theorem balanced_iff {cs : List Char} : Balanced cs ↔ braceDepth? 0 cs = some 0 := by
  rw [braceDepth?_eq_some_iff, Balanced]
  simp only [Nat.cast_zero, zero_add, eq_comm]

/-- Where the braces pair up, one opens inside another exactly where two are open. -/
theorem opensNested_eq_false_iff {depth d : Nat} {cs : List Char}
    (h : braceDepth? depth cs = some d) (hdepth : depth ≤ 1) :
    opensNested depth cs = false ↔ ∀ p ∈ cs.inits, (depth : Int) + surplus p ≤ 1 := by
  induction cs generalizing depth with
  | nil => simpa [opensNested] using hdepth
  | cons c cs ih =>
      rw [forall_inits_cons (fun n => (depth : Int) + n ≤ 1)]
      rcases eq_brace_or_ne c with rfl | rfl | ⟨ho, hc⟩
      · rw [braceDepth?_cons_open] at h
        rw [opensNested_cons_open, surplus_open, Bool.or_eq_false_iff]
        interval_cases depth
        · rw [ih h (by omega)]
          simp
        · -- the second brace is one too many
          refine ⟨fun h => by simp at h, fun h => ?_⟩
          have hfirst := h.2 [] (by simp)
          rw [surplus_nil] at hfirst
          omega
      · cases depth with
        | zero => simp [braceDepth?_cons_close_zero] at h
        | succ depth =>
            rw [braceDepth?_cons_close] at h
            rw [opensNested_cons_close, Nat.add_sub_cancel, ih h (by omega), surplus_close]
            simp only [Nat.cast_succ, ← add_assoc, add_neg_cancel_right]
            exact ⟨fun h => ⟨by omega, h⟩, fun h => h.2⟩
      · rw [braceDepth?_cons_of_ne ho hc] at h
        rw [opensNested_cons_of_ne ho hc, ih h hdepth, surplus_of_ne ho hc]
        simp only [zero_add]
        exact ⟨fun h => ⟨by omega, h⟩, fun h => h.2⟩

theorem shallow_iff {cs : List Char} (h : Balanced cs) : Shallow cs ↔ opensNested 0 cs = false := by
  rw [opensNested_eq_false_iff (balanced_iff.1 h) (by omega), Shallow]
  simp only [Nat.cast_zero, zero_add]

/-! ### The first cut and all cuts -/

variable {sep : Char} {cs left right : List Char}

theorem placed_append (depth : Int) (cs ds : List Char) :
    placed depth (cs ++ ds) = placed depth cs ++ placed (depth + surplus cs) ds := by
  induction cs generalizing depth with
  | nil => simp [placed]
  | cons c cs ih =>
      rw [List.cons_append, placed, ih, surplus_cons c cs, add_assoc]
      rfl

/-- The first cut, of a text whose characters have their places. -/
theorem placed_of_cutTopLevel (hsep : IsSeparator sep) (h : WellBraced cs)
    (hcut : cutTopLevel sep 0 cs = some (left, right)) :
    placed 0 cs = placed 0 left ++ (sep, 0) :: placed 0 right := by
  have hleft := (h.of_cutTopLevel hsep hcut).1
  have hsurplus : surplus left = 0 := (balanced_iff.2 hleft.paired).1
  rw [eq_of_cutTopLevel hcut, placed_append, hsurplus, zero_add, placed,
    surplus_of_ne hsep.ne_open hsep.ne_close, zero_add]

/-- Where the search finds nothing, no separator stands outside braces. -/
theorem not_mem_placed {depth d : Nat} (hsep : IsSeparator sep)
    (h : braceDepth? depth cs = some d) (hcut : cutTopLevel sep depth cs = none) :
    (sep, (0 : Int)) ∉ placed depth cs := by
  induction cs generalizing depth with
  | nil => simp [placed]
  | cons c cs ih =>
      rw [placed, List.mem_cons, not_or]
      rcases eq_brace_or_ne c with rfl | rfl | ⟨hoc, hcc⟩
      · rw [braceDepth?_cons_open] at h
        rw [cutTopLevel_cons_open, Option.map_eq_none_iff] at hcut
        refine ⟨fun he => hsep.ne_open (Prod.mk.inj he).1, ?_⟩
        simpa [surplus_open] using ih h hcut
      · cases depth with
        | zero => simp [braceDepth?_cons_close_zero] at h
        | succ depth =>
            rw [braceDepth?_cons_close] at h
            rw [cutTopLevel_cons_close, Nat.add_sub_cancel, Option.map_eq_none_iff] at hcut
            refine ⟨fun he => hsep.ne_close (Prod.mk.inj he).1, ?_⟩
            simpa [surplus_close] using ih h hcut
      · rw [braceDepth?_cons_of_ne hoc hcc] at h
        by_cases hs : c = sep ∧ depth = 0
        · obtain ⟨rfl, rfl⟩ := hs
          simp [cutTopLevel_cons_sep hoc hcc] at hcut
        · rw [cutTopLevel_cons_of_ne hoc hcc hs, Option.map_eq_none_iff] at hcut
          refine ⟨fun he => hs ⟨(Prod.mk.inj he).1.symm, ?_⟩, ?_⟩
          · exact_mod_cast (Prod.mk.inj he).2.symm
          · simpa [surplus_of_ne hoc hcc] using ih h hcut

theorem pieces_of_cutTopLevel (hsep : IsSeparator sep) (h : WellBraced cs)
    (hcut : cutTopLevel sep 0 cs = some (left, right)) :
    pieces sep (placed 0 cs) = pieces sep (placed 0 left) ++ pieces sep (placed 0 right) := by
  rw [placed_of_cutTopLevel hsep h hcut, pieces, List.splitOnP_append_cons _ _ (by simp)]
  rfl

theorem pieces_of_none (hsep : IsSeparator sep) (h : WellBraced cs)
    (hcut : cutTopLevel sep 0 cs = none) : pieces sep (placed 0 cs) = [placed 0 cs] := by
  refine List.splitOnP_eq_singleton fun p hp => ?_
  have hmem := not_mem_placed hsep h.paired hcut
  rw [Bool.eq_false_iff]
  intro hcuts
  simp only [Bool.and_eq_true, beq_iff_eq] at hcuts
  exact hmem (by rwa [← hcuts.1, ← hcuts.2])

theorem rows_of_none (h : WellBraced cs) (hor : cutTopLevel '|' 0 cs = none) :
    rows cs = [row (placed 0 cs)] := by
  rw [rows, pieces_of_none .or h hor]
  rfl

/-- The first `|` splits off the first member of the disjunction. -/
theorem rows_of_cutTopLevel (h : WellBraced cs)
    (hcut : cutTopLevel '|' 0 cs = some (left, right)) :
    rows cs = row (placed 0 left) :: rows right := by
  have hleft := (h.of_cutTopLevel .or hcut).1
  rw [rows, pieces_of_cutTopLevel .or h hcut,
    pieces_of_none .or hleft (cutTopLevel_left_eq_none hcut)]
  rfl

theorem row_of_none (h : WellBraced cs) (hand : cutTopLevel '&' 0 cs = none) :
    row (placed 0 cs) = [cs] := by
  rw [row, pieces_of_none .and h hand]
  simp

/-- The first `&` splits off the first member of the conjunction. -/
theorem row_of_cutTopLevel (h : WellBraced cs)
    (hcut : cutTopLevel '&' 0 cs = some (left, right)) :
    row (placed 0 cs) = left :: row (placed 0 right) := by
  have hleft := (h.of_cutTopLevel .and hcut).1
  rw [row, pieces_of_cutTopLevel .and h hcut,
    pieces_of_none .and hleft (cutTopLevel_left_eq_none hcut)]
  simp [row]

/-! ### Reading one by one -/

variable {α : Type} {table : Table} {source : String}
  {op : Condition → Condition → Condition} {read : α → Except Fault Condition}

theorem rows_ne_nil (cs : List Char) : rows cs ≠ [] := by simp [rows, pieces]

theorem row_ne_nil (cs : List (Char × Int)) : row cs ≠ [] := by simp [row, pieces]

theorem nest_cons {cs : List Condition} (c : Condition) (h : cs ≠ []) :
    nest op (c :: cs) = (nest op cs).map (op c) := by
  obtain ⟨d, rest, rfl⟩ := List.exists_cons_of_ne_nil h
  rfl

theorem denoteAll_singleton (x : α) : denoteAll source op read [x] = read x := by
  unfold denoteAll
  cases hx : read x with
  | error e => simp [hx, bind, Except.bind]
  | ok c => simp [hx, bind, Except.bind, nest, pure, Except.pure]

/-- The first of several things is read first, and its condition stands on the left. -/
theorem denoteAll_cons (x : α) {xs : List α} (h : xs ≠ []) :
    denoteAll source op read (x :: xs) =
      (do return op (← read x) (← denoteAll source op read xs)) := by
  unfold denoteAll
  cases hx : read x with
  | error e => simp [hx, bind, Except.bind]
  | ok c =>
      cases hxs : xs.mapM read with
      | error e => simp [hx, hxs, bind, Except.bind]
      | ok cs =>
          have hcs : cs ≠ [] := by
            rintro rfl
            exact h (List.eq_nil_of_length_eq_zero (Except.forall₂_of_mapM hxs).length_eq)
          simp [hx, hxs, bind, Except.bind, pure, Except.pure, nest_cons c hcs]
          cases nest op cs <;> rfl

theorem denoteAll_attach (read : α → Except Fault Condition) (xs : List α) :
    denoteAll source op (fun x : { x // x ∈ xs } => read x.1) xs.attach =
      denoteAll source op read xs := by
  unfold denoteAll
  rw [List.mapM_subtype fun _ _ => rfl, List.unattach_attach]

/-- The description with its recursion unfolded. -/
theorem denoteText_eq (table : Table) (source : String) (cs : List Char) :
    denoteText table source cs =
      denoteAll source .or (denoteAll source .and fun atom =>
        denoteAtom table source (Text.trim atom) fun body _ => denoteText table source body)
        (rows cs) := by
  rw [denoteText]
  simp only [denoteAll_attach fun atom =>
    denoteAtom table source (Text.trim atom) fun body _ => denoteText table source body]
  exact denoteAll_attach _ (rows cs)

theorem denoteText_of_none (h : WellBraced cs) (hor : cutTopLevel '|' 0 cs = none) :
    denoteText table source cs =
      denoteAll source .and (fun atom =>
        denoteAtom table source (Text.trim atom) fun body _ => denoteText table source body)
        (row (placed 0 cs)) := by
  rw [denoteText_eq, rows_of_none h hor, denoteAll_singleton]

theorem denoteText_atom (h : WellBraced cs) (hor : cutTopLevel '|' 0 cs = none)
    (hand : cutTopLevel '&' 0 cs = none) :
    denoteText table source cs =
      denoteAtom table source (Text.trim cs) fun body _ => denoteText table source body := by
  rw [denoteText_of_none h hor, row_of_none h hand, denoteAll_singleton]

theorem denoteText_or (h : WellBraced cs) (hcut : cutTopLevel '|' 0 cs = some (left, right)) :
    denoteText table source cs =
      (do return .or (← denoteText table source left) (← denoteText table source right)) := by
  have hleft := (h.of_cutTopLevel .or hcut).1
  rw [denoteText_eq, rows_of_cutTopLevel h hcut, denoteAll_cons _ (rows_ne_nil right),
    ← denoteText_eq, ← denoteText_of_none hleft (cutTopLevel_left_eq_none hcut)]

theorem denoteText_and (h : WellBraced cs) (hor : cutTopLevel '|' 0 cs = none)
    (hcut : cutTopLevel '&' 0 cs = some (left, right)) :
    denoteText table source cs =
      (do return .and (← denoteText table source left) (← denoteText table source right)) := by
  obtain ⟨hleft, hright⟩ := h.of_cutTopLevel .and hcut
  obtain ⟨horleft, horright⟩ := cutTopLevel_eq_none_of_some .and hor hcut
  rw [denoteText_of_none h hor, row_of_cutTopLevel h hcut, denoteAll_cons _ (row_ne_nil _),
    ← denoteText_of_none hright horright,
    ← denoteText_atom hleft horleft (cutTopLevel_left_eq_none hcut)]

/-! ### Atoms -/

theorem body?_eq_groupBody? (atom : List Char) : body? atom = groupBody? atom := by
  refine Option.ext fun body => ?_
  rw [groupBody?_eq_some_iff, body?]
  constructor
  · intro h
    split at h
    · rename_i hatom
      obtain rfl := Option.some.inj h
      exact hatom
    · cases h
  · rintro ⟨rfl, hbare⟩
    simpa using ⟨hbare.1, hbare.2⟩

theorem denoteAtom_of_groupBody? {atom body : List Char}
    {read : (body : List Char) → body? atom = some body → Except Fault Condition}
    (h : groupBody? atom = some body) :
    denoteAtom table source atom read =
      (read body (body?_eq_groupBody? atom ▸ h)).map .group := by
  have hne : atom ≠ [] := by simp [(groupBody?_eq_some_iff.1 h).1]
  rw [denoteAtom, if_neg hne]
  split
  · rename_i body' hbody'
    obtain rfl : body = body' := by
      rw [body?_eq_groupBody?, h] at hbody'
      exact Option.some.inj hbody'
    rfl
  · rename_i hbody
    simp [body?_eq_groupBody?, h] at hbody

theorem denoteAtom_of_none {atom : List Char}
    {read : (body : List Char) → body? atom = some body → Except Fault Condition}
    (h : groupBody? atom = none) :
    denoteAtom table source atom read =
      if atom = [] then .error (.emptyExpression source)
      else (denoteUnit table source atom).map .simple := by
  rw [denoteAtom]
  split
  · rfl
  · split
    · rename_i body hbody
      simp [body?_eq_groupBody?, h] at hbody
    · rfl

/-- Units are read as they are described. -/
theorem readUnit_eq_denoteUnit (table : Table) (source : String) (unit : List Char) :
    readUnit table source unit = denoteUnit table source unit := by
  unfold readUnit denoteUnit
  dsimp only
  by_cases hdigits : Text.isDigits unit = true
  · rw [if_pos hdigits, if_pos hdigits]
  · rw [if_neg hdigits, if_neg hdigits]
    cases hcut : Text.cutLast? '.' unit with
    | none => rw [if_pos (Text.cutLast?_eq_none_iff.1 hcut)]
    | some p =>
        obtain ⟨before, after⟩ := p
        obtain ⟨rfl, hdot⟩ := Text.cutLast?_eq_some_iff.1 hcut
        rw [if_neg (by simp), Text.rdropWhile_append_cons hdot, Text.rtakeWhile_append_cons hdot,
          List.dropLast_concat]
        simp only [List.isEmpty_iff, Operator.parse, Operator.ofText?]
        split
        · rfl
        · cases Operator.all.find? fun op =>
              Text.sameIgnoringCase op.keyword.toList (Text.trim after) with
          | none => rfl
          | some op => rfl

/-! ### The reader and its grammar -/

/-- **A part with braces in order denotes what the flat description says.** -/
theorem parsePart_eq_denoteText (h : WellBraced cs) :
    parsePart table source cs = denoteText table source cs := by
  -- the sides of a cut and the body of a group are shorter texts with braces in order
  induction hn : cs.length using Nat.strong_induction_on generalizing cs with
  | _ n ih =>
      subst hn
      cases hor : cutTopLevel '|' 0 cs with
      | some p =>
          obtain ⟨left, right⟩ := p
          obtain ⟨hleft, hright⟩ := h.of_cutTopLevel .or hor
          have hlen := congrArg List.length (eq_of_cutTopLevel hor)
          rw [List.length_append, List.length_cons] at hlen
          rw [parsePart_or hor, denoteText_or h hor, ih _ (by omega) hleft rfl,
            ih _ (by omega) hright rfl]
      | none =>
          cases hand : cutTopLevel '&' 0 cs with
          | some p =>
              obtain ⟨left, right⟩ := p
              obtain ⟨hleft, hright⟩ := h.of_cutTopLevel .and hand
              have hlen := congrArg List.length (eq_of_cutTopLevel hand)
              rw [List.length_append, List.length_cons] at hlen
              rw [parsePart_and hor hand, denoteText_and h hor hand, ih _ (by omega) hleft rfl,
                ih _ (by omega) hright rfl]
          | none =>
              rw [parsePart_atom hor hand, denoteText_atom h hor hand]
              cases hgroup : groupBody? (Text.trim cs) with
              | some body =>
                  obtain ⟨hatom, hbare⟩ := groupBody?_eq_some_iff.1 hgroup
                  have htrim := length_trim_le cs
                  rw [hatom, List.length_cons, List.length_append] at htrim
                  rw [if_neg (by simp [hatom]), denoteAtom_of_groupBody? hgroup]
                  dsimp only
                  rw [ih _ (by omega) hbare.wellBraced rfl, Except.map_eq_bind]
              | none =>
                  rw [denoteAtom_of_none hgroup, readUnit_eq_denoteUnit, Except.map_eq_bind]
                  simp only [List.isEmpty_iff]

end Grammar

/-- **The reader follows the flat description**, in the condition and in the fault. -/
theorem parse_eq_denote (table : Table) (source : String) :
    parse table source = Grammar.denote table source := by
  unfold parse testBraces Grammar.denote
  by_cases hbalanced : Grammar.Balanced source.toList
  · have hpaired := Grammar.balanced_iff.1 hbalanced
    rw [if_neg (not_not.2 hpaired), if_neg (not_not.2 hbalanced)]
    by_cases hshallow : Grammar.Shallow source.toList
    · have hflat := (Grammar.shallow_iff hbalanced).1 hshallow
      rw [if_neg (by simp [hflat]), if_neg (not_not.2 hshallow)]
      exact Grammar.parsePart_eq_denoteText ⟨hpaired, hflat⟩
    · have hnested := mt (Grammar.shallow_iff hbalanced).2 hshallow
      rw [if_pos (by simpa using hnested), if_pos hshallow]
      rfl
  · have hunpaired := mt Grammar.balanced_iff.2 hbalanced
    rw [if_pos hunpaired, if_pos hbalanced]
    rfl

end SqlAccess.Condition
