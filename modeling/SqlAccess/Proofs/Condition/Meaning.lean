/-
**What a condition means in SQL.**

A condition is written in SQL without parentheses of its own making, which would be wrong for a
tree with a disjunction beneath a conjunction.  The reader builds no such tree: the left side of a
connective is of a tighter rank than the whole and the right side of no looser one, groups counting
as the tightest.  On trees of that shape the text is read back, by the rank of `AND` and `OR`, as a
formula of the same truth value, and the markers in it belong to the parameters one by one.

Main definitions:

* `SqlAccess.Condition.truth` — the truth value, given one for each predicate from left to right;
* `SqlAccess.Condition.Operator.argumentType?` — the type of what a predicate is compared with;
* `SqlAccess.Condition.Fits` — the shape of the trees that are read;
* `SqlAccess.Condition.tokens`, `SqlAccess.Condition.formula` — a condition in SQL, cut into tokens
  and read;
* `SqlAccess.Condition.Matches` — a test of the formula against a predicate of the condition.

Main results:

* `SqlAccess.Condition.Reads.fits` — what is read has that shape;
* `SqlAccess.Condition.lexes_sql`, `SqlAccess.Condition.Fits.derives` — the text gives the tokens,
  and these derive the formula;
* `SqlAccess.Condition.truth_formula`, `SqlAccess.Condition.matches_tests` — what the formula keeps;
* `SqlAccess.Condition.sql_keeps_meaning` — **the text in SQL means what the condition means**.
-/

import SqlAccess.Proofs.Sql.Formula
import SqlAccess.Proofs.Condition.Reading

set_option autoImplicit false

namespace SqlAccess.Condition

/-! ### Truth values -/

/-- The truth value of a condition whose first predicate has the given number. -/
def truth (holds : Nat → Bool) (first : Nat) : Condition → Bool
  | simple _ => holds first
  | and l r => l.truth holds first && r.truth holds (first + l.predicates.length)
  | or l r => l.truth holds first || r.truth holds (first + l.predicates.length)
  | group body => body.truth holds first

/-- What a column of the given type is compared with. -/
def Operator.argumentType? (column : ParameterType) : Operator → Option ParameterType
  | eq | ne | lt | gt | le | ge => some column
  | isIn => some (.list column)
  | like => some .text
  | isNull | isNotNull => none

theorem paramType?_eq (p : Predicate) :
    p.paramType? = p.op.argumentType? p.column.paramType := by
  obtain ⟨field, column, op⟩ := p
  cases op <;> rfl

/-! ### The shape of what is read -/

/-- The conditions that may stand at a place of the given rank without parentheses. -/
inductive Fits : Sql.Rank → Condition → Prop where
  | or {l r : Condition} (hl : Fits .conjunction l) (hr : Fits .disjunction r) :
      Fits .disjunction (.or l r)
  | conjunction {c : Condition} (hc : Fits .conjunction c) : Fits .disjunction c
  | and {l r : Condition} (hl : Fits .factor l) (hr : Fits .conjunction r) :
      Fits .conjunction (.and l r)
  | factor {c : Condition} (hc : Fits .factor c) : Fits .conjunction c
  | group {c : Condition} (hc : Fits .disjunction c) : Fits .factor (.group c)
  | simple (p : Predicate) : Fits .factor (.simple p)

variable {table : Table} {cs : List Char} {c : Condition}

/-- A part without a separator is read as a condition of the tighter rank. -/
theorem Reads.fits (h : Reads table cs c) :
    Fits .disjunction c ∧ (cutTopLevel '|' 0 cs = none → Fits .conjunction c ∧
      (cutTopLevel '&' 0 cs = none → Fits .factor c)) := by
  induction h with
  | or hcut _ _ ihl ihr =>
      -- the cut is at the first separator, so none is left before it
      have hl := (ihl.2 (cutTopLevel_left_eq_none hcut)).1
      refine ⟨.or hl ihr.1, fun hor => ?_⟩
      rw [hor] at hcut
      cases hcut
  | and hor hcut _ _ ihl ihr =>
      obtain ⟨horl, horr⟩ := cutTopLevel_eq_none_of_some .and hor hcut
      have hl := (ihl.2 horl).2 (cutTopLevel_left_eq_none hcut)
      have hand := Fits.and hl (ihr.2 horr).1
      refine ⟨.conjunction hand, fun _ => ⟨hand, fun hnone => ?_⟩⟩
      rw [hnone] at hcut
      cases hcut
  | group _ _ _ _ ih =>
      have hgroup := Fits.group ih.1
      exact ⟨.conjunction (.factor hgroup), fun _ => ⟨.factor hgroup, fun _ => hgroup⟩⟩
  | @unit cs p _ _ _ _ =>
      have hsimple := Fits.simple p
      exact ⟨.conjunction (.factor hsimple), fun _ => ⟨.factor hsimple, fun _ => hsimple⟩⟩

theorem ReadsUnit.column_mem {unit : List Char} {p : Predicate} (h : ReadsUnit table unit p) :
    p.column ∈ table.columns := by
  cases h with
  | index _ hcolumn => exact (resolve_eq_ok hcolumn).2.2
  | dotted _ _ _ hcolumn => exact (resolve_eq_ok hcolumn).2.2

/-- All predicates are about columns of the table. -/
theorem Reads.column_mem (h : Reads table cs c) : ∀ p ∈ c.predicates, p.column ∈ table.columns := by
  induction h with
  | or _ _ _ ihl ihr =>
      intro p hp
      exact (List.mem_append.1 hp).elim (ihl p) (ihr p)
  | and _ _ _ _ ihl ihr =>
      intro p hp
      exact (List.mem_append.1 hp).elim (ihl p) (ihr p)
  | group _ _ _ _ ih => exact ih
  | unit _ _ _ hunit =>
      intro p hp
      obtain rfl := List.mem_singleton.1 hp
      exact hunit.column_mem

/-! ### Tokens -/

/-- The tokens after the name of the column; the marker has the given number. -/
def Operator.tokens (k : Nat) : Operator → List Sql.Token
  | isIn => [.keyword .isIn, .opening, .marker k, .closing]
  | like => [.keyword .like, .marker k]
  | isNull => [.keyword .is, .keyword .null]
  | isNotNull => [.keyword .is, .keyword .not, .keyword .null]
  | op => [.comparison op, .marker k]

/-- The tokens of a condition whose first marker has the given number. -/
def tokens (k : Nat) : Condition → List Sql.Token
  | simple p => .name p.column.name :: p.op.tokens k
  | and l r => l.tokens k ++ .keyword .and :: r.tokens (k + l.paramTypes.length)
  | or l r => l.tokens k ++ .keyword .or :: r.tokens (k + l.paramTypes.length)
  | group body => .opening :: (body.tokens k ++ [.closing])

/-- The test that a predicate is in SQL. -/
def Predicate.test (k : Nat) (p : Predicate) : Sql.Test :=
  ⟨p.column.name, p.op, p.paramType?.map fun _ => k⟩

/-- The formula of a condition whose first marker has the given number. -/
def formula (k : Nat) : Condition → Sql.Formula
  | simple p => .test (p.test k)
  | and l r => .and (l.formula k) (r.formula (k + l.paramTypes.length))
  | or l r => .or (l.formula k) (r.formula (k + l.paramTypes.length))
  | group body => body.formula k

@[simp] theorem paramTypes_and (l r : Condition) :
    (and l r).paramTypes = l.paramTypes ++ r.paramTypes := List.filterMap_append

@[simp] theorem paramTypes_or (l r : Condition) :
    (or l r).paramTypes = l.paramTypes ++ r.paramTypes := List.filterMap_append

@[simp] theorem paramTypes_group (body : Condition) :
    (group body).paramTypes = body.paramTypes := rfl

theorem paramTypes_simple (p : Predicate) : (simple p).paramTypes = p.paramType?.toList := by
  cases h : p.paramType? with
  | none => simp [paramTypes, predicates, h]
  | some type => simp [paramTypes, predicates, h]

theorem length_paramTypes_simple (p : Predicate) :
    (simple p).paramTypes.length = if p.op.takesParam then 1 else 0 := by
  obtain ⟨field, column, op⟩ := p
  cases op <;> rfl

/-! ### The text gives the tokens -/

section

open Sql

/-- What follows the name of the column gives its tokens. -/
theorem lexes_sqlSuffix (op : Operator) (k : Nat) :
    Lexes k op.sqlSuffix.toList (op.tokens k) (if op.takesParam then k + 1 else k) := by
  have hmarker : Lexes k [' ', '?'] [.marker k] (k + 1) := (Lexes.marker k).blank_cons
  have hblank : ∀ cs, Ends (' ' :: cs) := fun cs => ends_cons_iff.2 (by decide)
  have hcompare (symbol : String) (hsymbol : (symbol, op) ∈ comparisons) :
      Lexes k (' ' :: symbol.toList ++ [' ', '?']) [.comparison op, .marker k] (k + 1) :=
    (Lexes.comparison hsymbol k).blank_cons.append hmarker (hblank _)
  have hnull : Lexes k (' ' :: Keyword.null.text.toList) [.keyword .null] k :=
    (Lexes.keyword .null k).blank_cons
  cases op with
  | eq => exact hcompare "=" (by decide)
  | ne => exact hcompare "!=" (by decide)
  | lt => exact hcompare "<" (by decide)
  | gt => exact hcompare ">" (by decide)
  | le => exact hcompare "<=" (by decide)
  | ge => exact hcompare ">=" (by decide)
  | isIn =>
      have hlist := (Lexes.marker k).append (Lexes.closing (k + 1)) (ends_cons_iff.2 (by decide))
      have hargument := hlist.opening_cons.blank_cons
      exact (Lexes.keyword .isIn k).blank_cons.append hargument (hblank _)
  | like => exact (Lexes.keyword .like k).blank_cons.append hmarker (hblank _)
  | isNull => exact (Lexes.keyword .is k).blank_cons.append hnull (hblank _)
  | isNotNull =>
      have hnot := (Lexes.keyword .not k).blank_cons.append hnull (hblank _)
      exact (Lexes.keyword .is k).blank_cons.append hnot (hblank _)

theorem ends_sqlSuffix (op : Operator) : Ends op.sqlSuffix.toList := by
  cases op <;> exact ends_cons_iff.2 (by decide)

/-- Where the names of columns need no quotes, the text of a condition gives its tokens. -/
theorem lexes_sql (hnames : ∀ p ∈ c.predicates, IsPlainName p.column.name) (k : Nat) :
    Lexes k c.sql.toList (c.tokens k) (k + c.paramTypes.length) := by
  induction c generalizing k with
  | simple p =>
      have hname := Lexes.name (hnames p List.mem_cons_self) k
      have hlexes := hname.append (lexes_sqlSuffix p.op k) (ends_sqlSuffix p.op)
      rw [length_paramTypes_simple, sql, Predicate.sql, Operator.sql, String.toList_append]
      split <;> rename_i htakes
      · rwa [if_pos htakes] at hlexes
      · rwa [if_neg htakes] at hlexes
  | and l r ihl ihr =>
      have hl := ihl (fun p hp => hnames p (List.mem_append_left _ hp)) k
      have hr := ihr (fun p hp => hnames p (List.mem_append_right _ hp)) (k + l.paramTypes.length)
      have hand := hl.connect .and hr
      rw [paramTypes_and, List.length_append, ← Nat.add_assoc]
      simpa [sql, tokens, Keyword.text] using hand
  | or l r ihl ihr =>
      have hl := ihl (fun p hp => hnames p (List.mem_append_left _ hp)) k
      have hr := ihr (fun p hp => hnames p (List.mem_append_right _ hp)) (k + l.paramTypes.length)
      have hor := hl.connect .or hr
      rw [paramTypes_or, List.length_append, ← Nat.add_assoc]
      simpa [sql, tokens, Keyword.text] using hor
  | group body ih =>
      simpa [sql, tokens] using (ih hnames k).parentheses

end

/-! ### The tokens derive the formula -/

theorem derivesTest_test (p : Predicate) (k : Nat) :
    Sql.DerivesTest (.name p.column.name :: p.op.tokens k) (p.test k) := by
  obtain ⟨field, column, op⟩ := p
  cases op with
  | isIn => exact .isIn _ k
  | like => exact .like _ k
  | isNull => exact .isNull _
  | isNotNull => exact .isNotNull _
  | eq => exact .comparison _ _ k
  | ne => exact .comparison _ _ k
  | lt => exact .comparison _ _ k
  | gt => exact .comparison _ _ k
  | le => exact .comparison _ _ k
  | ge => exact .comparison _ _ k

/-- A condition of the right shape needs no parentheses but those of its groups. -/
theorem Fits.derives {rank : Sql.Rank} (h : Fits rank c) (k : Nat) :
    Sql.Derives rank (c.tokens k) (c.formula k) := by
  induction h generalizing k with
  | or _ _ ihl ihr => exact .or (ihl k) (ihr _)
  | conjunction _ ih => exact .conjunction (ih k)
  | and _ _ ihl ihr => exact .and (ihl k) (ihr _)
  | factor _ ih => exact .factor (ih k)
  | group _ ih => exact .parentheses (ih k)
  | simple p => exact .test (derivesTest_test p k)

/-! ### What the formula keeps -/

@[simp] theorem length_tests (c : Condition) (k : Nat) :
    (c.formula k).tests.length = c.predicates.length := by
  induction c generalizing k with
  | simple p => rfl
  | and l r ihl ihr => simp [formula, Sql.Formula.tests, predicates, ihl, ihr]
  | or l r ihl ihr => simp [formula, Sql.Formula.tests, predicates, ihl, ihr]
  | group body ih => exact ih k

theorem truth_formula (holds : Nat → Bool) (c : Condition) (k first : Nat) :
    (c.formula k).truth holds first = c.truth holds first := by
  induction c generalizing k first with
  | simple p => rfl
  | and l r ihl ihr => rw [formula, Sql.Formula.truth, truth, length_tests, ihl, ihr]
  | or l r ihl ihr => rw [formula, Sql.Formula.truth, truth, length_tests, ihl, ihr]
  | group body ih => exact ih k first

/-- The markers are numbered one after the other, one for each parameter. -/
theorem filterMap_marker_tests (c : Condition) (k : Nat) :
    (c.formula k).tests.filterMap Sql.Test.marker = List.range' k c.paramTypes.length := by
  induction c generalizing k with
  | simple p =>
      rw [paramTypes_simple]
      cases h : p.paramType? with
      | none => simp [formula, Sql.Formula.tests, Predicate.test, h]
      | some type => simp [formula, Sql.Formula.tests, Predicate.test, h]
  | and l r ihl ihr =>
      rw [formula, Sql.Formula.tests, List.filterMap_append, ihl, ihr, paramTypes_and,
        List.length_append, List.range'_append_1]
  | or l r ihl ihr =>
      rw [formula, Sql.Formula.tests, List.filterMap_append, ihl, ihr, paramTypes_or,
        List.length_append, List.range'_append_1]
  | group body ih => exact ih k

/-- A test has the column and the operation of a predicate, and its marker binds a parameter of the
predicate's type. -/
structure Matches (types : List ParameterType) (t : Sql.Test) (p : Predicate) : Prop where
  column : t.column = p.column.name
  op : t.op = p.op
  type : t.marker.bind (types[·]?) = p.op.argumentType? p.column.paramType

/-- The tests match the predicates one by one, whatever parameters come before and after. -/
theorem matches_tests (c : Condition) (before after : List ParameterType) :
    List.Forall₂ (Matches (before ++ c.paramTypes ++ after)) (c.formula before.length).tests
      c.predicates := by
  induction c generalizing before after with
  | simple p =>
      refine .cons ⟨rfl, rfl, ?_⟩ .nil
      rw [← paramType?_eq, paramTypes_simple, Predicate.test]
      cases h : p.paramType? with
      | none => rfl
      | some type => simp
  | and l r ihl ihr =>
      have hl := ihl before (r.paramTypes ++ after)
      have hr := ihr (before ++ l.paramTypes) after
      simp only [paramTypes_and, List.append_assoc, List.length_append] at hl hr ⊢
      exact List.rel_append hl hr
  | or l r ihl ihr =>
      have hl := ihl before (r.paramTypes ++ after)
      have hr := ihr (before ++ l.paramTypes) after
      simp only [paramTypes_or, List.append_assoc, List.length_append] at hl hr ⊢
      exact List.rel_append hl hr
  | group body ih => exact ih before after

theorem count_marker_sqlSuffix (op : Operator) :
    op.sqlSuffix.toList.count '?' = if op.takesParam then 1 else 0 := by
  cases op <;> decide

/-- The text has a `?` for each parameter and no other. -/
theorem count_marker_sql (hnames : ∀ p ∈ c.predicates, Sql.IsPlainName p.column.name) :
    c.sql.toList.count '?' = c.paramTypes.length := by
  induction c with
  | simple p =>
      have hname : p.column.name.toList.count '?' = 0 := by
        refine List.count_eq_zero.2 fun hmem => ?_
        have hword := (hnames p List.mem_cons_self).word _ hmem
        exact absurd hword (by decide)
      rw [sql, Predicate.sql, Operator.sql, String.toList_append, List.count_append, hname,
        count_marker_sqlSuffix, length_paramTypes_simple, Nat.zero_add]
  | and l r ihl ihr =>
      have hl := ihl fun p hp => hnames p (List.mem_append_left _ hp)
      have hr := ihr fun p hp => hnames p (List.mem_append_right _ hp)
      simp [sql, hl, hr]
  | or l r ihl ihr =>
      have hl := ihl fun p hp => hnames p (List.mem_append_left _ hp)
      have hr := ihr fun p hp => hnames p (List.mem_append_right _ hp)
      simp [sql, hl, hr]
  | group body ih => simp [sql, ih hnames]

/-- **The text in SQL means what the condition means.**  It denotes one formula only, with the
condition's truth value under every assignment to the predicates from left to right.  Its markers
are numbered one by one, and each belongs to the parameter of that number and to the predicate that
the parameter is for. -/
theorem sql_keeps_meaning {source : String}
    (hnames : ∀ column ∈ table.columns, Sql.IsPlainName column.name)
    (h : parse table source = .ok c) :
    ∃ f, (∀ g, Sql.Denotes c.sql g ↔ g = f) ∧
      (∀ holds, f.truth holds 0 = c.truth holds 0) ∧
      c.sql.toList.count '?' = c.paramTypes.length ∧
      f.tests.filterMap Sql.Test.marker = List.range c.paramTypes.length ∧
      List.Forall₂ (Matches c.paramTypes) f.tests c.predicates := by
  obtain ⟨-, hreads⟩ := parse_eq_ok_iff.1 h
  have hplain : ∀ p ∈ c.predicates, Sql.IsPlainName p.column.name := fun p hp =>
    hnames _ (hreads.column_mem p hp)
  have hdenotes : Sql.Denotes c.sql (c.formula 0) :=
    ⟨c.tokens 0, (lexes_sql hplain 0).lex_eq, hreads.fits.1.derives 0⟩
  -- no parameter comes before the first and none after the last
  refine ⟨c.formula 0, fun g => ⟨fun hg => hg.unique hdenotes, ?_⟩,
    fun holds => truth_formula holds c 0 0, count_marker_sql hplain, ?_, ?_⟩
  · rintro rfl
    exact hdenotes
  · rw [filterMap_marker_tests, List.range_eq_range']
  · simpa using matches_tests c [] []

/-- A disjunction in braces beneath a conjunction, and predicates without a parameter and with a
list. -/
theorem sql_keeps_meaning_of_grouped_disjunction :
    ∃ c f, parse ⟨"people", [⟨"id", "BIGINT"⟩, ⟨"full_name", "varchar(64)"⟩]⟩
        " {1 | id.gt} & Full_Name.like | 1.in&2.isnull" = .ok c ∧
      (∀ column ∈ [⟨"id", "BIGINT"⟩, ⟨"full_name", "varchar(64)"⟩],
        Sql.IsPlainName (Column.name column)) ∧
      c.sql = "(id = ? OR id > ?) AND full_name LIKE ? OR id IN (?) AND full_name IS NULL" ∧
      c.paramTypes = [.integer, .integer, .text, .list .integer] ∧
      Sql.Denotes c.sql f ∧
      (∀ holds, f.truth holds 0 = ((holds 0 || holds 1) && holds 2 || holds 3 && holds 4)) ∧
      f.tests.filterMap Sql.Test.marker = [0, 1, 2, 3] := by
  have hnames : ∀ column ∈ [⟨"id", "BIGINT"⟩, ⟨"full_name", "varchar(64)"⟩],
      Sql.IsPlainName (Column.name column) := by
    intro column hcolumn
    simp only [List.mem_cons, List.not_mem_nil, or_false] at hcolumn
    rcases hcolumn with rfl | rfl
    · exact ⟨⟨'i', by decide⟩, List.all_eq_true.1 (by decide), by decide⟩
    · exact ⟨⟨'f', by decide⟩, List.all_eq_true.1 (by decide), by decide⟩
  have h : parse ⟨"people", [⟨"id", "BIGINT"⟩, ⟨"full_name", "varchar(64)"⟩]⟩
      " {1 | id.gt} & Full_Name.like | 1.in&2.isnull" =
      .ok (.or
        (.and (.group (.or (.simple ⟨.index 1, ⟨"id", "BIGINT"⟩, .eq⟩)
            (.simple ⟨.name "id", ⟨"id", "BIGINT"⟩, .gt⟩)))
          (.simple ⟨.name "Full_Name", ⟨"full_name", "varchar(64)"⟩, .like⟩))
        (.and (.simple ⟨.index 1, ⟨"id", "BIGINT"⟩, .isIn⟩)
          (.simple ⟨.index 2, ⟨"full_name", "varchar(64)"⟩, .isNull⟩))) := by
    decide +kernel
  obtain ⟨f, hf, htruth, -, hmarkers, -⟩ := sql_keeps_meaning hnames h
  exact ⟨_, f, h, hnames, by decide, by decide +kernel, (hf f).2 rfl,
    fun holds => htruth holds, hmarkers⟩

end SqlAccess.Condition
