/-
**What stands before the first word.**

Before its first word a statement may have blanks, opening parentheses and comments that end before
it.  They make no difference: the statement is classified, paged and counted by what comes after
them, and whoever reads the text character by character meets nothing but blanks in code before he
comes there.

One comment is misread.  Where the body of a block comment begins with a slash, the star of the
opening mark and this slash are taken for the closing mark, and the first word is looked for inside
the comment.

Main definitions:

* `SqlAccess.Sql.IsBody` — the body of a block comment;
* `SqlAccess.Sql.Leading` — **what may stand before the first word**;
* `SqlAccess.Sql.Unslashed` — a body that is not misread.

Main results:

* `SqlAccess.Sql.skipLeading_append` — what stands before the first word is skipped;
* `SqlAccess.Sql.spotsFrom_append` — only blanks of it are code;
* `SqlAccess.Sql.leading_transparent` — **what stands before the first word makes no difference**;
* `SqlAccess.Sql.classified_inside_comment` — a word in a comment that is taken for the first.
-/

import SqlAccess.Pipeline.Paginator
import SqlAccess.Proofs.Sql.Counting
import SqlAccess.Proofs.Sql.Paging
import SqlAccess.Proofs.Text.Cut
import SqlAccess.Proofs.Text.Trim

set_option autoImplicit false

namespace SqlAccess.Sql

variable {allowed : List Char → Prop} {lead rest body cs ds : List Char} {c : Char}

/-! ### The texts before the first word -/

/-- The body of a block comment: of the marks that may end the comment, the one after the body is
the first. -/
def IsBody (body : List Char) : Prop :=
  ∀ cs ds, body ++ ['*', '/'] = cs ++ '*' :: '/' :: ds → ds = []

theorem isBody_iff : Text.occursIn ['*', '/'] (body ++ ['*']) = false ↔ IsBody body := by
  rw [Bool.eq_false_iff, ne_eq, Text.occursIn_iff]
  constructor
  · intro hnot cs ds heq
    rcases List.eq_nil_or_concat ds with rfl | ⟨ds, d, rfl⟩
    · rfl
    · refine absurd ⟨cs, ds, ?_⟩ hnot
      have heq : body ++ ['*'] ++ ['/'] = cs ++ ['*', '/'] ++ ds ++ [d] := by simpa using heq
      exact (List.append_inj' heq rfl).1.symm
  · rintro h ⟨cs, ds, heq⟩
    have hmark : body ++ ['*', '/'] = cs ++ '*' :: '/' :: (ds ++ ['/']) := by
      have hlast : body ++ ['*', '/'] = body ++ ['*'] ++ ['/'] := by simp
      rw [hlast, ← heq]
      simp
    exact absurd (h cs _ hmark) (by simp)

instance (body : List Char) : Decidable (IsBody body) := decidable_of_iff _ isBody_iff

/-- **What may stand before the first word**: blanks, opening parentheses, line comments with the
end of the line, and block comments, the bodies of which are of some kind. -/
inductive Leading (allowed : List Char → Prop) : List Char → Prop where
  | nil : Leading allowed []
  | blank {c : Char} {lead : List Char} :
      Text.isBlank c = true → Leading allowed lead → Leading allowed (c :: lead)
  | paren {lead : List Char} : Leading allowed lead → Leading allowed ('(' :: lead)
  | line (body : List Char) {lead : List Char} :
      '\n' ∉ body → Leading allowed lead → Leading allowed ('-' :: '-' :: (body ++ '\n' :: lead))
  | block (body : List Char) {lead : List Char} :
      IsBody body → allowed body → Leading allowed lead →
        Leading allowed ('/' :: '*' :: (body ++ '*' :: '/' :: lead))

/-- The body does not begin with a slash. -/
def Unslashed (body : List Char) : Prop := body.head? ≠ some '/'

instance (body : List Char) : Decidable (Unslashed body) := inferInstanceAs (Decidable (_ ≠ _))

/-! ### Comments that end -/

theorem skipPast_append (h : '\n' ∉ body) (rest : List Char) :
    skipPast '\n' (body ++ '\n' :: rest) = rest := by
  induction body with
  | nil => exact skipPast_cons_self '\n' rest
  | cons c body ih =>
      rw [List.mem_cons, not_or] at h
      rw [List.cons_append, skipPast_cons_of_ne (Ne.symm h.1), ih h.2]

theorem IsBody.tail (h : IsBody (c :: body)) : IsBody body := by
  intro cs ds heq
  exact h (c :: cs) ds (by rw [List.cons_append, heq, List.cons_append])

theorem skipBlock_append (h : IsBody body) (rest : List Char) :
    skipBlock (body ++ '*' :: '/' :: rest) = rest := by
  induction body with
  | nil => exact skipBlock_cons_of_closing rest
  | cons c body ih =>
      have hopen : ¬ (c = '*' ∧ (body ++ '*' :: '/' :: rest).head? = some '/') := by
        rintro ⟨rfl, hhead⟩
        cases body with
        | nil => cases hhead
        | cons d body =>
            obtain rfl : d = '/' := Option.some.inj hhead
            exact absurd (h [] (body ++ ['*', '/']) rfl) (by simp)
      rw [List.cons_append, skipBlock_cons_of_not hopen, ih h.tail]

/-! ### Skipping -/

theorem skipLeading_of_skipOne? (h : skipOne? (Text.trimStart cs) = some rest) :
    skipLeading cs = skipLeading rest := by
  rw [skipLeading]
  split
  · rename_i hskip
    rw [Option.some.inj (hskip.symm.trans h)]
  · rename_i hskip
    cases hskip.symm.trans h

theorem skipLeading_of_none (h : skipOne? (Text.trimStart cs) = none) :
    skipLeading cs = Text.trimStart cs := by
  rw [skipLeading]
  split
  · rename_i hskip
    cases hskip.symm.trans h
  · rfl

theorem skipLeading_nil : skipLeading [] = [] := skipLeading_of_none rfl

theorem trimStart_cons_of_not (h : Text.isBlank c = false) (cs : List Char) :
    Text.trimStart (c :: cs) = c :: cs :=
  List.dropWhile_cons_of_neg (by simp [h])

theorem skipLeading_blank (h : Text.isBlank c = true) (cs : List Char) :
    skipLeading (c :: cs) = skipLeading cs := by
  have htrim : Text.trimStart (c :: cs) = Text.trimStart cs := List.dropWhile_cons_of_pos h
  cases hskip : skipOne? (Text.trimStart cs) with
  | none => rw [skipLeading_of_none hskip, skipLeading_of_none (by rwa [htrim]), htrim]
  | some rest => rw [skipLeading_of_skipOne? hskip, skipLeading_of_skipOne? (by rwa [htrim])]

theorem skipLeading_paren (cs : List Char) : skipLeading ('(' :: cs) = skipLeading cs :=
  skipLeading_of_skipOne? (by rw [trimStart_cons_of_not rfl, skipOne?])

theorem skipLeading_line (h : '\n' ∉ body) (rest : List Char) :
    skipLeading ('-' :: '-' :: (body ++ '\n' :: rest)) = skipLeading rest := by
  have hmark : '\n' ∉ '-' :: '-' :: body := by simpa using h
  have hcut : Text.cut? '\n' ('-' :: '-' :: (body ++ '\n' :: rest)) =
      some ('-' :: '-' :: body, rest) := Text.cut?_append_cons hmark rest
  refine skipLeading_of_skipOne? ?_
  rw [trimStart_cons_of_not rfl, skipOne?, hcut]

/-- A block comment is looked through from its opening mark on. -/
theorem skipLeading_block (cs : List Char) :
    skipLeading ('/' :: '*' :: cs) = skipLeading (skipBlock ('*' :: cs)) := by
  have hopen : skipBlock ('/' :: '*' :: cs) = skipBlock ('*' :: cs) :=
    skipBlock_cons_of_not (by simp)
  refine skipLeading_of_skipOne? ?_
  rw [trimStart_cons_of_not rfl, skipOne?, ← hopen, skipBlock]
  split <;> simp_all

theorem skipLeading_unslashed (h : IsBody body) (hslash : Unslashed body) (rest : List Char) :
    skipLeading ('/' :: '*' :: (body ++ '*' :: '/' :: rest)) = skipLeading rest := by
  have hstar : ¬ ('*' = '*' ∧ (body ++ '*' :: '/' :: rest).head? = some '/') := by
    rintro ⟨-, hhead⟩
    cases body with
    | nil => cases hhead
    | cons c body => exact hslash hhead
  rw [skipLeading_block, skipBlock_cons_of_not hstar, skipBlock_append h]

/-- **A slash that begins a block comment is taken for its end.** -/
theorem skipLeading_slashed (rest : List Char) :
    skipLeading ('/' :: '*' :: '/' :: rest) = skipLeading rest := by
  rw [skipLeading_block, skipBlock_cons_of_closing]

/-- **What stands before the first word is skipped.** -/
theorem skipLeading_append (h : Leading Unslashed lead) (rest : List Char) :
    skipLeading (lead ++ rest) = skipLeading rest := by
  induction h with
  | nil => rfl
  | blank hc _ ih => rw [List.cons_append, skipLeading_blank hc, ih]
  | paren _ ih => rw [List.cons_append, skipLeading_paren, ih]
  | line _ hbody _ ih =>
      rw [List.cons_append, List.cons_append, List.append_assoc, List.cons_append,
        skipLeading_line hbody, ih]
  | block _ hbody hslash _ ih =>
      rw [List.cons_append, List.cons_append, List.append_assoc, List.cons_append,
        List.cons_append, skipLeading_unslashed hbody hslash, ih]

/-- A text that begins with a letter is left as it is. -/
theorem skipLeading_of_alpha (h : c.isAlpha = true) (cs : List Char) :
    skipLeading (c :: cs) = c :: cs := by
  have hblank : Text.isBlank c = false := Text.isBlank_of_isWordChar (Text.isWordChar_of_isAlpha h)
  have hstir := not_mem_stirring (f := Char.isAlpha) rfl h
  simp only [stirring, List.mem_cons, List.not_mem_nil, or_false, not_or] at hstir
  have htrim := trimStart_cons_of_not hblank cs
  refine (skipLeading_of_none ?_).trans htrim
  rw [htrim, skipOne?.eq_def]
  split <;> simp_all

/-! ### Reading -/

/-- A character that stirs nothing is one of code. -/
theorem spotsFrom_cons_of_calm (h : c ∉ stirring) (before : Option Char) (depth : Nat)
    (cs : List Char) :
    spotsFrom before depth (c :: cs) =
      ⟨c, depth, before, c :: cs⟩ :: spotsFrom (some c) depth cs := by
  have hoffers := Calm.offers h depth cs.head?
  have hnext := Calm.next_eq h depth cs.head?
  have hcons := spotsIn_cons (⟨.code, depth⟩ : Place) before c cs
  rw [if_pos hoffers, hnext] at hcons
  rw [spotsFrom_eq_spotsIn, spotsFrom_eq_spotsIn]
  exact hcons

/-- **Only blanks are code** before the first word. -/
theorem spotsFrom_append (h : Leading allowed lead) (before : Option Char) (depth : Nat)
    (rest : List Char) :
    ∃ passed prev depth', (∀ s ∈ passed, Text.isBlank (Spot.char s) = true) ∧
      spotsFrom before depth (lead ++ rest) = passed ++ spotsFrom prev depth' rest := by
  induction h generalizing before depth with
  | nil => exact ⟨[], before, depth, nofun, rfl⟩
  | blank hc _ ih =>
      rename_i c lead _
      obtain ⟨passed, prev, depth', hpassed, hrest⟩ := ih (some c) depth
      refine ⟨⟨c, depth, before, c :: (lead ++ rest)⟩ :: passed, prev, depth', ?_, ?_⟩
      · exact List.forall_mem_cons.2 ⟨hc, hpassed⟩
      · rw [List.cons_append, spotsFrom_cons_of_calm (not_mem_stirring (f := Text.isBlank) rfl hc),
          hrest, List.cons_append]
  | paren _ ih =>
      obtain ⟨passed, prev, depth', hpassed, hrest⟩ := ih (some '(') (depth + 1)
      refine ⟨passed, prev, depth', hpassed, ?_⟩
      rw [List.cons_append, spotsFrom]
      simp [isQuote, hrest]
  | line _ hbody _ ih =>
      obtain ⟨passed, prev, depth', hpassed, hrest⟩ := ih (some '\n') depth
      refine ⟨passed, prev, depth', hpassed, ?_⟩
      rw [List.cons_append, List.cons_append, List.append_assoc, List.cons_append, spotsFrom]
      simp [isQuote, skipPast_cons_of_ne, skipPast_append hbody, hrest]
  | block _ hbody _ _ ih =>
      obtain ⟨passed, prev, depth', hpassed, hrest⟩ := ih (some '/') depth
      refine ⟨passed, prev, depth', hpassed, ?_⟩
      rw [List.cons_append, List.cons_append, List.append_assoc, List.cons_append,
        List.cons_append, spotsFrom]
      simp [isQuote, skipBlock_append hbody, hrest]

/-- The first word is where code begins that is not blank. -/
theorem find?_spots_append (h : Leading allowed lead) (hc : c.isAlpha = true) (cs : List Char) :
    ((spots (lead ++ c :: cs)).find? fun s => !Text.isBlank s.char).map Spot.text =
      some (c :: cs) := by
  obtain ⟨passed, prev, depth, hpassed, hspots⟩ := spotsFrom_append h none 0 (c :: cs)
  have hblank : Text.isBlank c = false := Text.isBlank_of_isWordChar (Text.isWordChar_of_isAlpha hc)
  have hcalm := not_mem_stirring (f := Char.isAlpha) rfl hc
  have hnone : passed.find? (fun s => !Text.isBlank s.char) = none :=
    List.find?_eq_none.2 fun s hs => by simp [hpassed s hs]
  rw [spots, hspots, List.find?_append, hnone, Option.none_or, spotsFrom_cons_of_calm hcalm,
    List.find?_cons_of_pos (by simp [hblank]), Option.map_some]

/-! ### The end of the text -/

/-- What is cut off at the end of a text is cut off at the end of its last part; where that is all
of it, something may be cut off before. -/
theorem withoutEnd_append_cases (cs ds : List Char) :
    withoutEnd (cs ++ ds) = cs ++ withoutEnd ds ∨
      withoutEnd ds = [] ∧ ∃ ending, IsEnding ending ∧ cs = withoutEnd (cs ++ ds) ++ ending := by
  have hblanks (cs ds : List Char) : Text.trimEnd (cs ++ ds) =
      if Text.trimEnd ds = [] then Text.trimEnd cs else cs ++ Text.trimEnd ds :=
    Text.dropTrailing_append_eq_ite Text.isBlank cs ds
  have hsemicolons := Text.dropTrailing_append_eq_ite (· == ';')
  by_cases hfirst : Text.trimEnd ds = []
  · right
    have hcut : withoutEnd (cs ++ ds) = withoutEnd cs := by
      rw [withoutEnd, hblanks, if_pos hfirst, withoutEnd]
    exact ⟨by rw [withoutEnd, hfirst]; rfl, hcut ▸ withoutEnd_append cs⟩
  by_cases hsecond : Text.dropTrailing (· == ';') (Text.trimEnd ds) = []
  · right
    have hcut : withoutEnd (cs ++ ds) = Text.trimEnd (Text.dropTrailing (· == ';') cs) := by
      rw [withoutEnd, hblanks, if_neg hfirst, hsemicolons, if_pos hsecond]
    obtain ⟨semicolons, hrun, hcs⟩ := Text.exists_dropTrailing_append (· == ';') cs
    obtain ⟨blanks, hblank, hrest⟩ :=
      Text.exists_dropTrailing_append Text.isBlank (Text.dropTrailing (· == ';') cs)
    refine ⟨by rw [withoutEnd, hsecond]; rfl, blanks ++ semicolons, ?_, ?_⟩
    · intro c hc
      rcases List.mem_append.1 hc with hc | hc
      · exact .inl (hblank c hc)
      · exact .inr (by simpa using hrun c hc)
    · rw [hcut, Text.trimEnd, ← List.append_assoc, ← hrest, ← hcs]
  have hlast : withoutEnd (cs ++ ds) =
      if withoutEnd ds = [] then Text.trimEnd cs else cs ++ withoutEnd ds := by
    rw [withoutEnd, hblanks, if_neg hfirst, hsemicolons, if_neg hsecond, hblanks, withoutEnd]
  by_cases hthird : withoutEnd ds = []
  · right
    obtain ⟨blanks, hblank, hcs⟩ := Text.exists_dropTrailing_append Text.isBlank cs
    rw [hlast, if_pos hthird]
    exact ⟨hthird, blanks, fun c hc => .inl (hblank c hc), hcs⟩
  · left
    rw [hlast, if_neg hthird]

theorem exists_of_append_eq_append (cs : List Char) (h : c ∉ ds)
    (heq : cs ++ c :: rest = lead ++ ds) : ∃ tail, lead = cs ++ c :: tail ∧ rest = tail ++ ds := by
  rcases List.append_eq_append_iff.1 heq with ⟨a, rfl, ha⟩ | ⟨a, -, ha⟩
  · cases a with
    | nil =>
        rw [List.nil_append] at ha
        exact absurd (ha ▸ List.mem_cons_self) h
    | cons d a =>
        obtain ⟨rfl, rfl⟩ := List.cons.inj ha
        exact ⟨a, rfl, rfl⟩
  · exact absurd (by rw [ha]; simp) h

theorem skipLeading_open_line (h : '\n' ∉ body) : skipLeading ('-' :: '-' :: body) = [] := by
  have hcut : Text.cut? '\n' ('-' :: '-' :: body) = none :=
    Text.cut?_eq_none_iff.2 (by simpa using h)
  have hskip : skipOne? (Text.trimStart ('-' :: '-' :: body)) = some [] := by
    rw [trimStart_cons_of_not rfl, skipOne?, hcut]
  exact (skipLeading_of_skipOne? hskip).trans skipLeading_nil

/-- What is cut off may end a comment, but no first word appears. -/
theorem skipLeading_eq_nil (h : Leading Unslashed lead) {ending : List Char}
    (hending : IsEnding ending) (heq : lead = cs ++ ending) : skipLeading cs = [] := by
  have hmem {c : Char} (hc : c ∈ stirring) : c ∉ ending := fun he => hending.calm c he hc
  induction h generalizing cs with
  | nil =>
      obtain ⟨rfl, -⟩ := List.append_eq_nil_iff.1 heq.symm
      exact skipLeading_nil
  | blank hc _ ih =>
      cases cs with
      | nil => exact skipLeading_nil
      | cons d cs =>
          obtain ⟨rfl, rfl⟩ := List.cons.inj heq
          rw [skipLeading_blank hc, ih rfl]
  | paren _ ih =>
      obtain ⟨tail, rfl, rfl⟩ := exists_of_append_eq_append [] (hmem (by decide)) heq
      exact (skipLeading_paren tail).trans (ih rfl)
  | line body hbody _ ih =>
      obtain ⟨tail, rfl, htail⟩ := exists_of_append_eq_append ['-'] (hmem (by decide)) heq
      rcases List.append_eq_append_iff.1 htail with ⟨a, rfl, ha⟩ | ⟨a, ha, -⟩
      · cases a with
        | nil =>
            rw [List.append_nil]
            exact skipLeading_open_line hbody
        | cons d a =>
            obtain ⟨rfl, rfl⟩ := List.cons.inj ha
            exact (skipLeading_line hbody a).trans (ih rfl)
      · refine skipLeading_open_line fun hnewline => hbody ?_
        rw [ha]
        exact List.mem_append_left a hnewline
  | block body hbody hslash _ ih =>
      obtain ⟨tail, rfl, rfl⟩ :=
        exists_of_append_eq_append (c := '/') ('/' :: '*' :: (body ++ ['*']))
          (hmem (by decide)) (by simpa using heq)
      have hclose : '/' :: '*' :: (body ++ ['*']) ++ '/' :: tail =
          '/' :: '*' :: (body ++ '*' :: '/' :: tail) := by simp
      rw [hclose, skipLeading_unslashed hbody hslash, ih rfl]

/-! ### Statements -/

theorem toList_append_ofList (lead : List Char) (sql : String) :
    (String.ofList lead ++ sql).toList = lead ++ sql.toList := by
  rw [String.toList_append, String.toList_ofList]

/-- A count looks for its first word where it would without what stands before. -/
theorem bodyOf_append (h : Leading Unslashed lead) (sql : String) :
    bodyOf (String.ofList lead ++ sql) = bodyOf sql := by
  rw [bodyOf, bodyOf, toList_append_ofList]
  rcases withoutEnd_append_cases lead sql.toList with heq | ⟨hnil, ending, hending, hlead⟩
  · rw [heq, skipLeading_append h]
  · rw [skipLeading_eq_nil h hending hlead, hnil]
    exact skipLeading_nil.symm

theorem countStatement_append_ok (h : Leading Unslashed lead) {sql : String} {args : List Value}
    {counted : BoundSql} (hcount : countStatement sql args = .ok counted) :
    countStatement (String.ofList lead ++ sql) args =
      .ok ⟨String.ofList lead ++ counted.sql, counted.args⟩ := by
  have hbody := bodyOf_append h sql
  obtain ⟨leading, hleading⟩ : ∃ leading, withoutEnd sql.toList = leading ++ bodyOf sql :=
    exists_leading _
  cases hfind : findKeyword? ["FROM".toList] (bodyOf sql) with
  | none =>
      obtain ⟨fault, hfault⟩ := countStatement_of_none hfind args
      exact nomatch hfault.symm.trans hcount
  | some cut =>
      obtain rfl := Except.ok.inj ((countStatement_of_some hleading hfind args).symm.trans hcount)
      have hwhole : withoutEnd (String.ofList lead ++ sql).toList =
          (lead ++ leading) ++ bodyOf (String.ofList lead ++ sql) := by
        rcases withoutEnd_append_cases lead sql.toList with heq | ⟨hnil, -⟩
        · rw [toList_append_ofList, heq, hbody, List.append_assoc, ← hleading]
        · -- nothing is found in a statement that is cut off altogether
          rw [bodyOf, hnil, skipLeading_nil, findKeyword?, spots, spotsFrom] at hfind
          cases hfind
      have hbehind :
          findKeyword? ["FROM".toList] (bodyOf (String.ofList lead ++ sql)) = some cut := by
        rw [hbody, hfind]
      rw [countStatement_of_some hwhole hbehind args]
      simp [String.append_assoc]

theorem countStatement_append_error (h : Leading Unslashed lead) {sql : String} {args : List Value}
    {fault : Error} (hcount : countStatement sql args = .error fault) :
    ∃ fault', countStatement (String.ofList lead ++ sql) args = .error fault' := by
  cases hfind : findKeyword? ["FROM".toList] (bodyOf sql) with
  | none => exact countStatement_of_none (by rw [bodyOf_append h, hfind]) args
  | some cut =>
      obtain ⟨leading, hleading⟩ : ∃ leading, withoutEnd sql.toList = leading ++ bodyOf sql :=
        exists_leading _
      exact nomatch (countStatement_of_some hleading hfind args).symm.trans hcount

/-- **What stands before the first word makes no difference** to the first word that is looked at,
to the kind of the statement, to whether it is paged and to how it is counted.  That word is where
code begins that is not blank.  A block comment with a slash for the first character of its body is
left just behind this slash. -/
theorem leading_transparent {lead : List Char} (h : Leading Unslashed lead) (sql : String) :
    skipLeading (String.ofList lead ++ sql).toList = skipLeading sql.toList ∧
    StatementKind.ofSql (String.ofList lead ++ sql) = StatementKind.ofSql sql ∧
    Paginator.isPageable (String.ofList lead ++ sql) = Paginator.isPageable sql ∧
    (∀ args counted, countStatement sql args = .ok counted →
      countStatement (String.ofList lead ++ sql) args =
        .ok ⟨String.ofList lead ++ counted.sql, counted.args⟩) ∧
    (∀ args fault, countStatement sql args = .error fault →
      ∃ fault', countStatement (String.ofList lead ++ sql) args = .error fault') ∧
    (∀ c cs, sql.toList = c :: cs → c.isAlpha = true →
      skipLeading (String.ofList lead ++ sql).toList = c :: cs ∧
      ((spots (String.ofList lead ++ sql).toList).find?
        fun s => !Text.isBlank s.char).map Spot.text = some (c :: cs)) ∧
    ∀ rest, skipLeading (lead ++ '/' :: '*' :: '/' :: rest) = skipLeading rest := by
  have hskip : skipLeading (String.ofList lead ++ sql).toList = skipLeading sql.toList := by
    rw [toList_append_ofList, skipLeading_append h]
  refine ⟨hskip, ?_, ?_, fun args counted => countStatement_append_ok h,
    fun args fault => countStatement_append_error h, fun c cs hsql hc => ⟨?_, ?_⟩, fun rest => ?_⟩
  · rw [StatementKind.ofSql, StatementKind.ofSql, hskip]
  · rw [Paginator.isPageable, Paginator.isPageable, hskip]
  · rw [hskip, hsql, skipLeading_of_alpha hc]
  · rw [toList_append_ofList, hsql, find?_spots_append h hc]
  · rw [skipLeading_append h, skipLeading_slashed]

theorem leading_transparent_of_comments :
    Leading Unslashed "(-- all (\n/* by ** 'name */ ".toList ∧
      StatementKind.ofSql
        (String.ofList "(-- all (\n/* by ** 'name */ ".toList ++ "SELECT a FROM t;") = .select := by
  have hlead : Leading Unslashed "(-- all (\n/* by ** 'name */ ".toList :=
    .paren (.line " all (".toList (by decide)
      (.block " by ** 'name ".toList (by decide) (by decide) (.blank rfl .nil)))
  refine ⟨hlead, (leading_transparent hlead "SELECT a FROM t;").2.1.trans ?_⟩
  decide +kernel

/-- **A word in a comment is taken for the first**: the comment ends where it says that it does, but
the statement is not seen to be a `SELECT`. -/
theorem classified_inside_comment :
    Leading (fun _ => True) "/*/ list */".toList ∧
      StatementKind.ofSql "SELECT 1" = .select ∧
      StatementKind.ofSql ("/*/ list */" ++ "SELECT 1") = .other ∧
      skipLeading ("/*/ list */" ++ "SELECT 1").toList ≠ skipLeading "SELECT 1".toList := by
  refine ⟨.block "/ list ".toList (by decide) trivial .nil, ?_, ?_, ?_⟩ <;> decide +kernel

end SqlAccess.Sql
