/-
**Statements behind a list of table expressions.**

A statement may begin with a list of common table expressions, which hold statements of their own
between parentheses.  The search for the statement behind the list passes over whatever these hold,
and over what quotes and comments hold, so that the list makes no difference to the kind of the
statement.  The seam is where a word could be torn: the list ends with a character of no word.

Main definitions:

* `SqlAccess.Sql.TableList` — a list of table expressions, as far as the search looks at it.

Main results:

* `SqlAccess.Sql.findKeyword?_append` — the search passes over a text without keywords;
* `SqlAccess.Sql.ofSql_append_of_tables` — **a list of table expressions makes no difference**.
-/

import SqlAccess.Proofs.Sql.Bytes
import SqlAccess.Proofs.Sql.Leading

set_option autoImplicit false

namespace SqlAccess.Sql

variable {keywords : List (List Char)} {keyword before after cs ds : List Char}

/-! ### The search -/

/-- Before the end of a text a keyword stands also if the text goes on. -/
theorem keywordAt_append (hkeywords : Worded keywords)
    (hlast : ∃ c ∈ after.getLast?, Text.isWordChar c = false) (ds : List Char) :
    KeywordAt keywords before (after ++ ds) ↔ KeywordAt keywords before after := by
  have hne : after ≠ [] := by
    obtain ⟨c, hc, -⟩ := hlast
    exact List.ne_nil_of_mem (List.mem_of_getLast? hc)
  refine keywordAt_congr (by rw [List.head?_append_of_ne_nil after hne]) rfl ?_
  exact fun keyword hkeyword =>
    Text.beginsWithKeyword_append (hkeywords keyword hkeyword).chars hlast ds

/-- **The search passes over a text without keywords** that leads to code and ends with a character
of no word. -/
theorem findKeyword?_append (hkeywords : Worded keywords)
    (hcode : Place.start.past none cs = .start)
    (hnone : ∀ before after, cs = before ++ after → ¬ KeywordAt keywords before after)
    (hlast : ∃ c ∈ cs.getLast?, Text.isWordChar c = false)
    (hbegins : keywords.any (fun keyword => Text.beginsWithKeyword keyword ds) = true) :
    findKeyword? keywords (cs ++ ds) = some (cs, ds) := by
  obtain ⟨c, rest, rfl, halpha⟩ := exists_alpha_of_beginsWithKeyword hkeywords.lettered hbegins
  have hsettles : Place.Settles (some c) := by
    refine ⟨?_, ?_, ?_⟩ <;> rintro ⟨⟩ <;> cases halpha
  refine (findKeyword?_eq_some_iff hkeywords.lettered).2 ⟨rfl, ⟨?_, ?_, hbegins⟩, ?_⟩
  · exact (Place.past_congr hsettles (by decide) .start cs).trans hcode
  · obtain ⟨d, hd, hword⟩ := hlast
    rw [Option.mem_def.1 hd]
    exact hword
  · intro b a heq hkeyword
    -- a keyword that begins before the end of the first text is one of that text
    by_contra hlt
    rcases List.append_eq_append_iff.1 heq with ⟨more, rfl, -⟩ | ⟨torn, rfl, rfl⟩
    · simp at hlt
    · have hne : torn ≠ [] := by
        rintro rfl
        simp at hlt
      have hend : ∃ d ∈ torn.getLast?, Text.isWordChar d = false := by
        rwa [List.getLast?_append_of_ne_nil b hne] at hlast
      exact hnone b torn rfl ((keywordAt_append hkeywords hend _).1 hkeyword)

/-! ### Kinds -/

/-- The words that tell the kind of a statement. -/
def kindWords : List (List Char) := StatementKind.keywords.map Prod.fst

theorem worded_kindWords : Worded kindWords := by decide

variable {kind : StatementKind}

/-- A text that begins with one of the words does not begin with `WITH`. -/
theorem not_with_of_beginsWithKeyword (hkind : (keyword, kind) ∈ StatementKind.keywords)
    (h : Text.beginsWithKeyword keyword cs = true) :
    Text.beginsWithKeyword "WITH".toList cs = false := by
  have hletters : ∀ k ∈ StatementKind.keywords, k.1 ≠ [] ∧
      k.1.head?.map Char.toLower ≠ "WITH".toList.head?.map Char.toLower := by decide
  obtain ⟨hne, hdiffers⟩ := hletters _ hkind
  refine Bool.eq_false_iff.2 fun hwith => hdiffers ?_
  rw [Text.head?_toLower_of_beginsWithKeyword hne h,
    Text.head?_toLower_of_beginsWithKeyword (by decide) hwith]

/-- The kind of a statement is that of the word it begins with. -/
theorem ofLeading_of_beginsWithKeyword (hkind : (keyword, kind) ∈ StatementKind.keywords)
    (h : Text.beginsWithKeyword keyword cs = true) : StatementKind.ofLeading cs = kind := by
  -- the words begin with different letters
  have hletters : ∀ k ∈ StatementKind.keywords, k.1 ≠ [] ∧ ∀ l ∈ StatementKind.keywords,
      k.1.head?.map Char.toLower = l.1.head?.map Char.toLower → k = l := by decide
  cases hfind : StatementKind.keywords.find? fun k => Text.beginsWithKeyword k.1 cs with
  | none => exact absurd h (List.find?_eq_none.1 hfind _ hkind)
  | some other =>
      obtain ⟨hne, hunique⟩ := hletters _ hkind
      have hmem := List.mem_of_find?_eq_some hfind
      have hother : Text.beginsWithKeyword other.1 cs = true :=
        List.find?_some (p := fun k => Text.beginsWithKeyword (Prod.fst k) cs) hfind
      have hsame := (Text.head?_toLower_of_beginsWithKeyword hne h).trans
        (Text.head?_toLower_of_beginsWithKeyword (hletters _ hmem).1 hother).symm
      rw [StatementKind.ofLeading, hfind, ← hunique _ hmem hsame]

theorem ofBody_of_beginsWithKeyword (hkind : (keyword, kind) ∈ StatementKind.keywords)
    (h : Text.beginsWithKeyword keyword cs = true) : StatementKind.ofBody cs = kind := by
  rw [StatementKind.ofBody, not_with_of_beginsWithKeyword hkind h,
    ofLeading_of_beginsWithKeyword hkind h]
  rfl

/-- The kind of a statement behind `WITH` is that of the first of the words in it. -/
theorem ofBody_of_with (hwith : Text.beginsWithKeyword "WITH".toList cs = true)
    (hfind : findKeyword? kindWords cs = some (before, after)) :
    StatementKind.ofBody cs = StatementKind.ofLeading after := by
  rw [StatementKind.ofBody, if_pos hwith, ← kindWords, hfind]

theorem skipLeading_of_beginsWithKeyword (hkeyword : Text.IsWord keyword)
    (h : Text.beginsWithKeyword keyword cs = true) : skipLeading cs = cs := by
  have hany : [keyword].any (fun k => Text.beginsWithKeyword k cs) = true := by simpa using h
  obtain ⟨c, rest, rfl, halpha⟩ :=
    exists_alpha_of_beginsWithKeyword (worded_singleton hkeyword).lettered hany
  exact skipLeading_of_alpha halpha rest

/-! ### Lists of table expressions -/

/-- **A list of table expressions**, as far as the search looks at it: it begins with `WITH`, leads
to code outside parentheses, holds none of the words that tell the kind there, and ends with a blank
or a parenthesis. -/
structure TableList (cs : List Char) : Prop where
  begins : Text.beginsWithKeyword "WITH".toList cs = true
  code : Place.start.past none cs = .start
  wordless : ∀ before after, cs = before ++ after → ¬ KeywordAt kindWords before after
  ends : ∃ c ∈ cs.getLast?, Text.isBlank c = true ∨ c = ')'

theorem TableList.wordEnds (h : TableList cs) :
    ∃ c ∈ cs.getLast?, Text.isWordChar c = false := by
  obtain ⟨c, hc, hkind⟩ := h.ends
  refine ⟨c, hc, Bool.eq_false_iff.2 fun hword => ?_⟩
  rcases hkind with hblank | rfl
  · rw [Text.isBlank_of_isWordChar hword] at hblank
    cases hblank
  · cases hword

/-- **A list of table expressions makes no difference** to the kind of the statement behind it. -/
theorem ofSql_append_of_tables {tables statement : String} (htables : TableList tables.toList)
    {keyword : List Char} {kind : StatementKind} (hkind : (keyword, kind) ∈ StatementKind.keywords)
    (hstatement : Text.beginsWithKeyword keyword statement.toList = true) :
    StatementKind.ofSql (tables ++ statement) = StatementKind.ofSql statement ∧
      StatementKind.ofSql statement = kind := by
  have hmem : keyword ∈ kindWords := List.mem_map_of_mem hkind
  have hword := worded_kindWords keyword hmem
  have halone : StatementKind.ofSql statement = kind := by
    rw [StatementKind.ofSql, skipLeading_of_beginsWithKeyword hword hstatement,
      ofBody_of_beginsWithKeyword hkind hstatement]
  have hword' : Text.IsWord "WITH".toList := by decide
  have hwith : Text.beginsWithKeyword "WITH".toList (tables.toList ++ statement.toList) = true := by
    rw [Text.beginsWithKeyword_append hword'.chars htables.wordEnds, htables.begins]
  have hfind : findKeyword? kindWords (tables.toList ++ statement.toList) =
      some (tables.toList, statement.toList) :=
    findKeyword?_append worded_kindWords htables.code htables.wordless htables.wordEnds
      (List.any_eq_true.2 ⟨keyword, hmem, hstatement⟩)
  refine ⟨?_, halone⟩
  rw [halone, StatementKind.ofSql, String.toList_append,
    skipLeading_of_beginsWithKeyword hword' hwith, ofBody_of_with hwith hfind,
    ofLeading_of_beginsWithKeyword hkind hstatement]

/-- Two tables, the first of which holds a quoted parenthesis, one in a comment, and statements, and
the second of which has a name that begins with `SELECT`. -/
def tablesSql : String :=
  "WITH stale(id) AS (SELECT id, ')' -- )\n FROM (DELETE FROM s) x), " ++
    "selected AS (SELECT 1) /* UPDATE */ "

/-- A statement behind them. -/
def staleSql : String := "delete FROM t WHERE id IN (SELECT id FROM stale)"

theorem ofSql_append_of_tables_of_stale :
    TableList tablesSql.toList ∧
      Text.beginsWithKeyword "DELETE".toList staleSql.toList = true ∧
      StatementKind.ofSql (tablesSql ++ staleSql) = .delete := by
  have htables : TableList tablesSql.toList := by
    refine ⟨by decide, by decide +kernel, ?_, ⟨' ', by decide, .inl rfl⟩⟩
    exact (findKeyword?_eq_none_iff worded_kindWords.lettered).1 (by decide +kernel)
  have hkind : ("DELETE".toList, StatementKind.delete) ∈ StatementKind.keywords := by decide
  have hbegins : Text.beginsWithKeyword "DELETE".toList staleSql.toList = true := by decide
  have hsame := ofSql_append_of_tables htables hkind hbegins
  exact ⟨htables, hbegins, hsame.1.trans hsame.2⟩

end SqlAccess.Sql
