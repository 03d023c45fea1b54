/-
**The end of a statement for a page.**

What a page adds to a statement is code outside all parentheses if it is read by itself, the columns
excepted that stand between double quotes.  It is appended to the statement without the blanks and
semicolons at its end, and the end of a line is a blank: a statement that ends with a line comment
loses what ends the comment, and what is appended becomes a part of the comment.  Nothing else can
go wrong: the blanks and semicolons do not end quotes or block comments.

Main definitions:

* `SqlAccess.Sql.pageTail` — what a page adds;
* `SqlAccess.Sql.tailPlaces` — its characters and the places where they belong.

Main results:

* `SqlAccess.Sql.withoutEnd_append` — what is cut off at the end of a statement;
* `SqlAccess.Sql.spells_pageTail` — the places of the addition, read by itself;
* `SqlAccess.Sql.start_or_line_of_past` — what a clean statement ends with;
* `SqlAccess.Sql.pageStatement_effective_iff` — **the addition takes effect unless the statement
  ends with a line comment**;
* `SqlAccess.Sql.page_in_comment` — a page lost in a comment.
-/

import Mathlib.Data.List.DropRight
import SqlAccess.Proofs.Sql.Identifier
import SqlAccess.Proofs.Text.Word
import SqlAccess.Sql.Paging

set_option autoImplicit false

namespace SqlAccess.Sql

variable {cs : List Char} {ahead : Option Char}

/-! ### What is cut off -/

/-- What stands at the end of a statement: blanks and semicolons. -/
def IsEnding (cs : List Char) : Prop := ∀ c ∈ cs, Text.isBlank c = true ∨ c = ';'

namespace IsEnding

theorem calm (h : IsEnding cs) : Calm cs := by
  intro c hc hstir
  rcases h c hc with hblank | rfl
  · exact not_mem_stirring (f := Text.isBlank) rfl hblank hstir
  · exact absurd hstir (by decide)

theorem not_mem_star (h : IsEnding cs) : '*' ∉ cs := by
  intro hstar
  exact absurd (h '*' hstar) (by decide)

theorem settles (h : IsEnding cs) : Place.Settles cs.head? := by
  cases cs with
  | nil => decide
  | cons c cs =>
      have hc := h c List.mem_cons_self
      refine ⟨?_, ?_, ?_⟩ <;> rintro ⟨⟩ <;> exact absurd hc (by decide)

end IsEnding

/-- **What is cut off** at the end of a statement are blanks and semicolons. -/
theorem withoutEnd_append (cs : List Char) :
    ∃ ending, IsEnding ending ∧ cs = withoutEnd cs ++ ending := by
  have hcut (p : Char → Bool) (ds : List Char) :
      ds = Text.dropTrailing p ds ++ ds.rtakeWhile p :=
    List.rdropWhile_append_rtakeWhile.symm
  let first := Text.trimEnd cs
  let second := Text.dropTrailing (· == ';') first
  refine ⟨second.rtakeWhile Text.isBlank ++ (first.rtakeWhile (· == ';') ++
    cs.rtakeWhile Text.isBlank), ?_, ?_⟩
  · intro c hc
    simp only [List.mem_append] at hc
    rcases hc with hc | hc | hc
    · exact .inl (List.mem_rtakeWhile_imp hc)
    · exact .inr (by simpa using List.mem_rtakeWhile_imp hc)
    · exact .inl (List.mem_rtakeWhile_imp hc)
  · calc cs = first ++ cs.rtakeWhile Text.isBlank := hcut _ cs
      _ = second ++ first.rtakeWhile (· == ';') ++ cs.rtakeWhile Text.isBlank := by
        rw [← hcut (· == ';') first]
      _ = withoutEnd cs ++ second.rtakeWhile Text.isBlank ++ first.rtakeWhile (· == ';') ++
          cs.rtakeWhile Text.isBlank := by
        rw [withoutEnd, Text.trimEnd, ← hcut Text.isBlank second]
      _ = _ := by rw [List.append_assoc, List.append_assoc]

/-- A statement without its end leads to the same code, or into a line comment. -/
theorem start_or_line_of_past (hclean : Place.start.past none cs = .start)
    (hahead : Place.Settles ahead) :
    Place.start.past ahead (withoutEnd cs) = .start ∨
      (Place.start.past ahead (withoutEnd cs)).mode = .line := by
  obtain ⟨ending, hending, heq⟩ := withoutEnd_append cs
  have hsame := Place.past_congr hending.settles hahead .start (withoutEnd cs)
  rw [heq, Place.past_append, Option.or_none] at hclean
  rw [← hsame]
  exact Place.eq_or_line_of_past_calm hending.calm hending.not_mem_star
    (Place.Fits.past (Place.fits_start _)) hending.settles hclean

/-! ### What a page adds -/

/-- What a page adds at the end of a statement. -/
def pageTail (page : Page) : String := orderText page.orders ++ limitText page

/-- The characters of a text, in code and outside parentheses. -/
def inCode (text : String) : List (Place × Char) := text.toList.map (Place.start, ·)

/-- The characters of a term with the places where they belong: all in code, except for what the
column has between double quotes. -/
def termPlaces (item : SortTerm) : List (Place × Char) :=
  Place.start.placed item.column.toList ++ inCode (" " ++ item.direction)

/-- The characters of an `ORDER BY` with the places where they belong. -/
def orderPlaces : List SortTerm → List (Place × Char)
  | [] => []
  | items => inCode " ORDER BY " ++ (inCode ", ").intercalate (items.map termPlaces)

/-- **The characters of the addition with the places where they belong.** -/
def tailPlaces (page : Page) : List (Place × Char) :=
  orderPlaces page.orders ++ inCode (limitText page)

/-! ### The addition read by itself -/

/-- Read from code outside parentheses, the text leads back there, and its characters have these
places, all of them in code or between double quotes. -/
structure Spells (cs : List Char) (places : List (Place × Char)) : Prop where
  leads : Place.start.Leads cs .start
  placed : Place.start.placed cs = places
  bare : ∀ x ∈ places, x.1 = .start ∨ x.1 = ⟨.quoted '"', 0⟩

namespace Spells

variable {ds : List Char} {places places' : List (Place × Char)}

theorem nil : Spells [] [] where
  leads := .nil _
  placed := rfl
  bare := nofun

theorem append (h : Spells cs places) (h' : Spells ds places') :
    Spells (cs ++ ds) (places ++ places') where
  leads := h.leads.append h'.leads
  placed := by rw [h.leads.placed_append, h.placed, h'.placed]
  bare x hx := (List.mem_append.1 hx).elim (h.bare x) (h'.bare x)

theorem of_calm {text : String} (h : Calm text.toList) : Spells text.toList (inCode text) where
  leads := h.leads 0
  placed := h.placed 0
  bare x hx := by
    obtain ⟨c, -, rfl⟩ := List.mem_map.1 hx
    exact .inl rfl

theorem intercalate {α : Type} {f : α → List Char} {g : α → List (Place × Char)} {items : List α}
    (hsep : Spells cs places) (h : ∀ item ∈ items, Spells (f item) (g item)) :
    Spells (cs.intercalate (items.map f)) (places.intercalate (items.map g)) := by
  induction items with
  | nil => exact .nil
  | cons item items ih =>
      rw [List.forall_mem_cons] at h
      cases items with
      | nil => simpa using h.1
      | cons next items =>
          rw [List.map_cons, List.map_cons, List.map_cons, List.map_cons,
            List.intercalate_cons_cons, List.intercalate_cons_cons]
          exact (h.1.append hsep).append (ih h.2)

end Spells

theorem calm_digits (n : Nat) : Calm (Text.digits n) :=
  .of_forall (f := Char.isDigit) rfl fun _ hc => Text.isDigit_of_mem_digits hc

theorem spells_limitText (page : Page) :
    Spells (limitText page).toList (inCode (limitText page)) := by
  have hname : Calm " LIMIT ".toList := by decide
  have hcomma : Calm ", ".toList := by decide
  refine .of_calm ?_
  simp only [limitText, String.toList_append, String.toList_ofList]
  exact ((hname.append (calm_digits _)).append hcomma).append (calm_digits _)

/-- A term whose column is accepted. -/
theorem spells_term {item : SortTerm} (h : testIdentifier item.column = .ok ()) :
    Spells (item.column ++ " " ++ item.direction).toList (termPlaces item) := by
  have hnames := (isIdentifier_of_test h).names 0
  have hcolumn : Spells item.column.toList (Place.start.placed item.column.toList) :=
    ⟨hnames.leads, rfl, fun x hx => (hnames.inName x hx).symm.imp_left And.left⟩
  have hcalm : Calm (" " ++ item.direction).toList := by
    rw [SortTerm.direction]
    split <;> decide
  rw [String.append_assoc, String.toList_append]
  exact hcolumn.append (.of_calm hcalm)

theorem spells_orderText {items : List SortTerm}
    (h : ∀ item ∈ items, testIdentifier item.column = .ok ()) :
    Spells (orderText items).toList (orderPlaces items) := by
  cases items with
  | nil => exact .nil
  | cons item items =>
      rw [orderText, orderPlaces, String.toList_append, String.toList_intercalate, List.map_map]
      · refine .append (.of_calm (by decide)) (.intercalate (.of_calm (by decide)) ?_)
        intro item hitem
        exact spells_term (h item hitem)
      · exact List.cons_ne_nil _ _
      · exact List.cons_ne_nil _ _

/-- **The addition, read by itself, has the places where its characters belong.** -/
theorem spells_pageTail {page : Page}
    (h : ∀ item ∈ page.orders, testIdentifier item.column = .ok ()) :
    Spells (pageTail page).toList (tailPlaces page) := by
  rw [pageTail, String.toList_append]
  exact (spells_orderText h).append (spells_limitText page)

/-- It begins with a blank. -/
theorem head?_pageTail (page : Page) : (pageTail page).toList.head? = some ' ' := by
  cases horders : page.orders <;> simp [pageTail, horders, orderText, limitText]

/-! ### Whether it takes effect -/

theorem checkOrders_eq_ok {items : List SortTerm}
    (h : ∀ item ∈ items, testIdentifier item.column = .ok ()) : checkOrders items = .ok () := by
  induction items with
  | nil => rfl
  | cons item items ih =>
      rw [List.forall_mem_cons] at h
      rw [checkOrders, h.1]
      exact ih h.2

theorem accepted_of_checkOrders {items : List SortTerm} (h : checkOrders items = .ok ()) :
    ∀ item ∈ items, testIdentifier item.column = .ok () := by
  induction items with
  | nil => exact List.forall_mem_nil _
  | cons item items ih =>
      rw [checkOrders] at h
      split at h
      · cases h
      · rename_i htest
        exact List.forall_mem_cons.2 ⟨htest, ih h⟩

/-- **The addition takes effect unless the statement ends with a line comment**: appended to a
statement that leads back to code outside parentheses, its characters stand where they belong
exactly if the statement without its end does not stop in a line comment. -/
theorem pageStatement_effective_iff (sql : String) (page : Page)
    (hclean : Place.start.past none sql.toList = .start)
    (horders : ∀ item ∈ page.orders, testIdentifier item.column = .ok ()) :
    ∃ out, pageStatement sql page = .ok out ∧
      out.toList = withoutEnd sql.toList ++ (pageTail page).toList ∧
      (∀ x ∈ tailPlaces page, x.1 = .start ∨ x.1 = ⟨.quoted '"', 0⟩) ∧
      (Place.start.placed out.toList =
          Place.start.placed (withoutEnd sql.toList) ++ tailPlaces page ↔
        (Place.start.past none (withoutEnd sql.toList)).mode ≠ .line) := by
  have htail := spells_pageTail horders
  refine ⟨String.ofList (withoutEnd sql.toList) ++ orderText page.orders ++ limitText page,
    by rw [pageStatement, checkOrders_eq_ok horders]; rfl, ?_, htail.bare, ?_⟩
  · rw [String.append_assoc, String.toList_append, String.toList_ofList, pageTail]
  · -- the blank at the front begins and ends no comment, so the statement is read as if by itself
    have hpast : Place.start.past (some ' ') (withoutEnd sql.toList) =
        Place.start.past none (withoutEnd sql.toList) :=
      Place.past_congr (by decide) (by decide) .start _
    rw [String.append_assoc, String.toList_append, String.toList_ofList, ← pageTail,
      Place.placed_append, head?_pageTail, hpast, List.append_cancel_left_eq, ← htail.placed]
    have hsettles : Place.Settles none := by decide
    rcases start_or_line_of_past hclean hsettles with hstart | hline
    · rw [hstart]
      exact iff_of_true rfl nofun
    · -- in the comment, that blank is already out of place
      refine iff_of_false (fun hsame => ?_) (fun hne => hne hline)
      obtain ⟨rest, hrest⟩ := List.head?_eq_some_iff.1 (head?_pageTail page)
      rw [hrest, Place.placed, Place.placed] at hsame
      have hplace := (Prod.mk.inj (List.cons.inj hsame).1).1
      rw [hplace] at hline
      cases hline

/-- A comment whose line ends before the end of the statement is no obstacle. -/
theorem page_past_comment :
    ∃ out, pageStatement "SELECT a FROM t -- all\nWHERE b = '--' ;; \n"
        ⟨3, 10, [⟨"t.\"x\"\"y\"", true⟩], false⟩ = .ok out ∧
      out = "SELECT a FROM t -- all\nWHERE b = '--' ORDER BY t.\"x\"\"y\" DESC LIMIT 10, 20" ∧
      Place.start.placed out.toList =
        Place.start.placed "SELECT a FROM t -- all\nWHERE b = '--'".toList ++
          tailPlaces ⟨3, 10, [⟨"t.\"x\"\"y\"", true⟩], false⟩ := by
  have hcolumn : testIdentifier "t.\"x\"\"y\"" = .ok () := by decide +kernel
  obtain ⟨out, hout, htext, -, heffective⟩ := pageStatement_effective_iff
    "SELECT a FROM t -- all\nWHERE b = '--' ;; \n" ⟨3, 10, [⟨"t.\"x\"\"y\"", true⟩], false⟩
    (by decide) (by simpa using hcolumn)
  have hkept : withoutEnd "SELECT a FROM t -- all\nWHERE b = '--' ;; \n".toList =
      "SELECT a FROM t -- all\nWHERE b = '--'".toList := by decide
  rw [hkept] at htext heffective
  exact ⟨out, hout, String.toList_inj.1 (htext.trans (by decide)), heffective.2 (by decide)⟩

/-- **A page lost in a comment**: the statement ends with a line comment and the end of its line,
which is cut off, and all that is added stands in the comment. -/
theorem page_in_comment :
    StatementKind.ofSql "SELECT a FROM t -- all\n" = .select ∧
      Place.start.past none "SELECT a FROM t -- all\n".toList = .start ∧
      pageStatement "SELECT a FROM t -- all\n" ⟨1, 10, [], false⟩ =
        .ok "SELECT a FROM t -- all LIMIT 10, 0" ∧
      ∀ x ∈ (Place.start.placed "SELECT a FROM t -- all LIMIT 10, 0".toList).drop
          "SELECT a FROM t -- all".length, x.1.mode = .line := by
  refine ⟨by decide +kernel, by decide, ?_, by decide⟩
  rw [pageStatement, checkOrders_eq_ok (List.forall_mem_nil _)]
  exact congrArg Except.ok (by decide)

end SqlAccess.Sql
