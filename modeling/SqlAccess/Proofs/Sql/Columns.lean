/-
**Columns to order by.**

The columns of an `ORDER BY` are put into a statement as they are.  Read from code, an accepted
column leads back to code with as many parentheses open, and what it has in code are characters of
names: a marker, a parenthesis or the mark of a comment can only stand between double quotes, and
these are closed.  The rest of what a page adds is as harmless, so that the statement keeps its
markers and its places, whatever is open at its end.

Main definitions:

* `SqlAccess.Sql.IsNameChar` — the characters of names;
* `SqlAccess.Sql.Place.deeper` — a place with more parentheses open.

Main results:

* `SqlAccess.Sql.Place.placed_deeper`, `SqlAccess.Sql.Place.past_deeper` — a text that closes no
  parenthesis is read alike at every depth;
* `SqlAccess.Sql.markerCount_eq_zero_iff` — which texts have no markers;
* `SqlAccess.Sql.markerCount_withoutEnd` — what is cut off at the end of a statement has none;
* `SqlAccess.Sql.inTail_of_mem_tailPlaces` — what a page has in code;
* `SqlAccess.Sql.columns_inert` — **accepted columns offer characters of names only, and a page
  leaves the markers of its statement as they are**.
-/

import Mathlib.Data.Bool.AllAny
import SqlAccess.Proofs.Sql.Bytes
import SqlAccess.Proofs.Sql.Counting
import SqlAccess.Proofs.Sql.Paging

set_option autoImplicit false

namespace SqlAccess.Sql

open Text (bytesOf)

variable {p : Place} {c : Char} {cs ds : List Char} {ahead before : Option Char} {depth : Nat}

/-! ### Places deeper in parentheses -/

namespace Place

/-- The same place with more parentheses open. -/
def deeper (k : Nat) (p : Place) : Place := ⟨p.mode, p.depth + k⟩

theorem next_deeper (h : p.mode = .code → c ≠ ')') (k : Nat) (ahead : Option Char) :
    (p.deeper k).next c ahead = (p.next c ahead).deeper k := by
  by_cases hopen : p.mode = .code ∧ c = '('
  · simp [next, deeper, hopen, Nat.add_right_comm]
  · have hclose : ¬ (p.mode = .code ∧ c = ')') := fun hc => h hc.1 hc.2
    simp [next, deeper, hopen, hclose]

/-- A text that closes no parenthesis has its places deeper by as many as are open. -/
theorem placed_deeper (h : ∀ x ∈ p.placed cs, x.1.mode = .code → x.2 ≠ ')') (k : Nat) :
    (p.deeper k).placed cs = (p.placed cs).map (Prod.map (deeper k) id) := by
  induction cs generalizing p with
  | nil => rfl
  | cons c cs ih =>
      rw [placed, List.forall_mem_cons] at h
      rw [placed, placed, List.map_cons, next_deeper h.1, ih h.2]
      rfl

/-- And it leads to a place deeper by as many. -/
theorem past_deeper (h : ∀ x ∈ p.placed cs, x.1.mode = .code → x.2 ≠ ')') (k : Nat)
    (ahead : Option Char) : (p.deeper k).past ahead cs = (p.past ahead cs).deeper k := by
  induction cs generalizing p with
  | nil => rfl
  | cons c cs ih =>
      rw [placed, List.forall_mem_cons] at h
      rw [past, past, next_deeper h.1]
      cases cs with
      | nil => rfl
      | cons d cs => exact ih h.2

end Place

/-! ### Markers -/

theorem marksFrom_eq_nil_iff (p : Place) (place : Nat) (cs : List Char) :
    marksFrom Mode.next .code p.mode place cs = [] ↔
      ∀ x ∈ p.placed cs, ¬ (x.1.mode = .code ∧ x.2 = '?') := by
  induction cs generalizing p place with
  | nil => exact iff_of_true rfl nofun
  | cons c cs ih =>
      rw [marksFrom, Place.placed, List.forall_mem_cons]
      split
      · rename_i hmark
        exact iff_of_false (List.cons_ne_nil _ _) fun h => h.1 hmark
      · rename_i hmark
        exact (ih (p.next c cs.head?) _).trans (iff_and_self.2 fun _ => hmark)

/-- A text has no markers if no `?` stands in code. -/
theorem markerCount_eq_zero_iff :
    markerCount cs = 0 ↔ ∀ x ∈ Place.start.placed cs, ¬ (x.1.mode = .code ∧ x.2 = '?') := by
  rw [← length_markerPlaces, List.length_eq_zero_iff, markerPlaces_eq_marksFrom]
  exact marksFrom_eq_nil_iff .start 0 cs

/-- **What is cut off at the end of a statement** has no markers, if the rest leads to code. -/
theorem markerCount_withoutEnd (h : (Place.start.past none (withoutEnd cs)).mode = .code) :
    markerCount (withoutEnd cs) = markerCount cs := by
  obtain ⟨ending, hending, heq⟩ := withoutEnd_append cs
  have hcode : (Place.start.past ending.head? (withoutEnd cs)).mode = .code := by
    rw [Place.past_congr hending.settles (by decide : Place.Settles none), h]
  have hnone : markerCount ending = 0 := by
    rw [markerCount_eq_zero_iff]
    intro x hx
    rw [Place.start, hending.calm.placed, List.mem_map] at hx
    obtain ⟨c, hc, rfl⟩ := hx
    rintro ⟨-, rfl⟩
    exact absurd (hending '?' hc) (by decide)
  conv_rhs => rw [heq, markerCount_append_of_code hcode, hnone, Nat.add_zero]

/-! ### What a column offers -/

/-- The characters of names: letters, digits, underscores, dollar signs and the dots between. -/
def IsNameChar (c : Char) : Prop := c.isAlphanum = true ∨ c ∈ ['_', '$', '.']

instance (c : Char) : Decidable (IsNameChar c) := inferInstanceAs (Decidable (_ ∨ _))

theorem isNameChar_of_inName {x : Place × Char} (h : InName depth x) :
    x.1 = ⟨.quoted '"', depth⟩ ∨ x.1 = ⟨.code, depth⟩ ∧ (IsNameChar x.2 ∨ x.2 = '"') := by
  refine h.imp_right (And.imp_right fun hc => ?_)
  rcases hc with hfollow | hdot | hquote
  · simp only [isFollow, Bool.or_eq_true, beq_iff_eq] at hfollow
    rcases hfollow with (hunder | hdollar) | halpha
    · exact .inl (.inr (by simp [hunder]))
    · exact .inl (.inr (by simp [hdollar]))
    · exact .inl (.inl halpha)
  · exact .inl (.inr (by simp [hdot]))
  · exact .inr hquote

theorem IsNameChar.not_beyond (h : IsNameChar c) : ¬ Text.Beyond c := by
  rcases h with halpha | hmem
  · exact Text.not_beyond_of_isWordChar (by simp [Text.isWordChar, halpha])
  · simp only [List.mem_cons, List.not_mem_nil, or_false] at hmem
    rcases hmem with rfl | rfl | rfl <;> decide

/-- What is offered stands in code and is no quote. -/
theorem mem_placed_of_mem_spotsIn {s : Spot} (h : s ∈ spotsIn p.mode before p.depth cs) :
    ((⟨.code, s.depth⟩, s.char) : Place × Char) ∈ p.placed cs ∧ s.char ≠ '"' := by
  induction cs generalizing p before with
  | nil => cases h
  | cons c cs ih =>
      rw [spotsIn_cons, List.mem_append] at h
      rw [Place.placed, List.mem_cons]
      rcases h with h | h
      · split at h
        · rename_i hoffers
          obtain rfl := List.mem_singleton.1 h
          obtain ⟨hmode, hnext, -⟩ := hoffers
          refine ⟨.inl (by rw [← hmode]), ?_⟩
          rintro rfl
          rw [hmode] at hnext
          cases hnext
        · cases h
      · exact (ih h).imp_left .inr

theorem spotsFrom_of_names (h : ∀ x ∈ (⟨.code, depth⟩ : Place).placed cs, InName depth x) {s : Spot}
    (hs : s ∈ spotsFrom before depth cs) : s.depth = depth ∧ IsNameChar s.char := by
  rw [spotsFrom_eq_spotsIn] at hs
  obtain ⟨hmem, hquote⟩ := mem_placed_of_mem_spotsIn (p := ⟨.code, depth⟩) hs
  rcases isNameChar_of_inName (h _ hmem) with hquoted | ⟨hcode, hchar⟩
  · cases hquoted
  · exact ⟨congrArg Place.depth hcode, hchar.resolve_right hquote⟩

/-- The bytes of code are those of the characters of code. -/
theorem offeredFrom_of_names (h : ∀ x ∈ (⟨.code, depth⟩ : Place).placed cs, InName depth x)
    {offset : Nat} {o : Offer} (ho : o ∈ offeredFrom ⟨.code, depth⟩ offset (bytesOf cs)) :
    o.depth = depth ∧ IsNameChar (Char.ofUInt8 o.byte) := by
  have hfits : (⟨.code, depth⟩ : Place).Fits cs.head? := trivial
  rw [← flatMap_spotsIn_eq_offeredFrom hfits none offset rfl, List.mem_flatMap] at ho
  obtain ⟨s, hs, ho⟩ := ho
  obtain ⟨hdepth, hchar⟩ := spotsFrom_of_names h (spotsFrom_eq_spotsIn none depth cs ▸ hs)
  rw [Spot.offers, Text.utf8EncodeChar_of_not_beyond hchar.not_beyond] at ho
  obtain rfl := List.mem_singleton.1 ho
  exact ⟨hdepth, by rwa [Text.ofUInt8_toUInt8 hchar.not_beyond]⟩

/-! ### What a page has in code -/

/-- The characters that a page adds in code: those of names, quotes, blanks and commas. -/
def IsTailChar (c : Char) : Prop := IsNameChar c ∨ c ∈ ['"', ' ', ',']

instance (c : Char) : Decidable (IsTailChar c) := inferInstanceAs (Decidable (_ ∨ _))

/-- If the character stands in code, it is one that a page adds there. -/
def InTail (x : Place × Char) : Prop := x.1.mode = .code → IsTailChar x.2

theorem InTail.ne {x : Place × Char} (h : InTail x) (hc : ¬ IsTailChar c)
    (hcode : x.1.mode = .code) : x.2 ≠ c := by
  rintro rfl
  exact hc (h hcode)

theorem inTail_of_mem_inCode {text : String} (h : ∀ c ∈ text.toList, IsTailChar c) :
    ∀ x ∈ inCode text, InTail x := by
  intro x hx
  obtain ⟨c, hc, rfl⟩ := List.mem_map.1 hx
  exact fun _ => h c hc

theorem mem_or_mem_of_mem_intercalate {α : Type} {sep : List α} {x : α} {parts : List (List α)}
    (h : x ∈ sep.intercalate parts) : x ∈ sep ∨ ∃ part ∈ parts, x ∈ part := by
  induction parts with
  | nil => cases h
  | cons part parts ih =>
      cases parts with
      | nil => exact .inr ⟨part, List.mem_cons_self, by simpa using h⟩
      | cons next parts =>
          rw [List.intercalate_cons_cons, List.mem_append, List.mem_append] at h
          rcases h with (h | h) | h
          · exact .inr ⟨part, List.mem_cons_self, h⟩
          · exact .inl h
          · exact (ih h).imp_right fun ⟨l, hl, hx⟩ => ⟨l, List.mem_cons_of_mem _ hl, hx⟩

theorem inTail_of_mem_termPlaces {item : SortTerm} (h : testIdentifier item.column = .ok ()) :
    ∀ x ∈ termPlaces item, InTail x := by
  have hdirection : ∀ c ∈ (" " ++ item.direction).toList, IsTailChar c := by
    rw [SortTerm.direction]
    split <;> exact List.all_iff_forall_prop.1 (by decide)
  intro x hx
  rcases List.mem_append.1 hx with hx | hx
  · rcases isNameChar_of_inName (((isIdentifier_of_test h).names 0).inName x hx) with hq | hc
    · exact fun hcode => by rw [hq] at hcode; cases hcode
    · exact fun _ => hc.2.imp_right fun hquote => by simp [hquote]
  · exact inTail_of_mem_inCode hdirection x hx

theorem isTailChar_of_mem_digits {n : Nat} (h : c ∈ Text.digits n) : IsTailChar c :=
  .inl (.inl (by simp [Char.isAlphanum, Text.isDigit_of_mem_digits h]))

/-- **What a page has in code** are characters of names, quotes, blanks and commas. -/
theorem inTail_of_mem_tailPlaces {page : Page}
    (h : ∀ item ∈ page.orders, testIdentifier item.column = .ok ()) :
    ∀ x ∈ tailPlaces page, InTail x := by
  have hlimit : ∀ c ∈ (limitText page).toList, IsTailChar c := by
    have hname : ∀ c ∈ " LIMIT ".toList, IsTailChar c := List.all_iff_forall_prop.1 (by decide)
    have hcomma : ∀ c ∈ ", ".toList, IsTailChar c := List.all_iff_forall_prop.1 (by decide)
    intro c hc
    simp only [limitText, String.toList_append, String.toList_ofList, List.mem_append] at hc
    rcases hc with ((hc | hc) | hc) | hc
    · exact hname c hc
    · exact isTailChar_of_mem_digits hc
    · exact hcomma c hc
    · exact isTailChar_of_mem_digits hc
  have horders : ∀ x ∈ orderPlaces page.orders, InTail x := by
    intro x hx
    unfold orderPlaces at hx
    split at hx
    · cases hx
    · rcases List.mem_append.1 hx with hx | hx
      · exact inTail_of_mem_inCode (List.all_iff_forall_prop.1 (by decide)) x hx
      · rcases mem_or_mem_of_mem_intercalate hx with hx | ⟨part, hpart, hx⟩
        · exact inTail_of_mem_inCode (List.all_iff_forall_prop.1 (by decide)) x hx
        · obtain ⟨item, hitem, rfl⟩ := List.mem_map.1 hpart
          exact inTail_of_mem_termPlaces (h item hitem) x hx
  intro x hx
  exact (List.mem_append.1 hx).elim (horders x) (inTail_of_mem_inCode hlimit x)

/-! ### Statements with columns -/

/-- A statement for a page is its statement without the end, and what the page adds. -/
theorem of_pageStatement {sql out : String} {page : Page} (h : pageStatement sql page = .ok out) :
    (∀ item ∈ page.orders, testIdentifier item.column = .ok ()) ∧
      out.toList = withoutEnd sql.toList ++ (pageTail page).toList := by
  rw [pageStatement] at h
  cases horders : checkOrders page.orders with
  | error e => rw [horders] at h; cases h
  | ok =>
      rw [horders] at h
      obtain rfl := Except.ok.inj h
      refine ⟨accepted_of_checkOrders horders, ?_⟩
      rw [String.append_assoc, String.toList_append, String.toList_ofList, pageTail]

/-- What a page adds has no markers. -/
theorem markerCount_pageTail {page : Page}
    (h : ∀ item ∈ page.orders, testIdentifier item.column = .ok ()) :
    markerCount (pageTail page).toList = 0 := by
  rw [markerCount_eq_zero_iff, (spells_pageTail h).placed]
  rintro x hx ⟨hcode, hmark⟩
  exact (inTail_of_mem_tailPlaces h x hx).ne (by decide) hcode hmark

/-- **Accepted columns are inert**: read from code they lead back to code at the same depth, all
that they have there are characters of names and double quotes, and only the former are offered.  A
page then adds no marker to a statement that leads to code, whatever is open at its end, and leaves
every place in it as it is: what is added has its own places, deeper by the parentheses that are
open, and leads back to where the statement did. -/
theorem columns_inert :
    (∀ column : String, testIdentifier column = .ok () →
      ∀ (before : Option Char) (offset depth : Nat),
        (⟨.code, depth⟩ : Place).Leads column.toList ⟨.code, depth⟩ ∧
        (∀ x ∈ (⟨.code, depth⟩ : Place).placed column.toList, x.1 = ⟨.quoted '"', depth⟩ ∨
          x.1 = ⟨.code, depth⟩ ∧ (IsNameChar x.2 ∨ x.2 = '"')) ∧
        (∀ s ∈ spotsFrom before depth column.toList, s.depth = depth ∧ IsNameChar s.char) ∧
        ∀ o ∈ offeredFrom ⟨.code, depth⟩ offset (Postgres.ofText column),
          o.depth = depth ∧ IsNameChar (Char.ofUInt8 o.byte)) ∧
    ∀ (sql out : String) (page : Page),
      (Place.start.past none (withoutEnd sql.toList)).mode = .code →
      pageStatement sql page = .ok out →
        markerCount out.toList = markerCount sql.toList ∧
        Place.start.placed out.toList = Place.start.placed (withoutEnd sql.toList) ++
          (tailPlaces page).map (Prod.map
            (Place.deeper (Place.start.past none (withoutEnd sql.toList)).depth) id) ∧
        Place.start.past none out.toList = Place.start.past none (withoutEnd sql.toList) := by
  constructor
  · intro column hcolumn before offset depth
    have hnames := (isIdentifier_of_test hcolumn).names depth
    refine ⟨hnames.leads, fun x hx => isNameChar_of_inName (hnames.inName x hx),
      fun s hs => spotsFrom_of_names hnames.inName hs, fun o ho => ?_⟩
    rw [← Text.bytesOf_toList] at ho
    exact offeredFrom_of_names hnames.inName ho
  · intro sql out page hcode hpage
    obtain ⟨horders, hout⟩ := of_pageStatement hpage
    have htail := spells_pageTail horders
    have hclosing : ∀ x ∈ Place.start.placed (pageTail page).toList,
        x.1.mode = .code → x.2 ≠ ')' := by
      rw [htail.placed]
      exact fun x hx => (inTail_of_mem_tailPlaces horders x hx).ne (by decide)
    -- the blank at the front of the addition begins and ends no comment
    have hseam : Place.start.past (pageTail page).toList.head? (withoutEnd sql.toList) =
        Place.start.past none (withoutEnd sql.toList) := by
      rw [head?_pageTail]
      exact Place.past_congr (by decide) (by decide) .start _
    generalize hplace : Place.start.past none (withoutEnd sql.toList) = place at hcode hseam
    have hdeeper : place = Place.start.deeper place.depth := by
      rw [Place.deeper, Place.start, Nat.zero_add, ← hcode]
    refine ⟨?_, ?_, ?_⟩
    · rw [hout, markerCount_append_of_code (by rw [hseam, hcode]), markerCount_pageTail horders,
        Nat.add_zero, markerCount_withoutEnd (by rw [hplace, hcode])]
    · rw [hout, Place.placed_append, hseam]
      conv_lhs => rw [hdeeper, Place.placed_deeper hclosing, htail.placed]
    · rw [hout, Place.past_append, Option.or_none, hseam]
      conv_lhs => rw [hdeeper, Place.past_deeper hclosing, htail.leads]
      exact hdeeper.symm

/-- A column with all that stirs between its double quotes, behind two open parentheses. -/
theorem columns_inert_of_stirring :
    testIdentifier "t.\"a?\"\"--/*(\".b$" = .ok () ∧
      (⟨.code, 2⟩ : Place).Leads "t.\"a?\"\"--/*(\".b$".toList ⟨.code, 2⟩ ∧
      ∃ out, pageStatement "SELECT f((a, ? -- ?\n + '?' ; "
          ⟨2, 10, [⟨"t.\"a?\"\"--/*(\".b$", true⟩], false⟩ = .ok out ∧
        markerCount out.toList = 1 ∧ Place.start.past none out.toList = ⟨.code, 2⟩ := by
  have hcolumn : testIdentifier "t.\"a?\"\"--/*(\".b$" = .ok () := by decide +kernel
  obtain ⟨out, hout⟩ : ∃ out, pageStatement "SELECT f((a, ? -- ?\n + '?' ; "
      ⟨2, 10, [⟨"t.\"a?\"\"--/*(\".b$", true⟩], false⟩ = .ok out := by
    rw [pageStatement, checkOrders_eq_ok (List.forall_mem_singleton.2 hcolumn)]
    exact ⟨_, rfl⟩
  have hplace : Place.start.past none (withoutEnd "SELECT f((a, ? -- ?\n + '?' ; ".toList) =
      ⟨.code, 2⟩ := by decide
  have hcount : markerCount "SELECT f((a, ? -- ?\n + '?' ; ".toList = 1 := by decide +kernel
  obtain ⟨hmarkers, -, hpast⟩ := columns_inert.2 _ _ _ (congrArg Place.mode hplace) hout
  exact ⟨hcolumn, (columns_inert.1 _ hcolumn none 0 2).1, out, hout, hmarkers.trans hcount,
    hpast.trans hplace⟩

end SqlAccess.Sql
