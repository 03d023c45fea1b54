/-
**Where keywords stand.**

A keyword stands between two texts if what comes before it leads to code outside all parentheses,
if it is not the rest of a word that began before, and if what comes after begins with it as a whole
word.  The search for keywords finds the first of these cuts.

Main definitions:

* `SqlAccess.Sql.KeywordAt` — a cut at which a keyword stands;
* `SqlAccess.Sql.Worded` — keywords that are words;
* `SqlAccess.Sql.FirstCut` — the first cut with a property.

Main results:

* `SqlAccess.Sql.FirstCut.unique` — there is at most one;
* `SqlAccess.Sql.findKeyword?_eq_some_iff` — **the search finds the first keyword**;
* `SqlAccess.Sql.findKeyword?_eq_none_iff` — **and nothing only where there is none**.
-/

import SqlAccess.Proofs.Sql.Place
import SqlAccess.Proofs.Text.Word

set_option autoImplicit false

namespace SqlAccess.Sql

variable {keywords : List (List Char)} {cs before after : List Char} {c : Char}
  {good rest : List Char → List Char → Prop}

/-! ### Cuts -/

/-- The first of the cuts of a text that have a property. -/
structure FirstCut (good : List Char → List Char → Prop) (cs before after : List Char) : Prop where
  eq : cs = before ++ after
  holds : good before after
  least : ∀ b a, cs = b ++ a → good b a → before.length ≤ b.length

namespace FirstCut

theorem unique {b a : List Char} (h : FirstCut good cs before after) (h' : FirstCut good cs b a) :
    before = b ∧ after = a := by
  have hle := h.least b a h'.eq h'.holds
  have hge := h'.least before after h.eq h.holds
  exact List.append_inj (h.eq.symm.trans h'.eq) (Nat.le_antisymm hle hge)

/-- A cut at the beginning is the first. -/
theorem nil (h : good [] cs) : FirstCut good cs [] cs where
  eq := rfl
  holds := h
  least _ _ _ _ := Nat.zero_le _

/-- If there is none before a character, the first cut is that of the rest. -/
theorem cons (hnot : ¬ good [] (c :: cs))
    (hrest : ∀ b a, cs = b ++ a → (good (c :: b) a ↔ rest b a))
    (h : FirstCut rest cs before after) : FirstCut good (c :: cs) (c :: before) after where
  eq := by rw [h.eq, List.cons_append]
  holds := (hrest before after h.eq).2 h.holds
  least b a heq hgood := by
    cases b with
    | nil =>
        rw [List.nil_append] at heq
        exact absurd (heq ▸ hgood) hnot
    | cons d b =>
        obtain ⟨rfl, htail⟩ := List.cons.inj heq
        exact Nat.succ_le_succ (h.least b a htail ((hrest b a htail).1 hgood))

end FirstCut

/-! ### Keywords -/

/-- A keyword stands between two texts, of which the first begins in a given place and after a given
character. -/
def KeywordFrom (keywords : List (List Char)) (p : Place) (prev : Option Char)
    (before after : List Char) : Prop :=
  p.past after.head? before = .start ∧ (before.getLast?.or prev).any Text.isWordChar = false ∧
    keywords.any (fun keyword => Text.beginsWithKeyword keyword after) = true

/-- **A keyword stands between two texts**: in code, outside parentheses, and as a whole word. -/
def KeywordAt (keywords : List (List Char)) (before after : List Char) : Prop :=
  KeywordFrom keywords .start none before after

/-- All keywords begin with a letter. -/
def Lettered (keywords : List (List Char)) : Prop :=
  ∀ keyword ∈ keywords, ∃ c rest, keyword = c :: rest ∧ c.isAlpha = true

/-- All keywords are words that begin with a letter. -/
def Worded (keywords : List (List Char)) : Prop := ∀ keyword ∈ keywords, Text.IsWord keyword

instance (keywords : List (List Char)) : Decidable (Worded keywords) :=
  decidable_of_iff (keywords.all fun keyword => decide (Text.IsWord keyword)) (by simp [Worded])

theorem Worded.lettered (h : Worded keywords) : Lettered keywords :=
  fun keyword hkeyword => (h keyword hkeyword).exists_cons

theorem worded_singleton {keyword : List Char} (h : Text.IsWord keyword) : Worded [keyword] :=
  List.forall_mem_singleton.2 h

theorem keywordAt_congr {before' after' : List Char}
    (hplace : Place.start.past after.head? before = Place.start.past after'.head? before')
    (hlast : before.getLast?.any Text.isWordChar = before'.getLast?.any Text.isWordChar)
    (hbegins : ∀ keyword ∈ keywords,
      Text.beginsWithKeyword keyword after = Text.beginsWithKeyword keyword after') :
    KeywordAt keywords before after ↔ KeywordAt keywords before' after' := by
  have hany : (keywords.any fun keyword => Text.beginsWithKeyword keyword after) =
      keywords.any fun keyword => Text.beginsWithKeyword keyword after' := by
    rw [Bool.eq_iff_iff, List.any_eq_true, List.any_eq_true]
    refine exists_congr fun keyword => and_congr_right fun hkeyword => ?_
    rw [hbegins keyword hkeyword]
  rw [KeywordAt, KeywordAt, KeywordFrom, KeywordFrom, hplace, Option.or_none, Option.or_none, hlast,
    hany]

/-- What begins with a keyword begins with a letter. -/
theorem exists_alpha_of_beginsWithKeyword (hkeywords : Lettered keywords)
    (h : keywords.any (fun keyword => Text.beginsWithKeyword keyword cs) = true) :
    ∃ c rest, cs = c :: rest ∧ c.isAlpha = true := by
  obtain ⟨keyword, hmem, hbegins⟩ := List.any_eq_true.1 h
  obtain ⟨k, keyword, rfl, hk⟩ := hkeywords keyword hmem
  simp only [Text.beginsWithKeyword, Text.sameIgnoringCase, Bool.and_eq_true, beq_iff_eq] at hbegins
  cases cs with
  | nil => cases hbegins.1
  | cons c cs =>
      have hlower : c.toLower = k.toLower := (List.cons.inj hbegins.1).1
      exact ⟨c, cs, rfl, by rw [← Text.isAlpha_toLower, hlower, Text.isAlpha_toLower, hk]⟩

/-! ### The search -/

/-- At the beginning of a text stands a keyword if the search stops there. -/
theorem keywordFrom_nil_iff (hkeywords : Lettered keywords) (p : Place) (prev : Option Char) :
    KeywordFrom keywords p prev [] (c :: cs) ↔
      p.Offers c cs.head? ∧ Spot.startsKeyword keywords ⟨c, p.depth, prev, c :: cs⟩ = true := by
  constructor
  · rintro ⟨rfl, hprev, hbegins⟩
    obtain ⟨d, rest, heq, halpha⟩ := exists_alpha_of_beginsWithKeyword hkeywords hbegins
    obtain ⟨rfl, rfl⟩ := List.cons.inj heq
    have hcalm := not_mem_stirring (f := Char.isAlpha) rfl halpha
    refine ⟨Calm.offers hcalm 0 cs.head?, ?_⟩
    change prev.any Text.isWordChar = false at hprev
    simp [Spot.startsKeyword, Place.start, halpha, hprev, hbegins]
  · rintro ⟨⟨hmode, -, -, -⟩, hstarts⟩
    simp only [Spot.startsKeyword, Bool.and_eq_true, beq_iff_eq, Bool.not_eq_true'] at hstarts
    obtain ⟨⟨⟨hdepth, -⟩, hprev⟩, hbegins⟩ := hstarts
    have hplace : p = .start := by
      cases p
      exact Place.mk.injEq _ _ _ _ ▸ ⟨hmode, hdepth⟩
    exact ⟨hplace, hprev, hbegins⟩

theorem keywordFrom_cons_iff (p : Place) (prev : Option Char) :
    KeywordFrom keywords p prev (c :: before) after ↔
      KeywordFrom keywords (p.next c (before ++ after).head?) (some c) before after := by
  have hlast : (c :: before).getLast?.or prev = before.getLast?.or (some c) := by
    cases hb : before.getLast? <;> simp [List.getLast?_cons, hb]
  rw [KeywordFrom, KeywordFrom, Place.past, List.head?_append, hlast]

/-- The search in the rest of a text stops at the first keyword there, and only for want of one it
comes to the end. -/
theorem find?_spotsIn (hkeywords : Lettered keywords) (p : Place) (prev : Option Char)
    (cs : List Char) :
    (∀ s, (spotsIn p.mode prev p.depth cs).find? (Spot.startsKeyword keywords) = some s →
      ∃ before, FirstCut (KeywordFrom keywords p prev) cs before s.text) ∧
    ((spotsIn p.mode prev p.depth cs).find? (Spot.startsKeyword keywords) = none →
      ∀ before after, cs = before ++ after → ¬ KeywordFrom keywords p prev before after) := by
  induction cs generalizing p prev with
  | nil =>
      constructor
      · intro s hs
        cases hs
      · intro _ before after heq hkeyword
        obtain ⟨-, rfl⟩ := List.append_eq_nil_iff.1 heq.symm
        obtain ⟨c, rest, hcons, -⟩ := exists_alpha_of_beginsWithKeyword hkeywords hkeyword.2.2
        cases hcons
  | cons c cs ih =>
      rw [spotsIn_cons]
      by_cases hhere : KeywordFrom keywords p prev [] (c :: cs)
      · obtain ⟨hoffers, hstarts⟩ := (keywordFrom_nil_iff hkeywords p prev).1 hhere
        rw [if_pos hoffers, List.singleton_append, List.find?_cons_of_pos hstarts]
        constructor
        · intro s hs
          cases hs
          exact ⟨[], .nil hhere⟩
        · intro hnone
          cases hnone
      · -- no keyword begins here, so the search goes on where the place of the next character is
        have hskip : (if p.Offers c cs.head? then [(⟨c, p.depth, prev, c :: cs⟩ : Spot)]
            else []).find? (Spot.startsKeyword keywords) = none := by
          split
          · rename_i hoffers
            rw [List.find?_singleton, if_neg]
            exact fun hstarts => hhere ((keywordFrom_nil_iff hkeywords p prev).2 ⟨hoffers, hstarts⟩)
          · rfl
        rw [List.find?_append, hskip, Option.none_or]
        obtain ⟨hsome, hnone⟩ := ih (p.next c cs.head?) (some c)
        constructor
        · intro s hs
          obtain ⟨before, hfirst⟩ := hsome s hs
          refine ⟨c :: before, .cons hhere (fun b a heq => ?_) hfirst⟩
          rw [heq]
          exact keywordFrom_cons_iff p prev
        · intro hs before after heq hkeyword
          cases before with
          | nil => exact hhere (by rwa [heq])
          | cons d before =>
              obtain ⟨rfl, rfl⟩ := List.cons.inj heq
              exact hnone hs before after rfl ((keywordFrom_cons_iff p prev).1 hkeyword)

theorem findKeyword?_eq (keywords : List (List Char)) (cs : List Char) :
    findKeyword? keywords cs =
      ((spotsIn .code none 0 cs).find? (Spot.startsKeyword keywords)).map
        fun s => (cs.take (cs.length - s.text.length), s.text) := by
  rw [findKeyword?, spots, spotsFrom_eq_spotsIn]

theorem firstCut_of_findKeyword? (hkeywords : Lettered keywords)
    (h : findKeyword? keywords cs = some (before, after)) :
    FirstCut (KeywordAt keywords) cs before after := by
  rw [findKeyword?_eq] at h
  obtain ⟨s, hs, hcut⟩ := Option.map_eq_some_iff.1 h
  obtain ⟨rfl, rfl⟩ := Prod.mk.inj hcut
  obtain ⟨b, hfirst⟩ := (find?_spotsIn hkeywords .start none cs).1 s hs
  have hlength : cs.length - s.text.length = b.length := by
    rw [hfirst.eq, List.length_append, Nat.add_sub_cancel_right]
  have htake : cs.take b.length = b := by
    rw [hfirst.eq, List.take_left]
  rw [hlength, htake]
  exact hfirst

/-- **The search finds nothing only where no keyword stands.** -/
theorem findKeyword?_eq_none_iff (hkeywords : Lettered keywords) :
    findKeyword? keywords cs = none ↔
      ∀ before after, cs = before ++ after → ¬ KeywordAt keywords before after := by
  constructor
  · intro h
    rw [findKeyword?_eq, Option.map_eq_none_iff] at h
    exact (find?_spotsIn hkeywords .start none cs).2 h
  · intro h
    cases hfind : findKeyword? keywords cs with
    | none => rfl
    | some cut =>
        have hfirst := firstCut_of_findKeyword? hkeywords hfind
        exact absurd hfirst.holds (h cut.1 cut.2 hfirst.eq)

/-- **The search finds the first keyword.** -/
theorem findKeyword?_eq_some_iff (hkeywords : Lettered keywords) :
    findKeyword? keywords cs = some (before, after) ↔
      FirstCut (KeywordAt keywords) cs before after := by
  refine ⟨firstCut_of_findKeyword? hkeywords, fun h => ?_⟩
  cases hfind : findKeyword? keywords cs with
  | none => exact absurd h.holds ((findKeyword?_eq_none_iff hkeywords).1 hfind before after h.eq)
  | some cut =>
      obtain ⟨rfl, rfl⟩ := (firstCut_of_findKeyword? hkeywords hfind).unique h
      rfl

end SqlAccess.Sql
