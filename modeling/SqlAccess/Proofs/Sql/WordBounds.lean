/-
**Keywords and identifiers.**

A keyword is looked for as a whole word of letters, digits and underscores.  A part of an identifier
may hold dollar signs besides, which are no characters of such words: the search may find a keyword
in the midst of a part, but only where a dollar sign cuts it off.

Main definitions:

* `SqlAccess.Sql.IsPlainPart`, `SqlAccess.Sql.MaximalPart` — a part without quotes, and one that is
  no piece of a longer one;
* `SqlAccess.Sql.CutOff` — a keyword in a part, cut off by dollar signs.

Main results:

* `SqlAccess.Sql.MaximalPart.of_ends` — a part between characters of no part is maximal;
* `SqlAccess.Sql.cutOff_of_keywordAt` — a keyword in a part is cut off from the rest of it;
* `SqlAccess.Sql.IsIdentifier.exists_part_at` — what is code in an identifier belongs to a part;
* `SqlAccess.Sql.from_cut_off_in_part` — **the `FROM` that is found in a part or in an identifier**;
* `SqlAccess.Sql.from_found_in_part` — a `FROM` that is none.
-/

import SqlAccess.Proofs.Sql.Bytes
import SqlAccess.Proofs.Sql.Counting
import SqlAccess.Proofs.Sql.Identifier

set_option autoImplicit false

namespace SqlAccess.Sql

variable {l w r x y before after part cs ds : List Char} {c : Char}

/-! ### Parts -/

/-- The text is accepted as one part of an identifier, without quotes. -/
def IsPlainPart (w : List Char) : Prop := skipPlainPart w = .ok []

theorem isPlainPart_cons_iff :
    IsPlainPart (c :: cs) ↔ isStart c = true ∧ ∀ d ∈ cs, isFollow d = true := by
  rw [IsPlainPart, skipPlainPart]
  split
  · rename_i hstart
    simp [hstart, List.dropWhile_eq_nil_iff]
  · rename_i hstart
    split <;> simp [hstart]

theorem IsPlainPart.ne_nil (h : IsPlainPart w) : w ≠ [] := by
  rintro rfl
  cases h

theorem IsPlainPart.isFollow (h : IsPlainPart w) : ∀ d ∈ w, isFollow d = true := by
  obtain ⟨c, cs, rfl⟩ := List.exists_cons_of_ne_nil h.ne_nil
  obtain ⟨hstart, hfollow⟩ := isPlainPart_cons_iff.1 h
  exact List.forall_mem_cons.2 ⟨isFollow_of_isStart hstart, hfollow⟩

theorem IsPlainPart.append (h : IsPlainPart w) (hy : ∀ d ∈ y, Sql.isFollow d = true) :
    IsPlainPart (w ++ y) := by
  obtain ⟨c, cs, rfl⟩ := List.exists_cons_of_ne_nil h.ne_nil
  obtain ⟨hstart, hfollow⟩ := isPlainPart_cons_iff.1 h
  refine isPlainPart_cons_iff.2 ⟨hstart, fun d hd => ?_⟩
  rcases List.mem_append.1 hd with hd | hd
  · exact hfollow d hd
  · exact hy d hd

/-- **A part that is no piece of a longer one**, between two texts. -/
structure MaximalPart (l w r : List Char) : Prop where
  part : IsPlainPart w
  maximal : ∀ x y, x <:+ l → y <+: r → IsPlainPart (x ++ w ++ y) → x = [] ∧ y = []

namespace MaximalPart

/-- No part goes on behind it. -/
theorem not_follow (h : MaximalPart l w r) : r.head?.any isFollow = false := by
  cases r with
  | nil => rfl
  | cons d r =>
      refine Bool.eq_false_iff.2 fun hd => ?_
      have hpart : IsPlainPart ([] ++ w ++ [d]) := h.part.append (by simpa using hd)
      exact absurd (h.maximal [] [d] (List.nil_suffix) ⟨r, rfl⟩ hpart).2 (List.cons_ne_nil d [])

/-- A part between characters that may stand in none is maximal. -/
theorem of_ends (hw : IsPlainPart w) (hl : l.getLast?.any isFollow = false)
    (hr : r.head?.any isFollow = false) : MaximalPart l w r where
  part := hw
  maximal x y hx hy hpart := by
    have hfollow := hpart.isFollow
    constructor
    · rcases List.eq_nil_or_concat x with rfl | ⟨x, d, rfl⟩
      · rfl
      · obtain ⟨l, rfl⟩ := hx
        rw [List.concat_eq_append, ← List.append_assoc, List.getLast?_concat,
          Option.any_some] at hl
        exact absurd (hfollow d (by simp)) (by simp [hl])
    · cases y with
      | nil => rfl
      | cons d y =>
          obtain ⟨r, rfl⟩ := hy
          rw [List.cons_append, List.head?_cons, Option.any_some] at hr
          exact absurd (hfollow d (by simp)) (by simp [hr])

end MaximalPart

/-! ### Keywords in parts -/

/-- A character of a part that is none of a word is a dollar sign. -/
theorem eq_dollar_of_isFollow (h : isFollow c = true) (hword : Text.isWordChar c = false) :
    c = '$' := by
  simp only [isFollow, Bool.or_eq_true, beq_iff_eq] at h
  simp only [Text.isWordChar, Bool.or_eq_false_iff, beq_eq_false_iff_ne, ne_eq] at hword
  rcases h with (hunder | hdollar) | halpha
  · exact absurd hunder hword.2
  · exact hdollar
  · rw [halpha] at hword
    cases hword.1

/-- **The keyword between `before` and `after` is a piece of the part `w`** between `l` and `r`, and
a dollar sign cuts it off on each side where it is not at the end of the part. -/
def CutOff (keyword l w r before after : List Char) : Prop :=
  ∃ a f b, w = a ++ f ++ b ∧ before = l ++ a ∧ after = f ++ b ++ r ∧
    Text.sameIgnoringCase f keyword = true ∧
    (a = [] ∨ a.getLast? = some '$') ∧ (b = [] ∨ b.head? = some '$')

variable {keyword : List Char}

/-- Without dollar signs, the part is the keyword. -/
theorem CutOff.whole (h : CutOff keyword l w r before after) (hdollar : '$' ∉ w) :
    before = l ∧ Text.sameIgnoringCase w keyword = true := by
  obtain ⟨a, f, b, rfl, rfl, rfl, hf, ha, hb⟩ := h
  simp only [List.mem_append, not_or] at hdollar
  have ha : a = [] := ha.resolve_right fun he => hdollar.1.1 (List.mem_of_getLast? he)
  have hb : b = [] := hb.resolve_right fun he => hdollar.2 (List.mem_of_head? he)
  subst ha hb
  simpa using hf

/-- What begins in the midst of three texts, and goes on to their end. -/
theorem exists_cut_within (hcut : before ++ after = l ++ w ++ r) (hle : l.length ≤ before.length)
    (hlt : before.length < l.length + w.length) :
    ∃ x d y, before = l ++ x ∧ w = x ++ d :: y ∧ after = d :: y ++ r := by
  obtain ⟨x, rfl⟩ : l <+: before :=
    List.prefix_of_prefix_length_le ⟨w ++ r, by rw [← List.append_assoc, ← hcut]⟩
      (List.prefix_append before after) hle
  rw [List.append_assoc, List.append_assoc] at hcut
  have hcut : x ++ after = w ++ r := List.append_cancel_left hcut
  rw [List.length_append] at hlt
  have hxlt : x.length < w.length := by omega
  obtain ⟨y, rfl⟩ : x <+: w :=
    List.prefix_of_prefix_length_le ⟨after, hcut⟩ (List.prefix_append w r) (Nat.le_of_lt hxlt)
  rw [List.append_assoc] at hcut
  obtain ⟨d, y, rfl⟩ := List.exists_cons_of_ne_nil (show y ≠ [] by rintro rfl; simp at hxlt)
  exact ⟨x, d, y, rfl, rfl, List.append_cancel_left hcut⟩

theorem isFollow_of_isWordChar (h : Text.isWordChar c = true) : isFollow c = true := by
  simp only [Text.isWordChar, Bool.or_eq_true] at h
  rcases h with h | h <;> simp [isFollow, h]

/-- **A keyword in a part is cut off from the rest of it.** -/
theorem cutOff_of_keywordAt (hkeyword : Text.IsWord keyword)
    (h : KeywordAt [keyword] before after) (hpart : MaximalPart l w r)
    (hcut : before ++ after = l ++ w ++ r) (hle : l.length ≤ before.length)
    (hlt : before.length < l.length + w.length) : CutOff keyword l w r before after := by
  obtain ⟨-, hlast, hbegins⟩ := h
  rw [List.any_cons, List.any_nil, Bool.or_false] at hbegins
  obtain ⟨f, rest, hafter, hf, hchars, hrest⟩ :=
    Text.exists_of_beginsWithKeyword hkeyword.chars hbegins
  -- the keyword begins in the part
  obtain ⟨a, d, t, rfl, rfl, htail⟩ := exists_cut_within hcut hle hlt
  -- and it ends there, as no part goes on behind this one
  obtain ⟨b, hpiece, rfl⟩ : ∃ b, d :: t = f ++ b ∧ rest = b ++ r := by
    rcases List.append_eq_append_iff.1 (hafter.symm.trans htail) with ⟨b, hb, hr⟩ | ⟨b, rfl, hb⟩
    · exact ⟨b, hb, hr⟩
    · cases b with
      | nil => exact ⟨[], by simp, by simpa using hb.symm⟩
      | cons e b =>
          have hnot := hpart.not_follow
          rw [hb, List.cons_append, List.head?_cons, Option.any_some,
            isFollow_of_isWordChar (hchars e (by simp))] at hnot
          cases hnot
  have hfollow := hpart.part.isFollow
  rw [hpiece] at hfollow htail ⊢
  refine ⟨a, f, b, by simp, rfl, htail, hf, ?_, ?_⟩
  · rcases List.eq_nil_or_concat a with rfl | ⟨a, e, rfl⟩
    · exact .inl rfl
    · rw [List.concat_eq_append, ← List.append_assoc, List.getLast?_concat, Option.some_or,
        Option.any_some] at hlast
      right
      rw [List.concat_eq_append, List.getLast?_concat,
        eq_dollar_of_isFollow (hfollow e (by simp)) hlast]
  · cases b with
    | nil => exact .inl rfl
    | cons e b =>
        rw [List.cons_append, List.head?_cons, Option.any_some] at hrest
        right
        rw [List.head?_cons, eq_dollar_of_isFollow (hfollow e (by simp)) hrest]

/-! ### Identifiers -/

theorem Place.next_quoted {mark : Char} (h : c ≠ mark) (depth : Nat) (ahead : Option Char) :
    (⟨.quoted mark, depth⟩ : Place).next c ahead = ⟨.quoted mark, depth⟩ := by
  simp [Place.next, Mode.next, h]

/-- Between double quotes only the double quotes are code. -/
theorem Doubled.mode_past {body z : List Char} (h : Doubled body)
    (heq : body ++ ['"'] = x ++ c :: z) (hc : c ≠ '"') (depth : Nat) :
    ((⟨.quoted '"', depth⟩ : Place).past (some c) x).mode = .quoted '"' := by
  induction h generalizing x with
  | nil =>
      cases x with
      | nil => exact absurd (List.cons.inj heq).1.symm hc
      | cons d x => simp at heq
  | quote _ ih =>
      cases x with
      | nil => exact absurd (List.cons.inj heq).1.symm hc
      | cons d x =>
          obtain ⟨rfl, hsecond⟩ := List.cons.inj heq
          cases x with
          | nil => exact absurd (List.cons.inj hsecond).1.symm hc
          | cons e x =>
              obtain ⟨rfl, hrest⟩ := List.cons.inj hsecond
              have hquoted := ih hrest
              exact hquoted
  | char hd _ ih =>
      cases x with
      | nil => rfl
      | cons e x =>
          obtain ⟨rfl, hrest⟩ := List.cons.inj heq
          rw [Place.past, Place.next_quoted hd]
          exact ih hrest

/-- A part with a letter in code has no quotes. -/
theorem IsPart.isPlainPart_of_code {z : List Char} (h : IsPart part) (heq : part = x ++ c :: z)
    (hc : c.isAlpha = true) {depth : Nat}
    (hcode : ((⟨.code, depth⟩ : Place).past (some c) x).mode = .code) : IsPlainPart part := by
  have hquote : c ≠ '"' := by
    rintro rfl
    cases hc
  cases h with
  | word hstart hfollow => exact isPlainPart_cons_iff.2 ⟨hstart, hfollow⟩
  | quoted hbody _ =>
      cases x with
      | nil => exact absurd (List.cons.inj heq).1.symm hquote
      | cons d x =>
          obtain ⟨rfl, hrest⟩ := List.cons.inj heq
          have hquoted := hbody.mode_past hrest hquote depth
          have hsame : (⟨.code, depth⟩ : Place).past (some c) ('"' :: x) =
              (⟨.quoted '"', depth⟩ : Place).past (some c) x := rfl
          rw [hsame, hquoted] at hcode
          cases hcode

/-- **What is code in an identifier belongs to a part** without quotes. -/
theorem IsIdentifier.exists_part_at {name z : List Char} (h : IsIdentifier name)
    (heq : name = x ++ c :: z) (hc : c.isAlpha = true) {depth : Nat}
    (hcode : ((⟨.code, depth⟩ : Place).past (some c) x).mode = .code) :
    ∃ u w v, name = u ++ w ++ v ∧ IsPlainPart w ∧ u.length ≤ x.length ∧
      x.length < u.length + w.length ∧ (u = [] ∨ u.getLast? = some '.') ∧
      (v = [] ∨ v.head? = some '.') := by
  have hdot : c ≠ '.' := by
    rintro rfl
    cases hc
  induction h generalizing x with
  | part hpart =>
      subst heq
      refine ⟨[], x ++ c :: z, [], by simp, hpart.isPlainPart_of_code rfl hc hcode, ?_, ?_,
        .inl rfl, .inl rfl⟩
      · exact Nat.zero_le _
      · simp
  | dot hpart _ ih =>
      rename_i part cs _
      rcases List.append_eq_append_iff.1 heq with ⟨y, rfl, hy⟩ | ⟨y, rfl, hy⟩
      · -- behind the dot
        cases y with
        | nil => exact absurd (List.cons.inj hy).1.symm hdot
        | cons d y =>
            obtain ⟨rfl, hrest⟩ := List.cons.inj hy
            have hlead : (⟨.code, depth⟩ : Place).past (some c) (part ++ '.' :: y) =
                (⟨.code, depth⟩ : Place).past (some c) y := by
              rw [Place.past_append, (hpart.names depth).leads, Place.past,
                Calm.next_eq (by decide)]
            rw [hlead] at hcode
            obtain ⟨u, w, v, rfl, hw, hle, hlt, hu, hv⟩ := ih hrest hcode
            refine ⟨part ++ '.' :: u, w, v, by simp, hw, ?_, ?_, .inr ?_, hv⟩
            · simpa using hle
            · simp only [List.length_append, List.length_cons]
              omega
            · rcases hu with rfl | hu
              · exact List.getLast?_concat ..
              · rw [List.getLast?_append, List.getLast?_cons, hu]
                rfl
      · -- before the dot
        cases y with
        | nil => exact absurd (List.cons.inj hy).1 hdot
        | cons d y =>
            obtain ⟨rfl, rfl⟩ := List.cons.inj hy
            refine ⟨[], x ++ c :: y, '.' :: cs, by simp,
              hpart.isPlainPart_of_code rfl hc hcode, Nat.zero_le _, by simp, .inl rfl, .inr rfl⟩

/-- A keyword in an identifier is cut off from the rest of a part. -/
theorem exists_cutOff_of_keywordAt {name : List Char} (hkeyword : Text.IsWord keyword)
    (h : KeywordAt [keyword] before after) (hname : IsIdentifier name)
    (hcut : before ++ after = l ++ name ++ r)
    (hcode : (Place.start.past (name ++ r).head? l).mode = .code)
    (hl : l.getLast?.any isFollow = false) (hr : r.head?.any isFollow = false)
    (hle : l.length ≤ before.length) (hlt : before.length < l.length + name.length) :
    ∃ u w v, name = u ++ w ++ v ∧ IsPlainPart w ∧ (u = [] ∨ u.getLast? = some '.') ∧
      (v = [] ∨ v.head? = some '.') ∧ CutOff keyword (l ++ u) w (v ++ r) before after := by
  obtain ⟨c, rest, hafter, halpha⟩ :=
    exists_alpha_of_beginsWithKeyword (worded_singleton hkeyword).lettered h.2.2
  obtain ⟨x, d, z, rfl, rfl, htail⟩ := exists_cut_within hcut hle hlt
  obtain ⟨rfl, -⟩ := List.cons.inj (hafter.symm.trans htail)
  -- the keyword begins in code
  have hstart := h.1
  have hhead : (x ++ c :: z ++ r).head? = x.head?.or (some c) := by
    rw [List.append_assoc, List.head?_append, List.cons_append, List.head?_cons]
  rw [hafter, List.head?_cons, Place.past_append, ← hhead] at hstart
  obtain ⟨depth, hplace⟩ : ∃ depth, Place.start.past (x ++ c :: z ++ r).head? l = ⟨.code, depth⟩ :=
    ⟨_, congrArg (Place.mk · _) hcode⟩
  rw [hplace] at hstart
  obtain ⟨u, w, v, heq, hw, hule, hult, hu, hv⟩ :=
    hname.exists_part_at rfl halpha (congrArg Place.mode hstart)
  have hends : MaximalPart (l ++ u) w (v ++ r) := by
    refine .of_ends hw ?_ ?_
    · rcases hu with rfl | hu
      · rwa [List.append_nil]
      · rw [List.getLast?_append, hu]
        rfl
    · rcases hv with rfl | hv
      · exact hr
      · rw [List.head?_append, hv]
        rfl
  refine ⟨u, w, v, heq, hw, hu, hv, cutOff_of_keywordAt hkeyword h hends ?_ ?_ ?_⟩
  · rw [hcut, heq]
    simp
  · simpa using hule
  · simp only [List.length_append]
    omega

/-! ### The `FROM` of a statement -/

/-- **The `FROM` that is found in a part is the part**, unless dollar signs cut it off.  In an
identifier it is one of the parts, in the same way, and a count keeps the text from there on. -/
theorem from_cut_off_in_part (h : findKeyword? ["FROM".toList] cs = some (before, after)) :
    (∀ l w r, cs = l ++ w ++ r → MaximalPart l w r →
      l.length ≤ before.length → before.length < l.length + w.length →
        CutOff "FROM".toList l w r before after ∧
        ('$' ∉ w → before = l ∧ Text.sameIgnoringCase w "FROM".toList = true)) ∧
    (∀ l name r, cs = l ++ name ++ r → testIdentifier (String.ofList name) = .ok () →
      (Place.start.past (name ++ r).head? l).mode = .code →
      l.getLast?.any isFollow = false → r.head?.any isFollow = false →
      l.length ≤ before.length → before.length < l.length + name.length →
        ∃ u w v, name = u ++ w ++ v ∧ IsPlainPart w ∧ (u = [] ∨ u.getLast? = some '.') ∧
          (v = [] ∨ v.head? = some '.') ∧
          CutOff "FROM".toList (l ++ u) w (v ++ r) before after) ∧
    ∀ sql args counted, bodyOf sql = cs → countStatement sql args = .ok counted →
      ∃ leading, withoutEnd sql.toList = leading ++ cs ∧
        counted.sql.toList = leading ++ "SELECT COUNT(*) ".toList ++ after := by
  have hfirst := firstCut_of_findKeyword? lettered_from h
  have hword : Text.IsWord "FROM".toList := by decide
  refine ⟨?_, ?_, ?_⟩
  · intro l w r hcs hpart hle hlt
    have hcut := cutOff_of_keywordAt hword hfirst.holds hpart (hfirst.eq.symm.trans hcs) hle hlt
    exact ⟨hcut, hcut.whole⟩
  · intro l name r hcs hname hcode hl hr hle hlt
    have hidentifier := isIdentifier_of_test hname
    rw [String.toList_ofList] at hidentifier
    exact exists_cutOff_of_keywordAt hword hfirst.holds hidentifier
      (hfirst.eq.symm.trans hcs) hcode hl hr hle hlt
  · rintro sql args counted rfl hcount
    obtain ⟨leading, hleading⟩ : ∃ leading, withoutEnd sql.toList = leading ++ bodyOf sql :=
      exists_leading _
    obtain rfl := Except.ok.inj ((countStatement_of_some hleading h args).symm.trans hcount)
    exact ⟨leading, hleading, by simp⟩

/-- A column with a dollar sign, one with a name that begins with `FROM`, and one in quotes. -/
def columnsSql : List Char := "SELECT a$b, fromage, \"from\" FROM t".toList

theorem from_cut_off_in_columns :
    findKeyword? ["FROM".toList] columnsSql =
        some ("SELECT a$b, fromage, \"from\" ".toList, "FROM t".toList) ∧
      CutOff "FROM".toList "SELECT a$b, fromage, \"from\" ".toList "FROM".toList " t".toList
        "SELECT a$b, fromage, \"from\" ".toList "FROM t".toList := by
  have hfind : findKeyword? ["FROM".toList] columnsSql =
      some ("SELECT a$b, fromage, \"from\" ".toList, "FROM t".toList) := by
    decide +kernel
  have hpart : MaximalPart "SELECT a$b, fromage, \"from\" ".toList "FROM".toList " t".toList :=
    .of_ends (by rfl) (by decide) (by decide)
  exact ⟨hfind, ((from_cut_off_in_part hfind).1 _ _ _ (by decide) hpart (by decide) (by decide)).1⟩

/-- **A `FROM` that is none** is found where an identifier begins with it and a dollar sign follows,
and one where an identifier ends with it and a dollar sign comes before: a count keeps the text from
there on. -/
theorem from_found_in_part :
    MaximalPart "SELECT ".toList "from$1".toList " FROM t".toList ∧
      findKeyword? ["FROM".toList] "SELECT from$1 FROM t".toList =
        some ("SELECT ".toList, "from$1 FROM t".toList) ∧
      (∃ counted, countStatement "SELECT from$1 FROM t" [] = .ok counted ∧
        counted.sql = "SELECT COUNT(*) from$1 FROM t") ∧
      MaximalPart "SELECT ".toList "a$from".toList " FROM t".toList ∧
      findKeyword? ["FROM".toList] "SELECT a$from FROM t".toList =
        some ("SELECT a$".toList, "from FROM t".toList) := by
  have hfind : findKeyword? ["FROM".toList] "SELECT from$1 FROM t".toList =
      some ("SELECT ".toList, "from$1 FROM t".toList) := by
    decide +kernel
  have hbody : bodyOf "SELECT from$1 FROM t" = "SELECT from$1 FROM t".toList := by decide +kernel
  have hwhole : withoutEnd "SELECT from$1 FROM t".toList = [] ++ bodyOf "SELECT from$1 FROM t" := by
    decide +kernel
  refine ⟨.of_ends (by rfl) (by decide) (by decide), hfind,
    ⟨_, countStatement_of_some hwhole (hbody ▸ hfind) [], by decide⟩,
    .of_ends (by rfl) (by decide) (by decide), by decide +kernel⟩

end SqlAccess.Sql
