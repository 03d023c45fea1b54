/-
**The identifiers that are accepted.**

An identifier is written as names joined by dots.  A name is a word, which is written as it is, or
any text that is not empty, which is written between double quotes with each double quote in it
twice.  The test accepts what is written so and holds no NUL, and refuses all else: it takes a part
to end where nothing can go on with it, and then the text ends or a dot follows.  With each part it
goes on to a shorter text, so that it comes to an end.

Main definitions:

* `SqlAccess.Sql.Name`, `SqlAccess.Sql.Name.Proper` — names, and those that can be written;
* `SqlAccess.Sql.Name.written`, `SqlAccess.Sql.Name.joined` — how they are written;
* `SqlAccess.Sql.GoesOn` — one turn of the test.

Main results:

* `SqlAccess.Sql.isIdentifier_iff` — the grammar as what is written;
* `SqlAccess.Sql.skipPart_append` — a part is skipped up to its end;
* `SqlAccess.Sql.checkParts_of_isIdentifier` — **what follows the grammar is accepted**;
* `SqlAccess.Sql.length_turns_le` — how many turns the test can take;
* `SqlAccess.Sql.testIdentifier_accepts_names` — **the test accepts exactly names joined by dots**.
-/

import Mathlib.Data.List.Chain
import SqlAccess.Proofs.Sql.Identifier
import SqlAccess.Proofs.Text.Cut
import SqlAccess.Sql.Paging

set_option autoImplicit false

namespace SqlAccess.Sql

variable {cs part rest : List Char} {c : Char} {seen : Nat}

/-! ### Names -/

/-- A name in an identifier. -/
inductive Name where
  /-- A word, by its first character and the others. -/
  | word (first : Char) (others : List Char)
  /-- A text between double quotes. -/
  | quoted (text : List Char)
  deriving DecidableEq, Repr, Inhabited

namespace Name

/-- A word begins with a letter or an underscore and goes on with letters, digits, underscores and
dollar signs; a text between double quotes is not empty. -/
def Proper : Name → Prop
  | word first others => (first = '_' ∨ first.isAlpha = true) ∧
      ∀ c ∈ others, c = '_' ∨ c = '$' ∨ c.isAlphanum = true
  | quoted text => text ≠ []

instance : DecidablePred Proper
  | word _ _ => @instDecidableAnd _ _ _ (List.decidableBAll _ _)
  | quoted _ => inferInstanceAs (Decidable (_ ≠ _))

/-- The text with each double quote in it twice. -/
def doubled (text : List Char) : List Char :=
  text.flatMap fun c => if c = '"' then ['"', '"'] else [c]

/-- How a name is written. -/
def written : Name → List Char
  | word first others => first :: others
  | quoted text => '"' :: (doubled text ++ ['"'])

/-- How names are written as one identifier. -/
def joined (names : List Name) : List Char := ['.'].intercalate (names.map written)

theorem doubled_cons (c : Char) (text : List Char) :
    doubled (c :: text) = (if c = '"' then ['"', '"'] else [c]) ++ doubled text :=
  List.flatMap_cons

theorem doubled_eq_nil_iff {text : List Char} : doubled text = [] ↔ text = [] := by
  cases text with
  | nil => exact iff_of_true rfl rfl
  | cons c text =>
      rw [doubled_cons]
      split <;> simp

theorem joined_singleton (name : Name) : joined [name] = name.written := List.intercalate_singleton

theorem joined_cons_cons (name next : Name) (names : List Name) :
    joined (name :: next :: names) = name.written ++ '.' :: joined (next :: names) := by
  simp [joined]

end Name

theorem isStart_iff : isStart c = true ↔ c = '_' ∨ c.isAlpha = true := by
  simp [isStart]

theorem isFollow_iff : isFollow c = true ↔ c = '_' ∨ c = '$' ∨ c.isAlphanum = true := by
  simp [isFollow, or_assoc]

/-- What stands between double quotes is a text with its double quotes doubled. -/
theorem doubled_iff : Doubled cs ↔ ∃ text, cs = Name.doubled text := by
  constructor
  · intro h
    induction h with
    | nil => exact ⟨[], rfl⟩
    | quote _ ih =>
        obtain ⟨text, rfl⟩ := ih
        exact ⟨'"' :: text, rfl⟩
    | char hc _ ih =>
        rename_i c _ _
        obtain ⟨text, rfl⟩ := ih
        exact ⟨c :: text, by rw [Name.doubled_cons, if_neg hc, List.singleton_append]⟩
  · rintro ⟨text, rfl⟩
    induction text with
    | nil => exact .nil
    | cons c text ih =>
        rw [Name.doubled_cons]
        by_cases hc : c = '"'
        · rw [if_pos hc]
          exact .quote ih
        · rw [if_neg hc]
          exact .char hc ih

theorem isPart_iff : IsPart cs ↔ ∃ name : Name, name.Proper ∧ cs = name.written := by
  constructor
  · intro h
    cases h with
    | word hstart hfollow =>
        exact ⟨.word _ _, ⟨isStart_iff.1 hstart, fun d hd => isFollow_iff.1 (hfollow d hd)⟩, rfl⟩
    | quoted hbody hne =>
        obtain ⟨text, rfl⟩ := doubled_iff.1 hbody
        exact ⟨.quoted text, mt Name.doubled_eq_nil_iff.2 hne, rfl⟩
  · rintro ⟨name, hname, rfl⟩
    cases name with
    | word first others =>
        exact .word (isStart_iff.2 hname.1) fun d hd => isFollow_iff.2 (hname.2 d hd)
    | quoted text =>
        exact .quoted (doubled_iff.2 ⟨text, rfl⟩) (mt Name.doubled_eq_nil_iff.1 hname)

/-- **The grammar as what is written**: names joined by dots. -/
theorem isIdentifier_iff :
    IsIdentifier cs ↔
      ∃ names, names ≠ [] ∧ (∀ name ∈ names, Name.Proper name) ∧ cs = Name.joined names := by
  constructor
  · intro h
    induction h with
    | part hpart =>
        obtain ⟨name, hname, rfl⟩ := isPart_iff.1 hpart
        exact ⟨[name], List.cons_ne_nil _ _, List.forall_mem_singleton.2 hname,
          (Name.joined_singleton name).symm⟩
    | dot hpart _ ih =>
        obtain ⟨name, hname, rfl⟩ := isPart_iff.1 hpart
        obtain ⟨names, hne, hnames, rfl⟩ := ih
        obtain ⟨next, names, rfl⟩ := List.exists_cons_of_ne_nil hne
        exact ⟨name :: next :: names, List.cons_ne_nil _ _, List.forall_mem_cons.2 ⟨hname, hnames⟩,
          (Name.joined_cons_cons name next names).symm⟩
  · rintro ⟨names, hne, hnames, rfl⟩
    induction names with
    | nil => exact absurd rfl hne
    | cons name names ih =>
        rw [List.forall_mem_cons] at hnames
        have hpart : IsPart name.written := isPart_iff.2 ⟨name, hnames.1, rfl⟩
        cases names with
        | nil =>
            rw [Name.joined_singleton]
            exact .part hpart
        | cons next names =>
            rw [Name.joined_cons_cons]
            exact .dot hpart (ih (List.cons_ne_nil _ _) hnames.2)

/-! ### Where a part ends -/

/-- A text between double quotes ends at the first double quote that no other one follows. -/
theorem skipQuotedPart_append (h : Doubled cs) (hseen : seen = 0 → cs ≠ [])
    (hrest : rest.head? ≠ some '"') : skipQuotedPart seen (cs ++ '"' :: rest) = .ok rest := by
  induction h generalizing seen with
  | nil =>
      have hseen : seen ≠ 0 := fun hzero => hseen hzero rfl
      cases rest with
      | nil => simp [skipQuotedPart, hseen]
      | cons d rest =>
          have hd : d ≠ '"' := fun hd => hrest (congrArg some hd)
          simp [skipQuotedPart, hseen, hd]
  | quote _ ih => exact ih nofun
  | char hc _ ih =>
      rw [List.cons_append, skipQuotedPart, if_neg hc]
      · exact ih nofun
      · exact fun _ hquote _ => hc hquote

/-- A part ends at the end of the text or at a dot. -/
theorem skipPart_append (h : IsPart part) (hrest : ∀ c ∈ rest.head?, c = '.') :
    skipPart (part ++ rest) = .ok rest := by
  cases h with
  | word hstart hfollow =>
      rename_i c cs
      have hquote : c ≠ '"' := by
        rintro rfl
        cases hstart
      have hends : ∀ d ∈ rest.head?, isFollow d = false := fun d hd => by rw [hrest d hd]; rfl
      rw [List.cons_append, skipPart, skipPlainPart, if_pos hstart,
        Text.dropWhile_append_of_head? hfollow hends]
      rintro rest ⟨⟩
      exact hquote rfl
  | quoted hbody hne =>
      rw [List.cons_append, List.append_assoc, skipPart]
      -- a double quote behind the closing one would make it an inner one
      refine skipQuotedPart_append hbody (fun _ => hne) fun hquote => ?_
      exact absurd (hrest '"' hquote) (by decide)

/-! ### One turn after the other -/

/-- **One turn of the test**: what is behind a part and a dot is tested next. -/
structure GoesOn (cs rest : List Char) : Prop where
  skips : skipPart cs = .ok ('.' :: rest)
  more : rest ≠ []

theorem checkParts_of_goesOn (h : GoesOn cs rest) : checkParts cs = checkParts rest := by
  obtain ⟨hskips, hmore⟩ := h
  rw [checkParts]
  split <;> rename_i hskip <;> rw [hskip] at hskips <;> cases hskips
  · exact absurd rfl hmore
  · exact if_pos rfl

theorem checkParts_of_last (h : skipPart cs = .ok []) : checkParts cs = .ok () := by
  rw [checkParts]
  split <;> rename_i hskip <;> rw [hskip] at h <;> cases h

theorem IsIdentifier.ne_nil (h : IsIdentifier cs) : cs ≠ [] := by
  cases h with
  | part hpart => cases hpart <;> exact List.cons_ne_nil _ _
  | dot => simp

/-- **What follows the grammar is accepted.** -/
theorem checkParts_of_isIdentifier (h : IsIdentifier cs) : checkParts cs = .ok () := by
  induction h with
  | part hpart =>
      rename_i part
      have hskip : skipPart (part ++ []) = .ok [] := skipPart_append hpart nofun
      rw [List.append_nil] at hskip
      exact checkParts_of_last hskip
  | dot hpart hrest ih =>
      rw [checkParts_of_goesOn ⟨skipPart_append hpart (by simp), hrest.ne_nil⟩]
      exact ih

theorem testIdentifier_eq_ok_iff {text : String} :
    testIdentifier text = .ok () ↔ '\x00' ∉ text.toList ∧ IsIdentifier text.toList := by
  constructor
  · intro h
    refine ⟨fun hnul => ?_, isIdentifier_of_test h⟩
    have hne : text.toList.isEmpty = false := by
      cases htext : text.toList with
      | nil => rw [htext] at hnul; cases hnul
      | cons => rfl
    rw [testIdentifier, if_neg (by simp [hne]), if_pos (List.contains_iff_mem.2 hnul)] at h
    cases h
  · rintro ⟨hnul, h⟩
    rw [testIdentifier, if_neg (by simpa using h.ne_nil), if_neg (by simpa using hnul)]
    exact checkParts_of_isIdentifier h

/-- A turn leaves a part and a dot behind. -/
theorem GoesOn.length_le (h : GoesOn cs rest) : rest.length + 2 ≤ cs.length := by
  have hlt := length_lt_of_skipPart h.skips
  rwa [List.length_cons] at hlt

/-- **How many turns the test can take.** -/
theorem length_turns_le {turns : List (List Char)} (h : (cs :: turns).IsChain GoesOn) :
    2 * turns.length ≤ cs.length := by
  induction turns generalizing cs with
  | nil => exact Nat.zero_le _
  | cons rest turns ih =>
      obtain ⟨hturn, hmore⟩ := List.isChain_cons_cons.1 h
      have hlength := hturn.length_le
      have hturns := ih hmore
      rw [List.length_cons]
      omega

/-! ### What is accepted and what is refused -/

/-- **The test accepts exactly names joined by dots** that hold no NUL.  What is refused is the
cause of a validation error where it is a column to order by, and the test takes at most half as
many turns as the text has characters. -/
theorem testIdentifier_accepts_names (text : String) :
    (testIdentifier text = .ok () ↔ '\x00' ∉ text.toList ∧
      ∃ names, names ≠ [] ∧ (∀ name ∈ names, Name.Proper name) ∧
        text.toList = Name.joined names) ∧
    (testIdentifier text = .ok () ∨ ∃ fault, testIdentifier text = .error fault ∧
      ∀ desc items, checkOrders (⟨text, desc⟩ :: items) = .error (.validation fault.message)) ∧
    ∀ turns, (text.toList :: turns).IsChain GoesOn → 2 * turns.length ≤ text.toList.length := by
  refine ⟨?_, ?_, fun turns h => length_turns_le h⟩
  · rw [testIdentifier_eq_ok_iff, isIdentifier_iff]
  · cases htest : testIdentifier text with
    | ok => exact .inl rfl
    | error fault =>
        refine .inr ⟨fault, rfl, fun desc items => ?_⟩
        rw [checkOrders, htest]

/-- Three names, one of them with a double quote and a dot in it, are tested in three turns; without
one of the two double quotes, a part ends where neither a dot nor the end of the text follows. -/
theorem testIdentifier_accepts_dotted :
    testIdentifier "t.\"a\"\".b\".id$1" = .ok () ∧
      testIdentifier "t.\"a\".b\".id$1" = .error (.invalidCharacter '"') ∧
      ["t.\"a\"\".b\".id$1".toList, "\"a\"\".b\".id$1".toList, "id$1".toList].IsChain GoesOn ∧
      2 * 2 ≤ "t.\"a\"\".b\".id$1".toList.length := by
  have hturns : ["t.\"a\"\".b\".id$1".toList, "\"a\"\".b\".id$1".toList,
      "id$1".toList].IsChain GoesOn :=
    .cons_cons ⟨by decide, by decide⟩ (.cons_cons ⟨by decide, by decide⟩ (.singleton _))
  obtain ⟨haccepts, -, hbound⟩ := testIdentifier_accepts_names "t.\"a\"\".b\".id$1"
  refine ⟨haccepts.2 ⟨by decide, [.word 't' [], .quoted "a\".b".toList, .word 'i' "d$1".toList],
    by decide, by decide, by decide⟩, by decide +kernel, hturns, hbound _ hturns⟩

end SqlAccess.Sql
