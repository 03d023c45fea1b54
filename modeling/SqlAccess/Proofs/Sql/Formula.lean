/-
**Search conditions in SQL.**

What stands in a `WHERE` clause is cut into tokens and then read by rank: parentheses first, then
`AND`, then `OR`.  Both connectives group to the right; as they are associative, a truth value does
not tell.  Markers are numbered from left to right.

Main definitions:

* `SqlAccess.Sql.Token`, `SqlAccess.Sql.lex` — the tokens of a text;
* `SqlAccess.Sql.Formula` — a Boolean formula over tests of columns, without parentheses;
* `SqlAccess.Sql.Derives` — the grammar;
* `SqlAccess.Sql.Denotes` — **the formula that a text denotes**;
* `SqlAccess.Sql.Lexes` — a piece of a text and the tokens that it gives wherever it stands.

Main results:

* `SqlAccess.Sql.Derives.unique` — tokens are derived in at most one way;
* `SqlAccess.Sql.Denotes.unique` — a text denotes at most one formula;
* `SqlAccess.Sql.Lexes.append` — pieces are cut into tokens one after the other.
-/

import SqlAccess.Condition.Operator
import SqlAccess.Sql.Identifier
import SqlAccess.Proofs.Text.Cut
import SqlAccess.Proofs.Text.Word

set_option autoImplicit false

namespace SqlAccess.Sql

/-! ### Tokens -/

/-- The words with a meaning of their own. -/
inductive Keyword where
  | and
  | or
  | isIn
  | like
  | is
  | not
  | null
  deriving DecidableEq, Repr

namespace Keyword

/-- All keywords. -/
def all : List Keyword := [and, or, isIn, like, is, not, null]

/-- A keyword in capitals. -/
def text : Keyword → String
  | and => "AND"
  | or => "OR"
  | isIn => "IN"
  | like => "LIKE"
  | is => "IS"
  | not => "NOT"
  | null => "NULL"

/-- The keyword that a word is, in any ASCII case. -/
def ofText? (word : List Char) : Option Keyword :=
  all.find? fun kw => Text.sameIgnoringCase kw.text.toList word

end Keyword

/-- What a search condition is made of. -/
inductive Token where
  | name (word : String)
  | keyword (kw : Keyword)
  | comparison (op : Condition.Operator)
  | marker (number : Nat)
  | opening
  | closing
  deriving DecidableEq, Repr

/-- A word is a keyword or a name. -/
def Token.ofWord (word : List Char) : Token :=
  match Keyword.ofText? word with
  | some kw => .keyword kw
  | none => .name (String.ofList word)

/-- The comparisons and their symbols. -/
def comparisons : List (String × Condition.Operator) :=
  [("=", .eq), ("!=", .ne), ("<>", .ne), ("<", .lt), (">", .gt), ("<=", .le), (">=", .ge)]

/-- The comparison that a symbol stands for. -/
def comparison? (symbol : List Char) : Option Condition.Operator :=
  (comparisons.find? fun entry => entry.1.toList == symbol).map Prod.snd

/-- The characters of the symbols. -/
def isSymbolChar (c : Char) : Bool := c == '=' || c == '!' || c == '<' || c == '>'

/-- The tokens of a text, when the next marker has the given number.  Words and symbols are as long
as they can be; a word begins with a letter or `_`. -/
def lex (marker : Nat) : List Char → Option (List Token)
  | [] => some []
  | c :: cs =>
    if Text.isBlank c then lex marker cs
    else if c = '(' then (lex marker cs).map (.opening :: ·)
    else if c = ')' then (lex marker cs).map (.closing :: ·)
    else if c = '?' then (lex (marker + 1) cs).map (.marker marker :: ·)
    else if isStart c then
      (lex marker (cs.dropWhile Text.isWordChar)).map
        (Token.ofWord (c :: cs.takeWhile Text.isWordChar) :: ·)
    else if isSymbolChar c then do
      let op ← comparison? (c :: cs.takeWhile isSymbolChar)
      (lex marker (cs.dropWhile isSymbolChar)).map (.comparison op :: ·)
    else none
  termination_by cs => cs.length
  decreasing_by
    all_goals
      simp only [List.length_cons]
      try have := (List.dropWhile_suffix (l := cs) Text.isWordChar).length_le
      try have := (List.dropWhile_suffix (l := cs) isSymbolChar).length_le
      omega

/-- A name that needs no quotes: letters, digits and `_`, no digit first, and no keyword. -/
structure IsPlainName (name : String) : Prop where
  start : ∃ c ∈ name.toList.head?, isStart c = true
  word : ∀ c ∈ name.toList, Text.isWordChar c = true
  not_keyword : Keyword.ofText? name.toList = none

/-! ### Formulas -/

/-- A test of a column, with the number of the marker that it compares the column with. -/
structure Test where
  column : String
  op : Condition.Operator
  marker : Option Nat
  deriving DecidableEq, Repr

/-- A Boolean formula over tests. -/
inductive Formula where
  | test (test : Test)
  | and (left right : Formula)
  | or (left right : Formula)
  deriving DecidableEq, Repr

namespace Formula

/-- The tests from left to right. -/
def tests : Formula → List Test
  | test t => [t]
  | and l r | or l r => l.tests ++ r.tests

/-- The truth value of a formula whose first test has the given number. -/
def truth (holds : Nat → Bool) (first : Nat) : Formula → Bool
  | test _ => holds first
  | and l r => l.truth holds first && r.truth holds (first + l.tests.length)
  | or l r => l.truth holds first || r.truth holds (first + l.tests.length)

end Formula

/-! ### The grammar -/

/-- The tokens of a test. -/
inductive DerivesTest : List Token → Test → Prop where
  | comparison (column : String) (op : Condition.Operator) (k : Nat) :
      DerivesTest [.name column, .comparison op, .marker k] ⟨column, op, some k⟩
  | isIn (column : String) (k : Nat) :
      DerivesTest [.name column, .keyword .isIn, .opening, .marker k, .closing]
        ⟨column, .isIn, some k⟩
  | like (column : String) (k : Nat) :
      DerivesTest [.name column, .keyword .like, .marker k] ⟨column, .like, some k⟩
  | isNull (column : String) :
      DerivesTest [.name column, .keyword .is, .keyword .null] ⟨column, .isNull, none⟩
  | isNotNull (column : String) :
      DerivesTest [.name column, .keyword .is, .keyword .not, .keyword .null]
        ⟨column, .isNotNull, none⟩

/-- What may stand at a place, from loosest to tightest. -/
inductive Rank where
  | disjunction
  | conjunction
  | factor
  deriving DecidableEq, Repr

/-- The tokens of a formula that may stand at a place of the given rank. -/
inductive Derives : Rank → List Token → Formula → Prop where
  | or {ts us : List Token} {f g : Formula} (hf : Derives .conjunction ts f)
      (hg : Derives .disjunction us g) :
      Derives .disjunction (ts ++ .keyword .or :: us) (.or f g)
  | conjunction {ts : List Token} {f : Formula} (hf : Derives .conjunction ts f) :
      Derives .disjunction ts f
  | and {ts us : List Token} {f g : Formula} (hf : Derives .factor ts f)
      (hg : Derives .conjunction us g) :
      Derives .conjunction (ts ++ .keyword .and :: us) (.and f g)
  | factor {ts : List Token} {f : Formula} (hf : Derives .factor ts f) :
      Derives .conjunction ts f
  | parentheses {ts : List Token} {f : Formula} (hf : Derives .disjunction ts f) :
      Derives .factor (.opening :: (ts ++ [.closing])) f
  | test {ts : List Token} {t : Test} (ht : DerivesTest ts t) : Derives .factor ts (.test t)

/-- A text denotes the formula that its tokens derive. -/
def Denotes (sql : String) (f : Formula) : Prop :=
  ∃ ts, lex 0 sql.toList = some ts ∧ Derives .disjunction ts f

/-! ### Uniqueness -/

/-- What follows does not go on with a formula of that rank. -/
def Stops : Rank → List Token → Prop
  | .disjunction, rest =>
    rest.head? ≠ some (.keyword .or) ∧ rest.head? ≠ some (.keyword .and)
  | .conjunction, rest => rest.head? ≠ some (.keyword .and)
  | .factor, _ => True

theorem Stops.conjunction {rest : List Token} (h : Stops .disjunction rest) :
    Stops .conjunction rest := h.2

theorem DerivesTest.unique {ts us rest rest' : List Token} {t t' : Test} (h : DerivesTest ts t)
    (h' : DerivesTest us t') (heq : ts ++ rest = us ++ rest') : ts = us ∧ t = t' := by
  cases h <;> cases h' <;> simp_all

/-- A test begins with a name. -/
theorem DerivesTest.ne_opening {ts us : List Token} {t : Test} (h : DerivesTest ts t)
    (rest : List Token) : ts ++ rest ≠ .opening :: us := by
  cases h <;> simp

/-- **No tokens are derived in two ways**, not even up to what follows them. -/
theorem Derives.unique {rank : Rank} {ts us rest rest' : List Token} {f g : Formula}
    (h : Derives rank ts f) (h' : Derives rank us g) (heq : ts ++ rest = us ++ rest')
    (hrest : Stops rank rest) (hrest' : Stops rank rest') : ts = us ∧ f = g := by
  -- a part of a tighter rank stops at the connective, so both sides are cut at the same place
  induction h generalizing us rest rest' g with
  | @or ts₁ ts₂ f₁ f₂ _ _ ih₁ ih₂ =>
      rw [List.append_assoc, List.cons_append] at heq
      cases h' with
      | @or us₁ us₂ g₁ g₂ h₁ h₂ =>
          rw [List.append_assoc, List.cons_append] at heq
          obtain ⟨rfl, rfl⟩ := ih₁ h₁ heq (by simp [Stops]) (by simp [Stops])
          obtain ⟨rfl, rfl⟩ :=
            ih₂ h₂ (List.cons.inj (List.append_cancel_left heq)).2 hrest hrest'
          exact ⟨rfl, rfl⟩
      | conjunction h₁ =>
          -- an `OR` follows on the left, where the right stops
          obtain ⟨rfl, rfl⟩ := ih₁ h₁ heq (by simp [Stops]) hrest'.conjunction
          rw [← List.append_cancel_left heq] at hrest'
          exact absurd rfl hrest'.1
  | @conjunction ts f _ ih =>
      cases h' with
      | @or us₁ us₂ g₁ g₂ h₁ h₂ =>
          rw [List.append_assoc, List.cons_append] at heq
          obtain ⟨rfl, rfl⟩ := ih h₁ heq hrest.conjunction (by simp [Stops])
          rw [List.append_cancel_left heq] at hrest
          exact absurd rfl hrest.1
      | conjunction h₁ => exact ih h₁ heq hrest.conjunction hrest'.conjunction
  | @and ts₁ ts₂ f₁ f₂ _ _ ih₁ ih₂ =>
      rw [List.append_assoc, List.cons_append] at heq
      cases h' with
      | @and us₁ us₂ g₁ g₂ h₁ h₂ =>
          rw [List.append_assoc, List.cons_append] at heq
          obtain ⟨rfl, rfl⟩ := ih₁ h₁ heq trivial trivial
          obtain ⟨rfl, rfl⟩ :=
            ih₂ h₂ (List.cons.inj (List.append_cancel_left heq)).2 hrest hrest'
          exact ⟨rfl, rfl⟩
      | factor h₁ =>
          -- an `AND` follows on the left, where the right stops
          obtain ⟨rfl, rfl⟩ := ih₁ h₁ heq trivial trivial
          rw [← List.append_cancel_left heq] at hrest'
          exact absurd rfl hrest'
  | @factor ts f _ ih =>
      cases h' with
      | @and us₁ us₂ g₁ g₂ h₁ h₂ =>
          rw [List.append_assoc, List.cons_append] at heq
          obtain ⟨rfl, rfl⟩ := ih h₁ heq trivial trivial
          rw [List.append_cancel_left heq] at hrest
          exact absurd rfl hrest
      | factor h₁ => exact ih h₁ heq trivial trivial
  | @parentheses ts f _ ih =>
      cases h' with
      | @parentheses us g h₁ =>
          simp only [List.cons_append, List.append_assoc, List.cons.injEq, true_and] at heq
          obtain ⟨rfl, rfl⟩ := ih h₁ heq (by simp [Stops]) (by simp [Stops])
          exact ⟨rfl, rfl⟩
      | test ht => exact absurd heq.symm (ht.ne_opening _)
  | test ht =>
      cases h' with
      | parentheses _ => exact absurd heq (ht.ne_opening _)
      | test ht' =>
          obtain ⟨rfl, rfl⟩ := ht.unique ht' heq
          exact ⟨rfl, rfl⟩

/-- A text denotes at most one formula. -/
theorem Denotes.unique {sql : String} {f g : Formula} (hf : Denotes sql f) (hg : Denotes sql g) :
    f = g := by
  obtain ⟨ts, hts, hf⟩ := hf
  obtain ⟨us, hus, hg⟩ := hg
  obtain rfl := Option.some.inj (hts.symm.trans hus)
  have heq : ts ++ [] = ts ++ [] := rfl
  exact (hf.unique hg heq (by simp [Stops]) (by simp [Stops])).2

/-! ### Cutting into tokens piece by piece -/

variable {a b : List Char} {ts us : List Token} {i j k : Nat}

/-- No word and no symbol goes on into the text. -/
def Ends (cs : List Char) : Prop :=
  ∀ c ∈ cs.head?, Text.isWordChar c = false ∧ isSymbolChar c = false

/-- A piece of text that gives the tokens wherever it ends, with the numbers of the next marker
before and after it. -/
def Lexes (i : Nat) (text : List Char) (ts : List Token) (j : Nat) : Prop :=
  ∀ rest, Ends rest → lex i (text ++ rest) = (lex j rest).map (ts ++ ·)

theorem ends_cons_iff {c : Char} {cs : List Char} :
    Ends (c :: cs) ↔ Text.isWordChar c = false ∧ isSymbolChar c = false := by
  simp [Ends]

theorem Ends.append (ha : Ends a) (hb : Ends b) : Ends (a ++ b) := by
  cases a with
  | nil => exact hb
  | cons c cs => exact ends_cons_iff.2 (ends_cons_iff.1 ha)

namespace Lexes

theorem append (ha : Lexes i a ts j) (hb : Lexes j b us k) (hends : Ends b) :
    Lexes i (a ++ b) (ts ++ us) k := by
  intro rest hrest
  rw [List.append_assoc, ha _ (hends.append hrest), hb rest hrest, Option.map_map]
  congr 1
  funext vs
  simp

/-- A whole text. -/
theorem lex_eq (h : Lexes i a ts j) : lex i a = some ts := by
  have hnil := h [] (by simp [Ends])
  rw [List.append_nil] at hnil
  rw [hnil, lex]
  simp

theorem blank_cons (h : Lexes i a ts j) : Lexes i (' ' :: a) ts j := by
  intro rest hrest
  rw [List.cons_append, lex, if_pos (by decide), h rest hrest]

theorem opening_cons (h : Lexes i a ts j) : Lexes i ('(' :: a) (.opening :: ts) j := by
  intro rest hrest
  rw [List.cons_append, lex, if_neg (by decide), if_pos rfl, h rest hrest, Option.map_map]
  rfl

theorem closing (i : Nat) : Lexes i [')'] [.closing] i := by
  intro rest _
  rw [List.singleton_append, lex, if_neg (by decide), if_neg (by decide), if_pos rfl]
  rfl

theorem marker (i : Nat) : Lexes i ['?'] [.marker i] (i + 1) := by
  intro rest _
  rw [List.singleton_append, lex, if_neg (by decide), if_neg (by decide), if_neg (by decide),
    if_pos rfl]
  rfl

/-- A word ends where no character of a word follows. -/
theorem word {c : Char} {cs : List Char} (hstart : isStart c = true)
    (hword : ∀ d ∈ c :: cs, Text.isWordChar d = true) (i : Nat) :
    Lexes i (c :: cs) [Token.ofWord (c :: cs)] i := by
  intro rest hrest
  have hc : Text.isWordChar c = true := hword c List.mem_cons_self
  have hother : ∀ d, Text.isWordChar d = false → c ≠ d := by
    rintro d hd rfl
    rw [hc] at hd
    cases hd
  have hcs : ∀ d ∈ cs, Text.isWordChar d = true := fun d hd =>
    hword d (List.mem_cons_of_mem c hd)
  have hhead : ∀ d ∈ rest.head?, Text.isWordChar d = false := fun d hd => (hrest d hd).1
  rw [List.cons_append, lex, if_neg (by simp [Text.isBlank_of_isWordChar hc]),
    if_neg (hother _ (by decide)), if_neg (hother _ (by decide)), if_neg (hother _ (by decide)),
    if_pos hstart, Text.takeWhile_append_of_head? hcs hhead,
    Text.dropWhile_append_of_head? hcs hhead]
  rfl

theorem name {word : String} (h : IsPlainName word) (i : Nat) :
    Lexes i word.toList [.name word] i := by
  obtain ⟨c, hc, hstart⟩ := h.start
  obtain ⟨cs, hcs⟩ := List.head?_eq_some_iff.1 hc
  have hlexes := Lexes.word hstart (hcs ▸ h.word) i
  rwa [← hcs, Token.ofWord, h.not_keyword, String.ofList_toList] at hlexes

theorem keyword (kw : Keyword) (i : Nat) : Lexes i kw.text.toList [.keyword kw] i := by
  cases kw <;> exact Lexes.word (by decide) (List.all_eq_true.1 (by decide)) i

/-- The symbol of a comparison ends where no character of a symbol follows. -/
theorem comparison {symbol : String} {op : Condition.Operator} (h : (symbol, op) ∈ comparisons)
    (i : Nat) : Lexes i symbol.toList [.comparison op] i := by
  have hall : ∀ entry ∈ comparisons, entry.1.toList ≠ [] ∧
      comparison? entry.1.toList = some entry.2 ∧
      entry.1.toList.all isSymbolChar = true := by decide
  obtain ⟨hne, hop, hchars⟩ := hall _ h
  have hsymbol := List.all_eq_true.1 hchars
  obtain ⟨c, cs, hcs⟩ := List.exists_cons_of_ne_nil hne
  intro rest hrest
  rw [hcs] at hop hsymbol ⊢
  have hc : isSymbolChar c = true := hsymbol c List.mem_cons_self
  have hmem : ∀ d ∈ cs, isSymbolChar d = true := fun d hd =>
    hsymbol d (List.mem_cons_of_mem c hd)
  have hhead : ∀ d ∈ rest.head?, isSymbolChar d = false := fun d hd => (hrest d hd).2
  obtain ⟨hblank, ho, hcl, hm, hstart⟩ : Text.isBlank c = false ∧ c ≠ '(' ∧ c ≠ ')' ∧ c ≠ '?' ∧
      isStart c = false := by
    simp only [isSymbolChar, Bool.or_eq_true, beq_iff_eq] at hc
    rcases hc with ((rfl | rfl) | rfl) | rfl <;> decide
  rw [List.cons_append, lex, if_neg (by simp [hblank]), if_neg ho, if_neg hcl, if_neg hm,
    if_neg (by simp [hstart]), if_pos hc, Text.takeWhile_append_of_head? hmem hhead,
    Text.dropWhile_append_of_head? hmem hhead, hop]
  rfl

/-- Two pieces with a connective between. -/
theorem connect (ha : Lexes i a ts j) (kw : Keyword) (hb : Lexes j b us k) :
    Lexes i (a ++ ' ' :: (kw.text.toList ++ ' ' :: b)) (ts ++ .keyword kw :: us) k := by
  have hright := (Lexes.keyword kw j).append hb.blank_cons (ends_cons_iff.2 (by decide))
  exact ha.append hright.blank_cons (ends_cons_iff.2 (by decide))

theorem parentheses (h : Lexes i a ts j) :
    Lexes i ('(' :: (a ++ [')'])) (.opening :: (ts ++ [.closing])) j :=
  (h.append (Lexes.closing j) (ends_cons_iff.2 (by decide))).opening_cons

end Lexes

end SqlAccess.Sql
