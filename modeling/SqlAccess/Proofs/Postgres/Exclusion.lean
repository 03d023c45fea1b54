/-
**Transactions apart.**

Of all transactions on one connection only the one that has begun may ask for anything, and it has
the connection.  What has been asked therefore falls into stretches: an accepted begin, statements
of that transaction alone, and the demand that ends it.  A stretch is complete unless the caller has
been given up, and it ends the transaction on the server if that demand is accepted.

Main definitions:

* `SqlAccess.Postgres.Session.Shift` — what a move can do;
* `SqlAccess.Postgres.Turn.Account` — what a transaction has asked so far;
* `SqlAccess.Postgres.Session.Orderly` — **the invariant**: who has the connection, and an account
  of every transaction.

Main results:

* `SqlAccess.Postgres.Session.move_shift` — every move is such a shift;
* `SqlAccess.Postgres.Session.Orderly.shift`, `SqlAccess.Postgres.Session.orderly_play` — the
  invariant holds whatever is played;
* `SqlAccess.Postgres.Session.first_ends_before_second` — **between two accepted begins the first
  transaction ends**, with nothing of another in between, unless its caller has been given up or
  the server refuses to end it;
* `SqlAccess.Postgres.Session.begins_after_refused_rollback`,
  `SqlAccess.Postgres.Session.begins_after_abandoned` — in either case the next one may begin inside
  it.
-/

import Mathlib.Logic.Basic
import SqlAccess.Postgres.Server
import SqlAccess.Postgres.Session

set_option autoImplicit false

namespace SqlAccess.Postgres

variable {α : Type} {n : Nat} {a first second : Asked} {asked before after : List Asked}

/-! ### What is asked -/

namespace Asked

/-- A begin that is accepted. -/
def Opens (a : Asked) : Prop := a.demand = .begin ∧ a.accepted = true

/-- A demand that is to end a transaction. -/
def Closes (a : Asked) : Prop := a.demand = .commit ∨ a.demand = .rollback

/-- A statement of a transaction. -/
def IsStatementOf (n : Nat) (a : Asked) : Prop := a.turn = n ∧ ∃ s, a.demand = .statement s

theorem IsStatementOf.not_begin (h : a.IsStatementOf n) : a.demand ≠ .begin := by
  obtain ⟨-, s, hs⟩ := h
  rw [hs]
  nofun

theorem Closes.not_begin (h : a.Closes) : a.demand ≠ .begin := by
  rcases h with h | h <;> rw [h] <;> nofun

end Asked

/-- A transaction has asked for none of these. -/
def Apart (n : Nat) (asked : List Asked) : Prop := ∀ a ∈ asked, a.turn ≠ n

theorem Apart.concat (h : Apart n asked) (ha : a.turn ≠ n) : Apart n (asked ++ [a]) := by
  simpa [Apart, or_imp, forall_and] using And.intro h ha

/-! ### The account of a transaction -/

namespace Turn

/-- It has begun and not ended. -/
def Begun : Turn α → Prop
  | running _ | closing _ => True
  | _ => False

theorem begun_running (block : Block α) : (running block).Begun := trivial

theorem begun_closing (outcome : Outcome α) : (closing outcome).Begun := trivial

/-- What a transaction has asked so far.  Its begin comes first, then its statements, one after the
other, then its end. -/
inductive Account (n : Nat) (asked : List Asked) : Turn α → Prop
  | waiting {block : Block α} (silent : Apart n asked) : Account n asked (.waiting block)
  | begun {turn : Turn α} {before own : List Asked} (hturn : turn.Begun)
      (hasked : asked = before ++ ⟨n, .begin, true⟩ :: own) (hbefore : Apart n before)
      (hown : ∀ a ∈ own, a.IsStatementOf n) : Account n asked turn
  | refused {outcome : Outcome α} {before after : List Asked}
      (hasked : asked = before ++ ⟨n, .begin, false⟩ :: after) (hbefore : Apart n before)
      (hafter : Apart n after) : Account n asked (.done outcome)
  | ended {outcome : Outcome α} {last : Asked} {before own after : List Asked}
      (hasked : asked = before ++ ⟨n, .begin, true⟩ :: (own ++ last :: after))
      (hbefore : Apart n before) (hown : ∀ a ∈ own, a.IsStatementOf n) (hturn : last.turn = n)
      (hlast : last.Closes) (hafter : Apart n after) : Account n asked (.done outcome)
  | abandoned (hasked : Apart n asked ∨ ∃ before own after,
      asked = before ++ ⟨n, .begin, true⟩ :: (own ++ after) ∧ Apart n before ∧
        (∀ a ∈ own, a.IsStatementOf n) ∧ Apart n after) : Account n asked .abandoned

variable {turn turn' : Turn α}

theorem Account.of_begun (h : Account n asked turn) (hturn : turn.Begun) :
    ∃ before own, asked = before ++ ⟨n, .begin, true⟩ :: own ∧ Apart n before ∧
      ∀ a ∈ own, a.IsStatementOf n := by
  cases h with
  | begun _ hasked hbefore hown => exact ⟨_, _, hasked, hbefore, hown⟩
  | _ => cases hturn

/-- What another transaction asks is none of its business, unless it has begun. -/
theorem Account.concat (h : Account n asked turn) (hturn : ¬ turn.Begun) (ha : a.turn ≠ n) :
    Account n (asked ++ [a]) turn := by
  cases h with
  | waiting silent => exact .waiting (silent.concat ha)
  | begun hbegun => exact absurd hbegun hturn
  | refused hasked hbefore hafter =>
      exact .refused (by rw [hasked, List.append_assoc, List.cons_append]) hbefore
        (hafter.concat ha)
  | ended hasked hbefore hown hn hlast hafter =>
      refine .ended ?_ hbefore hown hn hlast (hafter.concat ha)
      rw [hasked]
      simp only [List.append_assoc, List.cons_append]
  | abandoned hasked =>
      refine .abandoned (hasked.imp (fun h => h.concat ha) ?_)
      rintro ⟨before, own, after, rfl, hbefore, hown, hafter⟩
      refine ⟨before, own, after ++ [a], ?_, hbefore, hown, hafter.concat ha⟩
      simp only [List.append_assoc, List.cons_append]

/-- A transaction that is given up has asked what it had asked. -/
theorem Account.abandon (h : Account n asked turn) (hturn : turn.Begun ∨ ∃ b, turn = .waiting b) :
    Account n asked (.abandoned : Turn α) := by
  rcases hturn with hturn | ⟨b, rfl⟩
  · obtain ⟨before, own, rfl, hbefore, hown⟩ := h.of_begun hturn
    exact .abandoned (.inr ⟨before, own, [], by rw [List.append_nil], hbefore, hown, nofun⟩)
  · cases h with
    | waiting silent => exact .abandoned (.inl silent)
    | begun hbegun => cases hbegun

end Turn

namespace Session

variable {s s' : Session α}

/-! ### Moves -/

/-- What a move can do. -/
inductive Shift (s : Session α) : Session α → Prop
  | stay : Shift s s
  /-- The connection is free, and the begin is accepted. -/
  | opens {n : Nat} {block : Block α} {queue : List Nat}
      (hturn : s.turns[n]? = some (.waiting block)) (hfree : s.holder = none) :
      Shift s { s with
        turns := s.turns.set n (.running block), holder := some n, queue := queue
        asked := s.asked ++ [⟨n, .begin, true⟩] }
  | refused {n : Nat} {block : Block α} {queue : List Nat} {e : Error}
      (hturn : s.turns[n]? = some (.waiting block)) (hfree : s.holder = none) :
      Shift s { s with
        turns := s.turns.set n (.done (.error e)), queue := queue
        asked := s.asked ++ [⟨n, .begin, false⟩] }
  | states {n : Nat} {block next : Block α} {st : Statement} {accepted : Bool}
      (hturn : s.turns[n]? = some (.running block)) :
      Shift s { s with
        turns := s.turns.set n (.running next)
        asked := s.asked ++ [⟨n, .statement st, accepted⟩] }
  /-- The block of a transaction ends. -/
  | leaves {n : Nat} {block : Block α} {outcome : Outcome α}
      (hturn : s.turns[n]? = some (.running block)) :
      Shift s { s with turns := s.turns.set n (.closing outcome) }
  /-- The server accepts or refuses the end of a transaction; the connection is free either way. -/
  | closes {n : Nat} {outcome result : Outcome α} {last : Asked}
      (hturn : s.turns[n]? = some (.closing outcome)) (hn : last.turn = n) (hlast : last.Closes) :
      Shift s { s with
        turns := s.turns.set n (.done result)
        holder := if s.holder = some n then none else s.holder
        asked := s.asked ++ [last] }
  | abandons {n : Nat} {turn : Turn α} {queue : List Nat} (hturn : s.turns[n]? = some turn)
      (hopen : turn.Begun ∨ ∃ block, turn = .waiting block) :
      Shift s { s with
        turns := s.turns.set n .abandoned, queue := queue
        holder := if s.holder = some n then none else s.holder }

theorem begin_shift {block : Block α} (h : s.turns[n]? = some (.waiting block)) :
    Shift s (s.begin n block) := by
  unfold Session.begin
  split
  · rename_i hfree
    simp only [ask]
    split
    · rename_i heq
      obtain ⟨hanswer, rfl⟩ := Prod.mk.inj heq
      rw [hanswer]
      exact .opens h hfree.1
    · rename_i heq
      obtain ⟨hanswer, rfl⟩ := Prod.mk.inj heq
      rw [hanswer]
      exact .refused h hfree.1
  · exact .stay

theorem runStep_shift {block : Block α} (h : s.turns[n]? = some (.running block)) :
    Shift s (s.runStep n block) := by
  cases block with
  | finish value => exact .leaves h
  | fail e => exact .leaves h
  | panic payload => exact .leaves h
  | execute st next => exact .states h
  | query st next => exact .states h

theorem close_shift {outcome : Outcome α} (h : s.turns[n]? = some (.closing outcome)) :
    Shift s (s.close n outcome) := by
  cases outcome with
  | ok value =>
      simp only [close, ask]
      split
      · rename_i heq
        obtain ⟨-, rfl⟩ := Prod.mk.inj heq
        exact .closes h rfl (.inl rfl)
      · rename_i heq
        obtain ⟨-, rfl⟩ := Prod.mk.inj heq
        exact .closes h rfl (.inl rfl)
  | error e =>
      simp only [close, ask]
      split
      · rename_i heq
        obtain ⟨-, rfl⟩ := Prod.mk.inj heq
        exact .closes h rfl (.inr rfl)
      · rename_i heq
        obtain ⟨-, rfl⟩ := Prod.mk.inj heq
        exact .closes h rfl (.inr rfl)

theorem abandon_shift (s : Session α) (n : Nat) : Shift s (s.abandon n) := by
  unfold abandon
  split
  · exact .abandons ‹_› (.inr ⟨_, rfl⟩)
  · exact .abandons ‹_› (.inl (Turn.begun_running _))
  · exact .abandons ‹_› (.inl (Turn.begun_closing _))
  · exact .stay

/-- **Every move is such a shift.** -/
theorem move_shift (s : Session α) (m : Move) : Shift s (s.move m) := by
  cases m with
  | abandon n => exact abandon_shift s n
  | advance n =>
      simp only [move, advance]
      split
      · exact begin_shift ‹_›
      · exact runStep_shift ‹_›
      · exact close_shift ‹_›
      · exact .stay

/-! ### The invariant -/

/-- The transaction that has begun has the connection, and there is an account of each. -/
structure Orderly (s : Session α) : Prop where
  holds_iff : ∀ n, s.holder = some n ↔ ∃ turn, s.turns[n]? = some turn ∧ turn.Begun
  account : ∀ (n : Nat) (turn : Turn α), s.turns[n]? = some turn → turn.Account n s.asked
  known : ∀ a ∈ s.asked, a.turn < s.turns.length

variable {turn turn' : Turn α} {holder : Option Nat} {queue : List Nat}

theorem Orderly.holds (h : Orderly s) (hturn : s.turns[n]? = some turn) (hbegun : turn.Begun) :
    s.holder = some n :=
  (h.holds_iff n).2 ⟨turn, hturn, hbegun⟩

/-- While one transaction gets on, the others stay as they are: if something is asked, none of them
has the connection. -/
theorem Orderly.set (h : Orderly s) (hturn : s.turns[n]? = some turn)
    (hasked : asked = s.asked ∨
      (∃ a, asked = s.asked ++ [a] ∧ a.turn = n) ∧ ∀ k, s.holder = some k → k = n)
    (haccount : turn'.Account n asked) (hself : holder = some n ↔ turn'.Begun)
    (hothers : ∀ k, k ≠ n → (holder = some k ↔ s.holder = some k)) :
    Orderly { s with turns := s.turns.set n turn', holder, queue, asked } where
  holds_iff k := by
    rcases eq_or_ne k n with rfl | hk
    · have hlt := (List.getElem?_eq_some_iff.1 hturn).1
      simp [List.getElem?_set_self hlt, hself]
    · simp [List.getElem?_set_ne hk.symm, hothers k hk, h.holds_iff]
  account k turn hk := by
    rcases eq_or_ne k n with rfl | hne
    · obtain rfl : turn' = turn := by
        simpa [List.getElem?_set_self (List.getElem?_eq_some_iff.1 hturn).1] using hk
      exact haccount
    · have hget : s.turns[k]? = some turn := by rwa [List.getElem?_set_ne hne.symm] at hk
      rcases hasked with rfl | ⟨⟨a, rfl, ha⟩, hholder⟩
      · exact h.account k turn hget
      · refine (h.account k turn hget).concat (fun hbegun => hne ?_) (ha ▸ hne.symm)
        exact hholder k (h.holds hget hbegun)
  known a ha := by
    rw [List.length_set]
    rcases hasked with rfl | ⟨⟨new, rfl, hnew⟩, -⟩
    · exact h.known a ha
    · rcases List.mem_append.1 ha with ha | ha
      · exact h.known a ha
      · rw [List.mem_singleton.1 ha, hnew]
        exact (List.getElem?_eq_some_iff.1 hturn).1

/-- **A shift keeps the invariant.** -/
theorem Orderly.shift (h : Orderly s) (hs : Shift s s') : Orderly s' := by
  cases hs with
  | stay => exact h
  | opens hturn hfree =>
      refine h.set hturn (.inr ⟨⟨_, rfl, rfl⟩, by simp [hfree]⟩) ?_ (iff_of_true rfl trivial) ?_
      · cases h.account _ _ hturn with
        | waiting silent => exact .begun (Turn.begun_running _) rfl silent nofun
        | begun hbegun => cases hbegun
      · intro k hk
        simp [hfree, hk.symm]
  | refused hturn hfree =>
      refine h.set hturn (.inr ⟨⟨_, rfl, rfl⟩, by simp [hfree]⟩) ?_ ?_ fun _ _ => Iff.rfl
      · cases h.account _ _ hturn with
        | waiting silent => exact .refused rfl silent nofun
        | begun hbegun => cases hbegun
      · exact iff_of_false (by simp [hfree]) id
  | @states n block next st accepted hturn =>
      have hholder := h.holds hturn (Turn.begun_running _)
      refine h.set hturn (.inr ⟨⟨_, rfl, rfl⟩, by simp [hholder]⟩) ?_ (iff_of_true hholder trivial)
        fun _ _ => Iff.rfl
      obtain ⟨before, own, hasked, hbefore, hown⟩ :=
        (h.account _ _ hturn).of_begun (Turn.begun_running _)
      have hconcat : s.asked ++ [⟨n, .statement st, accepted⟩] =
          before ++ ⟨n, .begin, true⟩ :: (own ++ [⟨n, .statement st, accepted⟩]) := by
        rw [hasked, List.append_assoc, List.cons_append]
      refine .begun (Turn.begun_running _) hconcat hbefore ?_
      simpa [or_imp, forall_and] using And.intro hown ⟨rfl, _, rfl⟩
  | leaves hturn =>
      have hholder := h.holds hturn (Turn.begun_running _)
      refine h.set hturn (.inl rfl) ?_ (iff_of_true hholder trivial) fun _ _ => Iff.rfl
      obtain ⟨before, own, hasked, hbefore, hown⟩ :=
        (h.account _ _ hturn).of_begun (Turn.begun_running _)
      exact .begun (Turn.begun_closing _) hasked hbefore hown
  | @closes n outcome result last hturn hn hlast =>
      have hholder := h.holds hturn (Turn.begun_closing _)
      refine h.set hturn (.inr ⟨⟨_, rfl, hn⟩, by simp [hholder]⟩) ?_ ?_ ?_
      · obtain ⟨before, own, hasked, hbefore, hown⟩ :=
          (h.account _ _ hturn).of_begun (Turn.begun_closing _)
        have hconcat : s.asked ++ [last] =
            before ++ ⟨n, .begin, true⟩ :: (own ++ last :: []) := by
          rw [hasked, List.append_assoc, List.cons_append]
        exact .ended hconcat hbefore hown hn hlast nofun
      · exact iff_of_false (by simp [hholder]) id
      · intro k hk
        simp [hholder, hk.symm]
  | @abandons n turn queue hturn hopen =>
      refine h.set hturn (.inl rfl) ((h.account _ _ hturn).abandon hopen) ?_ ?_
      · refine iff_of_false ?_ id
        split
        · nofun
        · assumption
      · intro k hk
        split
        · rename_i hholder
          simp [hholder, hk.symm]
        · exact Iff.rfl

theorem orderly_ofBlocks (manager : TransactionManager) (blocks : List (Block α)) :
    Orderly (ofBlocks manager blocks) where
  holds_iff n := by
    simp only [ofBlocks, reduceCtorEq, false_iff, not_exists, not_and, List.getElem?_map,
      Option.map_eq_some_iff]
    rintro _ ⟨block, -, rfl⟩
    exact id
  account n turn h := by
    simp only [ofBlocks, List.getElem?_map, Option.map_eq_some_iff] at h
    obtain ⟨block, -, rfl⟩ := h
    exact .waiting nofun
  known := nofun

/-- **Whatever is played, the invariant holds.** -/
theorem orderly_play (manager : TransactionManager) (blocks : List (Block α)) (moves : List Move) :
    Orderly ((ofBlocks manager blocks).play moves) := by
  suffices h : ∀ s : Session α, Orderly s → Orderly (s.play moves) from
    h _ (orderly_ofBlocks manager blocks)
  intro s hs
  induction moves generalizing s with
  | nil => exact hs
  | cons m moves ih => exact ih _ (hs.shift (move_shift s m))

/-! ### Two begins -/

/-- The only begin of a transaction is found at one place. -/
theorem eq_of_begin {rest rest' : List Asked} {b : Asked} (ha : a.turn = n)
    (hbegin : a.demand = .begin) (hbefore : Apart n before)
    (hrest : ∀ e ∈ rest, e.turn = n → e.demand ≠ .begin)
    (h : before ++ b :: rest = after ++ a :: rest') : before = after ∧ b = a ∧ rest = rest' := by
  rcases List.append_eq_append_iff.1 h with ⟨between, rfl, hsplit⟩ | ⟨between, rfl, hsplit⟩
  · cases between with
    | nil =>
        obtain ⟨rfl, rfl⟩ := List.cons.inj hsplit
        exact ⟨(List.append_nil _).symm, rfl, rfl⟩
    | cons e between =>
        obtain ⟨rfl, rfl⟩ := List.cons.inj hsplit
        exact absurd hbegin (hrest a (List.mem_append_right _ List.mem_cons_self) ha)
  · cases between with
    | nil =>
        obtain ⟨rfl, rfl⟩ := List.cons.inj hsplit
        exact ⟨List.append_nil _, rfl, rfl⟩
    | cons e between =>
        obtain ⟨rfl, rfl⟩ := List.cons.inj hsplit
        exact absurd ha (hbefore a (List.mem_append_right _ List.mem_cons_self))

/-- What comes after statements of one transaction and its end, if a begin is found there. -/
theorem exists_of_end {own others between : List Asked} {last : Asked}
    (hown : ∀ a ∈ own, a.IsStatementOf n) (hlast : last.Closes) (hsecond : second.Opens)
    (h : own ++ last :: others = between ++ second :: after) :
    ∃ rest, between = own ++ last :: rest ∧ others = rest ++ second :: after := by
  rcases List.append_eq_append_iff.1 h with ⟨rest, rfl, hsplit⟩ | ⟨rest, rfl, hsplit⟩
  · cases rest with
    | nil =>
        obtain ⟨rfl, rfl⟩ := List.cons.inj hsplit
        exact absurd hsecond.1 hlast.not_begin
    | cons e rest =>
        obtain ⟨rfl, rfl⟩ := List.cons.inj hsplit
        exact ⟨rest, rfl, rfl⟩
  · cases rest with
    | nil =>
        obtain ⟨rfl, rfl⟩ := List.cons.inj hsplit
        exact absurd hsecond.1 hlast.not_begin
    | cons e rest =>
        obtain ⟨rfl, rfl⟩ := List.cons.inj hsplit
        exact absurd hsecond.1 (hown _ (List.mem_append_right _ List.mem_cons_self)).not_begin

/-- **Between two accepted begins the first transaction ends.**  Whatever is played, if its caller
has not been given up and the server accepts what is to end it, then between them come its
statements and its accepted end, with nothing of another transaction in between; and nothing else
of it is found anywhere. -/
theorem first_ends_before_second {manager : TransactionManager} {blocks : List (Block α)}
    {moves : List Move} {between : List Asked}
    (hasked : ((ofBlocks manager blocks).play moves).asked =
      before ++ first :: (between ++ second :: after))
    (hfirst : first.Opens) (hsecond : second.Opens)
    (hkept : ((ofBlocks manager blocks).play moves).turns[first.turn]? ≠ some .abandoned)
    (hends : ∀ a ∈ ((ofBlocks manager blocks).play moves).asked,
      a.turn = first.turn → a.Closes → a.accepted = true) :
    ∃ own last others, between = own ++ last :: others ∧
      (∀ a ∈ own, a.IsStatementOf first.turn) ∧
      last.turn = first.turn ∧ last.Closes ∧ last.accepted = true ∧
      Apart first.turn before ∧ Apart first.turn (others ++ second :: after) := by
  have hs := orderly_play manager blocks moves
  generalize (ofBlocks manager blocks).play moves = s at hs hasked hkept hends
  have hmem : first ∈ s.asked := hasked ▸ List.mem_append_right _ List.mem_cons_self
  obtain ⟨turn, hturn⟩ : ∃ turn, s.turns[first.turn]? = some turn :=
    ⟨_, List.getElem?_eq_getElem (hs.known first hmem)⟩
  cases hs.account _ _ hturn with
  | waiting silent => exact absurd rfl (silent first hmem)
  | begun _ hasked' hbefore hown =>
      obtain ⟨-, -, rfl⟩ := eq_of_begin rfl hfirst.1 hbefore
        (fun e he _ => (hown e he).not_begin) (hasked'.symm.trans hasked)
      exact absurd hsecond.1
        (hown second (List.mem_append_right _ List.mem_cons_self)).not_begin
  | refused hasked' hbefore hafter =>
      obtain ⟨-, hrefused, -⟩ := eq_of_begin rfl hfirst.1 hbefore
        (fun e he hn => absurd hn (hafter e he)) (hasked'.symm.trans hasked)
      have haccepted := hfirst.2
      rw [← hrefused] at haccepted
      cases haccepted
  | @ended _ last before' own others hasked' hbefore hown hn hlast hothers =>
      obtain ⟨rfl, -, hrest⟩ := eq_of_begin rfl hfirst.1 hbefore
        (by
          intro e he hn
          rcases List.mem_append.1 he with he | he
          · exact (hown e he).not_begin
          · rcases List.mem_cons.1 he with rfl | he
            · exact hlast.not_begin
            · exact absurd hn (hothers e he))
        (hasked'.symm.trans hasked)
      obtain ⟨rest, rfl, rfl⟩ := exists_of_end hown hlast hsecond hrest
      refine ⟨own, last, rest, rfl, hown, hn, hlast, hends last ?_ hn hlast, hbefore, hothers⟩
      rw [hasked']
      simp
  | abandoned => exact absurd hturn hkept

/-! ### Transactions of one statement -/

/-- A transaction of one statement without values. -/
def single (ending : BlockEnd) (sql : String) : Block UInt64 :=
  .ofStatements ending 0 [⟨.execute, sql, []⟩]

/-- A server that refuses some demands, and two transactions on it. -/
def pair (failOn : Option String) (ending : BlockEnd) : Session UInt64 :=
  ofBlocks (Server.manager ⟨[], [], [], "", failOn⟩) [single ending "A", single .count "B"]

theorem first_ends_before_second_of_pair :
    ∃ own last others,
      [⟨0, .statement ⟨.execute, "A", []⟩, true⟩, ⟨0, .commit, true⟩] = own ++ last :: others ∧
        (∀ a ∈ own, a.IsStatementOf 0) ∧ last.turn = 0 ∧ last.Closes ∧ last.accepted = true ∧
        Apart 0 [] ∧ Apart 0 (others ++ [⟨1, .begin, true⟩]) := by
  -- the second waits until the first has ended
  have hasked : ((pair none .count).play
      [.advance 0, .advance 1, .advance 0, .advance 0, .advance 0, .advance 1]).asked =
      [] ++ ⟨0, .begin, true⟩ ::
        ([⟨0, .statement ⟨.execute, "A", []⟩, true⟩, ⟨0, .commit, true⟩] ++
          ⟨1, .begin, true⟩ :: []) := rfl
  refine first_ends_before_second hasked ⟨rfl, rfl⟩ ⟨rfl, rfl⟩ ?_ ?_
  · nofun
  · rintro a (ha : a ∈ ((pair none .count).play _).asked) hturn -
    rw [hasked] at ha
    revert a
    simp

/-- **A transaction whose rollback is refused is left open**: the next one begins inside it, and its
commit is for both. -/
theorem begins_after_refused_rollback :
    ((pair (some "ROLLBACK") (.fail (.other "e"))).play (inOrder [1, 1])).asked =
      [⟨0, .begin, true⟩, ⟨0, .statement ⟨.execute, "A", []⟩, true⟩, ⟨0, .rollback, false⟩,
        ⟨1, .begin, true⟩, ⟨1, .statement ⟨.execute, "B", []⟩, true⟩, ⟨1, .commit, true⟩] := rfl

/-- **A transaction whose caller is given up is left open**, too, on a server that refuses
nothing. -/
theorem begins_after_abandoned :
    ((pair none .count).play
      ([.advance 0, .advance 0, .abandon 0] ++ List.replicate 4 (.advance 1))).asked =
      [⟨0, .begin, true⟩, ⟨0, .statement ⟨.execute, "A", []⟩, true⟩, ⟨1, .begin, true⟩,
        ⟨1, .statement ⟨.execute, "B", []⟩, true⟩, ⟨1, .commit, true⟩] := rfl

end Session

end SqlAccess.Postgres
