/-
**Long statements in the log.**

A text may be cut where a character begins and at its end, and at no byte in between.  The search
for such a place goes backwards from the limit, and stops at the last one up to there; what stands
before it is the longest part of the text, in whole characters, that the limit leaves room for.

A statement that fits is logged as it is.  So is one of which three dots alone are cut off, since
three dots take their place.

Main definitions:

* `SqlAccess.Text.Begins` — a text begins with another;
* `SqlAccess.Text.IsLongestWithin` — the longest part of a text that fits into so many bytes.

Main results:

* `SqlAccess.Text.isValid_iff_exists_begins` — where a text may be cut;
* `SqlAccess.Text.isGreatest_boundary` — the search stops at the last place up to the limit;
* `SqlAccess.Text.isLongestWithin_truncate` — what is left is the longest part that fits;
* `SqlAccess.SqlLog.sqlText_eq_self_iff` — which statements are logged as they are;
* `SqlAccess.SqlLog.cuts_tightly` — **statements are cut as late as the limit allows**;
* `SqlAccess.SqlLog.logged_whole_beyond_limit` — a statement that is logged as it is, and too long.
-/

import Mathlib.Order.Bounds.Defs
import SqlAccess.Pipeline.SqlLog

set_option autoImplicit false

namespace SqlAccess

namespace Text

variable {text part other : String} {limit byte : Nat}

/-! ### Beginnings of a text -/

/-- A text begins with another. -/
def Begins (part text : String) : Prop := part.toList <+: text.toList

theorem begins_iff_exists_append : Begins part text ↔ ∃ rest, text = part ++ rest := by
  constructor
  · rintro ⟨rest, h⟩
    exact ⟨String.ofList rest, String.toList_inj.1 (by simp [← h])⟩
  · rintro ⟨rest, rfl⟩
    exact ⟨rest.toList, String.toList_append.symm⟩

namespace Begins

theorem refl (text : String) : Begins text text := List.prefix_refl _

theorem utf8ByteSize_le (h : Begins part text) : part.utf8ByteSize ≤ text.utf8ByteSize := by
  obtain ⟨rest, rfl⟩ := begins_iff_exists_append.1 h
  rw [String.utf8ByteSize_append]
  exact Nat.le_add_right _ _

/-- Every character takes up a byte. -/
theorem eq_of_utf8ByteSize_le (h : Begins part text)
    (hsize : text.utf8ByteSize ≤ part.utf8ByteSize) : part = text := by
  obtain ⟨rest, rfl⟩ := begins_iff_exists_append.1 h
  rw [String.utf8ByteSize_append] at hsize
  have hrest : rest = "" := String.utf8ByteSize_eq_zero_iff.1 (by omega)
  rw [hrest, String.append_empty]

/-- Of two beginnings of a text the one with fewer bytes begins the other. -/
theorem of_utf8ByteSize_le (h : Begins part text) (h' : Begins other text)
    (hsize : other.utf8ByteSize ≤ part.utf8ByteSize) : Begins other part := by
  rcases List.prefix_or_prefix_of_prefix h' h with hbegins | hbegins
  · exact hbegins
  · rw [eq_of_utf8ByteSize_le hbegins hsize]
    exact refl other

end Begins

/-! ### The place of the cut -/

/-- **Where a text may be cut**: behind each text that it begins with. -/
theorem isValid_iff_exists_begins :
    (String.Pos.Raw.mk byte).IsValid text ↔
      ∃ part, Begins part text ∧ part.utf8ByteSize = byte := by
  rw [String.Pos.Raw.isValid_iff_exists_append]
  constructor
  · rintro ⟨part, rest, htext, hbyte⟩
    exact ⟨part, begins_iff_exists_append.2 ⟨rest, htext⟩,
      (congrArg String.Pos.Raw.byteIdx hbyte).symm⟩
  · rintro ⟨part, hbegins, rfl⟩
    obtain ⟨rest, htext⟩ := begins_iff_exists_append.1 hbegins
    exact ⟨part, rest, htext, rfl⟩

theorem boundary_le (text : String) (limit : Nat) : boundary text limit ≤ limit := by
  induction limit with
  | zero => exact Nat.le_refl 0
  | succ limit ih =>
      rw [boundary]
      split
      · exact Nat.le_refl _
      · exact Nat.le_succ_of_le ih

/-- The search passes no place for a cut. -/
theorem le_boundary (hvalid : (String.Pos.Raw.mk byte).IsValid text) (hbyte : byte ≤ limit) :
    byte ≤ boundary text limit := by
  induction limit with
  | zero => exact hbyte
  | succ limit ih =>
      rw [boundary]
      split
      next => exact hbyte
      next hnot =>
        have hne : byte ≠ limit + 1 := by
          rintro rfl
          exact hnot (String.Pos.Raw.isValid_eq_true_iff.2 hvalid)
        exact ih (by omega)

/-- The last place in a text that fits is its end. -/
theorem boundary_of_le (h : text.utf8ByteSize ≤ limit) :
    boundary text limit = text.utf8ByteSize :=
  Nat.le_antisymm (isValid_boundary text limit).le_utf8ByteSize
    (le_boundary String.Pos.Raw.isValid_rawEndPos h)

/-- **The search stops at the last place for a cut** up to the limit. -/
theorem isGreatest_boundary (text : String) (limit : Nat) :
    IsGreatest {byte | (String.Pos.Raw.mk byte).IsValid text ∧ byte ≤ limit}
      (boundary text limit) :=
  ⟨⟨isValid_boundary text limit, boundary_le text limit⟩,
    fun _ h => le_boundary h.1 h.2⟩

/-! ### What is left -/

/-- The longest part of a text that fits into so many bytes: the text begins with it, and it begins
with every other such part. -/
structure IsLongestWithin (limit : Nat) (text part : String) : Prop where
  begins : Begins part text
  fits : part.utf8ByteSize ≤ limit
  longest : ∀ other, Begins other text → other.utf8ByteSize ≤ limit → Begins other part

theorem truncate_of_le (h : text.utf8ByteSize ≤ limit) : truncate limit text = text := if_pos h

/-- What is left of a longer text is cut off at the place that the search has found. -/
theorem exists_append_of_lt (h : limit < text.utf8ByteSize) :
    (∃ rest, text = truncate limit text ++ rest) ∧
      (truncate limit text).utf8ByteSize = boundary text limit := by
  have hsplits := (text.pos ⟨boundary text limit⟩ (isValid_boundary text limit)).splits
  rw [truncate, if_neg (Nat.not_le.2 h)]
  exact ⟨⟨_, hsplits.eq_append⟩, (congrArg String.Pos.Raw.byteIdx hsplits.offset_eq_rawEndPos).symm⟩

theorem begins_truncate (limit : Nat) (text : String) : Begins (truncate limit text) text := by
  rcases Nat.lt_or_ge limit text.utf8ByteSize with h | h
  · exact begins_iff_exists_append.2 (exists_append_of_lt h).1
  · rw [truncate_of_le h]
    exact .refl text

theorem utf8ByteSize_truncate (limit : Nat) (text : String) :
    (truncate limit text).utf8ByteSize = boundary text limit := by
  rcases Nat.lt_or_ge limit text.utf8ByteSize with h | h
  · exact (exists_append_of_lt h).2
  · rw [truncate_of_le h, boundary_of_le h]

/-- **What is left is the longest part that fits.** -/
theorem isLongestWithin_truncate (limit : Nat) (text : String) :
    IsLongestWithin limit text (truncate limit text) where
  begins := begins_truncate limit text
  fits := by
    rw [utf8ByteSize_truncate]
    exact boundary_le text limit
  longest other hother hfits := by
    refine (begins_truncate limit text).of_utf8ByteSize_le hother ?_
    rw [utf8ByteSize_truncate]
    exact le_boundary (isValid_iff_exists_begins.2 ⟨other, hother, rfl⟩) hfits

/-- A part that leaves no room is the longest one. -/
theorem truncate_eq_of_begins (h : Begins part text) (hsize : part.utf8ByteSize = limit) :
    truncate limit text = part := by
  have htruncate := isLongestWithin_truncate limit text
  have hbegins : Begins part (truncate limit text) := htruncate.longest part h (Nat.le_of_eq hsize)
  exact (hbegins.eq_of_utf8ByteSize_le (hsize ▸ htruncate.fits)).symm

end Text

/-! ### Statements in the log -/

namespace SqlLog

variable {level : LogLevel} {limit : Nat} {sql : String}

theorem sqlText_eq (level : LogLevel) (limit : Nat) (sql : String) :
    (SqlLog.mk level (some limit)).sqlText sql =
      if sql.utf8ByteSize ≤ limit then sql else Text.truncate limit sql ++ "..." := by
  by_cases h : sql.utf8ByteSize ≤ limit
  · rw [if_pos h]
    exact if_neg (Nat.not_lt.2 h)
  · rw [if_neg h]
    exact if_pos (Nat.not_le.1 h)

/-- **Which statements are logged as they are**: those that fit, and those of which three dots alone
are cut off. -/
theorem sqlText_eq_self_iff :
    (SqlLog.mk level (some limit)).sqlText sql = sql ↔
      sql.utf8ByteSize ≤ limit ∨ ∃ part, sql = part ++ "..." ∧ part.utf8ByteSize = limit := by
  rw [sqlText_eq]
  by_cases h : sql.utf8ByteSize ≤ limit
  · rw [if_pos h]
    exact iff_of_true rfl (.inl h)
  · rw [if_neg h, or_iff_right h]
    constructor
    · intro heq
      have htruncate := Text.isLongestWithin_truncate limit sql
      refine ⟨_, heq.symm, Nat.le_antisymm htruncate.fits (Nat.le_of_not_lt fun hroom => ?_)⟩
      -- there would be room for the first of the dots
      have hdot : Text.Begins (Text.truncate limit sql ++ ".") sql :=
        Text.begins_iff_exists_append.2 ⟨"..", by rw [String.append_assoc]; exact heq.symm⟩
      have hsize : (Text.truncate limit sql ++ ".").utf8ByteSize =
          (Text.truncate limit sql).utf8ByteSize + 1 := String.utf8ByteSize_append
      have hle := (htruncate.longest _ hdot (by omega)).utf8ByteSize_le
      omega
    · rintro ⟨part, hpart, hsize⟩
      rw [Text.truncate_eq_of_begins (Text.begins_iff_exists_append.2 ⟨_, hpart⟩) hsize]
      exact hpart.symm

/-- **Statements are cut as late as the limit allows**: the search stops at the last place up to the
limit at which the statement may be cut, and the part before it is the longest one that fits.  A
statement is logged as it is if it fits, and otherwise as that part with three dots behind it, which
is the statement again if and only if three dots are what is cut off. -/
theorem cuts_tightly (level : LogLevel) (limit : Nat) (sql : String) :
    IsGreatest {byte | (String.Pos.Raw.mk byte).IsValid sql ∧ byte ≤ limit}
        (Text.boundary sql limit) ∧
      Text.IsLongestWithin limit sql (Text.truncate limit sql) ∧
      (Text.truncate limit sql).utf8ByteSize = Text.boundary sql limit ∧
      (SqlLog.mk level (some limit)).sqlText sql =
        (if sql.utf8ByteSize ≤ limit then sql else Text.truncate limit sql ++ "...") ∧
      ((SqlLog.mk level (some limit)).sqlText sql = sql ↔
        sql.utf8ByteSize ≤ limit ∨ ∃ part, sql = part ++ "..." ∧ part.utf8ByteSize = limit) :=
  ⟨Text.isGreatest_boundary sql limit, Text.isLongestWithin_truncate limit sql,
    Text.utf8ByteSize_truncate limit sql, sqlText_eq level limit sql, sqlText_eq_self_iff⟩

/-- A statement may be too long and be logged as it is: here the dots are what is cut off. -/
theorem logged_whole_beyond_limit :
    ¬ ((SqlLog.mk .debug (some 3)).sqlText "abc..." = "abc..." ↔ "abc...".utf8ByteSize ≤ 3) := by
  decide

/-- Three letters of two bytes each: the third byte is the first one of the second letter. -/
example :
    Text.boundary "éçà" 3 = 2 ∧ (SqlLog.mk .debug (some 3)).sqlText "éçà" = "é..." ∧
      (SqlLog.mk .debug (some 6)).sqlText "éçà" = "éçà" := by
  decide

end SqlLog

end SqlAccess
