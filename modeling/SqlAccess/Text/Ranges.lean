/-
**Tables of code points.**

A property of characters that no formula gives is stored as a list of inclusive ranges.

Main definitions:

* `SqlAccess.Text.CodeRange` — an inclusive range of code points;
* `SqlAccess.Text.inRanges` — whether a character lies in one of several ranges.
-/

set_option autoImplicit false

namespace SqlAccess.Text

/-- The first and the last code point of a range, both included. -/
abbrev CodeRange := Nat × Nat

/-- Whether the character lies in one of the ranges. -/
def inRanges (ranges : List CodeRange) (c : Char) : Bool :=
  ranges.any fun r => r.1 ≤ c.toNat && c.toNat ≤ r.2

end SqlAccess.Text
