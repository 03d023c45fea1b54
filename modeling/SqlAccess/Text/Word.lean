/-
**ASCII words.**

Keywords and names are compared without regard to the case of the ASCII letters; all other
characters stand for themselves.

Main definitions:

* `SqlAccess.Text.sameIgnoringCase` — equality up to ASCII case;
* `SqlAccess.Text.isWordChar` — ASCII letters, digits and the underscore;
* `SqlAccess.Text.beginsWithKeyword` — a keyword followed by the end or by a non-word character;
* `SqlAccess.Text.digitsValue` — the number that decimal digits denote.
-/

set_option autoImplicit false

namespace SqlAccess.Text

/-! ### Case and word characters -/

/-- Equality of two texts up to the case of ASCII letters. -/
def sameIgnoringCase (a b : List Char) : Bool := a.map Char.toLower == b.map Char.toLower

/-- The characters of an ASCII word: letters, digits and the underscore. -/
def isWordChar (c : Char) : Bool := c.isAlphanum || c == '_'

/-- Whether the text starts with the keyword, in any case, and the word ends there. -/
def beginsWithKeyword (keyword text : List Char) : Bool :=
  sameIgnoringCase (text.take keyword.length) keyword &&
    !((text.drop keyword.length).head?.any isWordChar)

/-! ### Decimal digits -/

/-- A text of one or more ASCII digits. -/
def isDigits (cs : List Char) : Bool := !cs.isEmpty && cs.all Char.isDigit

/-- The number that a text of ASCII digits denotes. -/
def digitsValue (cs : List Char) : Nat :=
  cs.foldl (fun n c => 10 * n + (c.toNat - '0'.toNat)) 0

/-- The digits of a number, in base ten. -/
def digits (n : Nat) : List Char := Nat.toDigits 10 n

/-- A number in base ten, with zeros in front up to the given width. -/
def padded (width n : Nat) : List Char :=
  List.replicate (width - (digits n).length) '0' ++ digits n

end SqlAccess.Text
