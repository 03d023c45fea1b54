/-
**Blank characters and trimming.**

Blank is the white-space property of characters: the ASCII blanks, the next-line control, the
no-break space and the typographic spaces, but no zero-width character.  Trimming works on lists
of characters, where its laws are short.

Main definitions:

* `SqlAccess.Text.isBlank` — the property;
* `SqlAccess.Text.trimStart`, `SqlAccess.Text.trimEnd`, `SqlAccess.Text.trim` — blanks dropped at
  the start, at the end, at both ends;
* `SqlAccess.Text.allBlank` — nothing is left after trimming.
-/

set_option autoImplicit false

namespace SqlAccess.Text

/-! ### The property -/

/-- The white-space property of characters. -/
def isBlank (c : Char) : Bool :=
  let n := c.toNat
  (9 ≤ n && n ≤ 13) || n == 0x20 || n == 0x85 || n == 0xA0 || n == 0x1680 ||
    (0x2000 ≤ n && n ≤ 0x200A) || n == 0x2028 || n == 0x2029 || n == 0x202F || n == 0x205F ||
    n == 0x3000

/-- Nothing but blanks. -/
def allBlank (cs : List Char) : Bool := cs.all isBlank

/-! ### Trimming -/

/-- The characters without the longest run at the end that satisfies `p`. -/
def dropTrailing (p : Char → Bool) (cs : List Char) : List Char :=
  (cs.reverse.dropWhile p).reverse

/-- The characters without the blanks at the start. -/
def trimStart (cs : List Char) : List Char := cs.dropWhile isBlank

/-- The characters without the blanks at the end. -/
def trimEnd (cs : List Char) : List Char := dropTrailing isBlank cs

/-- The characters without the blanks at both ends. -/
def trim (cs : List Char) : List Char := trimEnd (trimStart cs)

@[simp] theorem trim_nil : trim [] = [] := rfl

/-- The text without the blanks at both ends. -/
def trimmed (s : String) : String := String.ofList (trim s.toList)

end SqlAccess.Text
