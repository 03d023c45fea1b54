/-
**Universally unique identifiers.**

Main definitions:

* `SqlAccess.Uuid` — one hundred and twenty-eight bits;
* `SqlAccess.Uuid.render` — its text in lower case with hyphens;
* `SqlAccess.Uuid.ofText?` — the identifier that a text denotes: hexadecimal digits alone, with
  hyphens, with hyphens in braces, or with hyphens after `urn:uuid:`.
-/

import SqlAccess.Text.Word

set_option autoImplicit false

namespace SqlAccess

/-- One hundred and twenty-eight bits. -/
structure Uuid where
  bits : BitVec 128
  deriving DecidableEq, Repr, Inhabited

namespace Uuid

/-- The thirty-two hexadecimal digits of an identifier. -/
def hexDigits (u : Uuid) : List Char :=
  let ds := Nat.toDigits 16 u.bits.toNat
  List.replicate (32 - ds.length) '0' ++ ds

/-- The lengths of the groups of digits. -/
def groups : List Nat := [8, 4, 4, 4, 12]

/-- Digits in groups with hyphens between. -/
def hyphenated : List Nat → List Char → List Char
  | [], _ => []
  | [n], ds => ds.take n
  | n :: ns, ds => ds.take n ++ '-' :: hyphenated ns (ds.drop n)

/-- Lower-case digits in groups with hyphens between. -/
def render (u : Uuid) : String := String.ofList (hyphenated groups u.hexDigits)

/-- The value of a hexadecimal digit of either case. -/
def hexValue? (c : Char) : Option Nat :=
  if c.isDigit then some (c.toNat - '0'.toNat)
  else if 'a' ≤ c ∧ c ≤ 'f' then some (c.toNat - 'a'.toNat + 10)
  else if 'A' ≤ c ∧ c ≤ 'F' then some (c.toNat - 'A'.toNat + 10)
  else none

/-- The identifier of thirty-two hexadecimal digits. -/
def ofHexDigits? (ds : List Char) : Option Uuid :=
  if ds.length = 32 then
    (ds.mapM hexValue?).map fun values =>
      ⟨BitVec.ofNat 128 (values.foldl (fun n d => 16 * n + d) 0)⟩
  else none

/-- Digits in groups of the given lengths, with a hyphen after each group but the last. -/
def ungroup? : List Nat → List Char → Option (List Char)
  | [], cs => if cs.isEmpty then some [] else none
  | [n], cs => if cs.length = n then some cs else none
  | n :: ns, cs =>
    match cs.drop n with
    | '-' :: rest => (ungroup? ns rest).map (cs.take n ++ ·)
    | _ => none

/-- The identifier that a hyphenated text denotes. -/
def ofHyphenated? (cs : List Char) : Option Uuid := (ungroup? groups cs).bind ofHexDigits?

/-- What comes before an identifier in the form of a resource name, in any case. -/
def urnMark : List Char := "urn:uuid:".toList

/-- The identifier that a text in one of the accepted forms denotes. -/
def ofText? (text : String) : Option Uuid :=
  let cs := text.toList
  match ofHexDigits? cs, ofHyphenated? cs with
  | some u, _ => some u
  | none, some u => some u
  | none, none =>
    if Text.sameIgnoringCase (cs.take urnMark.length) urnMark then
      ofHyphenated? (cs.drop urnMark.length)
    else match cs with
      | '{' :: rest => if rest.getLast? = some '}' then ofHyphenated? rest.dropLast else none
      | _ => none

end Uuid

end SqlAccess
