/-
**Scalars without quotes.**

In a configuration text a scalar without quotes is a truth value, a number or a point in time.  Its
shape is tested where it stands; what a number comes to matters only where one is asked for.

Main definitions:

* `SqlAccess.Toml.Scalar` — the scalars;
* `SqlAccess.Toml.isMoment` — whether a text is a date, a time or both;
* `SqlAccess.Toml.isFloat` — whether a text is a number with a fraction or an exponent;
* `SqlAccess.Toml.Scalar.ofText?` — the scalar that a text denotes;
* `SqlAccess.Toml.scalarAt` — the characters of the scalar at the start of a text.
-/

import SqlAccess.Text.Word
import SqlAccess.Uuid

set_option autoImplicit false

namespace SqlAccess.Toml

/-! ### Points in time -/

/-- The number that exactly two digits denote, if it is within bounds, and the rest. -/
def pair? (least most : Nat) (cs : List Char) : Option (Nat × List Char) :=
  let (ds, rest) := cs.span Char.isDigit
  let n := Text.digitsValue ds
  if ds.length = 2 ∧ least ≤ n ∧ n ≤ most then some (n, rest) else none

/-- The rest after a character. -/
def afterChar? (c : Char) : List Char → Option (List Char)
  | d :: rest => if c = d then some rest else none
  | [] => none

/-- Whether a year of the Gregorian calendar has a leap day. -/
def isLeapYear (year : Nat) : Bool := year % 4 == 0 && (year % 100 != 0 || year % 400 == 0)

/-- The number of days in a month. -/
def daysInMonth (year month : Nat) : Nat :=
  if month = 2 then if isLeapYear year then 29 else 28
  else if [4, 6, 9, 11].contains month then 30 else 31

/-- The rest after a date of the calendar, whose year has four digits. -/
def afterDate? (cs : List Char) : Option (List Char) := do
  let (year, rest) := cs.span Char.isDigit
  if year.length ≠ 4 then none
  let (month, rest) ← pair? 1 12 (← afterChar? '-' rest)
  let days := daysInMonth (Text.digitsValue year) month
  return (← pair? 1 days (← afterChar? '-' rest)).2

/-- The rest after a fraction of a second, if there is one. -/
def afterSecondFraction? : List Char → Option (List Char)
  | '.' :: rest =>
    let (ds, rest) := rest.span Char.isDigit
    if ds.isEmpty then none else some rest
  | cs => some cs

/-- The rest after the seconds of a time, if there are any. -/
def afterSeconds? : List Char → Option (List Char)
  | ':' :: rest => do afterSecondFraction? (← pair? 0 60 rest).2
  | cs => some cs

/-- The rest after hours and minutes. -/
def afterMinutes? (cs : List Char) : Option (List Char) := do
  let (_, rest) ← pair? 0 23 cs
  return (← pair? 0 59 (← afterChar? ':' rest)).2

/-- The rest after a time of day; a leap second is allowed for, and seconds may be left out. -/
def afterTime? (cs : List Char) : Option (List Char) := do afterSeconds? (← afterMinutes? cs)

/-- The rest after an offset from universal time, if there is one. -/
def afterOffset? : List Char → Option (List Char)
  | [] => some []
  | c :: rest =>
    if c = 'Z' ∨ c = 'z' then some rest
    else if c = '+' ∨ c = '-' then afterMinutes? rest
    else some (c :: rest)

/-- Whether a text is a date, a time of day, or both with at most an offset behind. -/
def isMoment (cs : List Char) : Bool :=
  afterTime? cs == some [] ||
    match afterDate? cs with
    | some [] => true
    | some (c :: rest) =>
      ['T', 't', ' '].contains c && (do afterOffset? (← afterTime? rest)) == some []
    | none => false

/-! ### Numbers -/

/-- Whether a character is a hexadecimal digit. -/
def isHexDigit (c : Char) : Bool := (Uuid.hexValue? c).isSome

/-- Whether every underscore stands behind a digit and before one, when `before` says whether a
digit comes before the text. -/
def separatedAfter (digit : Char → Bool) : Bool → List Char → Bool
  | _, [] => true
  | before, c :: rest =>
    if c = '_' then before && rest.head?.any digit && separatedAfter digit false rest
    else separatedAfter digit (digit c) rest

/-- Whether every underscore stands between two digits. -/
def separated (digit : Char → Bool) (cs : List Char) : Bool := separatedAfter digit false cs

/-- Digits and underscores with a digit among them, and the rest. -/
def run? (cs : List Char) : Option (List Char × List Char) :=
  let (run, rest) := cs.span fun c => c.isDigit || c == '_'
  if run.any Char.isDigit then some (run, rest) else none

/-- The rest after a point with its digits, if there is one. -/
def afterPoint? : List Char → Option (List Char)
  | '.' :: rest => (run? rest).map Prod.snd
  | cs => some cs

/-- The text without one sign at its start. -/
def skipSign : List Char → List Char
  | '+' :: rest => rest
  | '-' :: rest => rest
  | cs => cs

/-- The rest after an exponent, if there is one. -/
def afterExponent? : List Char → Option (List Char)
  | [] => some []
  | c :: rest =>
    if c = 'e' ∨ c = 'E' then (run? (skipSign rest)).map Prod.snd else some (c :: rest)

/-- Whether digits start with a zero that is not the only one of them. -/
def leadsWithZero (cs : List Char) : Bool :=
  cs.head? == some '0' && 1 < (cs.filter (· != '_')).length

/-- Whether a text without sign is digits with a point and digits, an exponent, or both behind. -/
def isFloat (cs : List Char) : Bool :=
  match run? cs with
  | some (whole, rest) =>
    !leadsWithZero whole && (do afterExponent? (← afterPoint? rest)) == some []
  | none => false

/-- The number that digits of a base denote, underscores aside, if all of them are such digits. -/
def valueIn? (base : Nat) (cs : List Char) : Option Nat := do
  let ds := cs.filter (· != '_')
  if ds.isEmpty then none
  let values ← ds.mapM Uuid.hexValue?
  if values.all (· < base) then some (values.foldl (fun n d => base * n + d) 0) else none

/-! ### Scalars -/

/-- A scalar without quotes. -/
inductive Scalar where
  | bool (b : Bool)
  /-- A whole number, and what it comes to if its digits denote a number. -/
  | integer (value : Option Int)
  /-- Any other number or a point in time, as written. -/
  | other (written : List Char)
  deriving DecidableEq, Repr, Inhabited

namespace Scalar

/-- The whole number of a base that is written after its mark. -/
def ofRadix? (base : Nat) (cs : List Char) : Option Scalar :=
  let isDigit := fun c => (Uuid.hexValue? c).any (· < base)
  if cs.all (fun c => c == '_' || isDigit c) && separated isHexDigit cs then
    some (integer ((valueIn? base cs).map Int.ofNat))
  else none

/-- Whether a text is a whole number by its shape: digits without a leading zero, or a digit with
underscores behind.  Of what follows an underscore only the neighbours of underscores are looked at,
and that there is no space. -/
def isWhole (cs : List Char) : Bool :=
  let rest := cs.dropWhile Char.isDigit
  !cs.isEmpty && !leadsWithZero cs && (rest.isEmpty || rest.head? == some '_') &&
    !rest.contains ' ' && separated isHexDigit cs

/-- The number that a text denotes whose sign, if any, is behind. -/
def ofNumber? (sign : Option Char) (cs : List Char) : Option Scalar :=
  let written := sign.toList ++ cs
  if cs = "inf".toList ∨ cs = "nan".toList then some (other written)
  else if (cs.dropWhile Char.isDigit).any fun c => c == '.' || c == 'e' || c == 'E' then
    if isFloat cs && separated Char.isDigit cs then some (other written) else none
  else if isWhole cs then
    some (integer ((valueIn? 10 cs).map fun n => if sign = some '-' then -(n : Int) else n))
  else none

/-- The scalar that a text denotes. -/
def ofText? (cs : List Char) : Option Scalar :=
  if cs = "true".toList then some (bool true)
  else if cs = "false".toList then some (bool false)
  else if isMoment cs then some (other cs)
  else match cs with
    | '0' :: 'x' :: ds => ofRadix? 16 ds
    | '0' :: 'o' :: ds => ofRadix? 8 ds
    | '0' :: 'b' :: ds => ofRadix? 2 ds
    | '+' :: rest => ofNumber? (some '+') rest
    | '-' :: rest => ofNumber? (some '-') rest
    | _ => ofNumber? none cs

end Scalar

/-! ### Where a scalar ends -/

/-- A blank within a line. -/
def isGap (c : Char) : Bool := c == ' ' || c == '\t'

/-- What a word is made of: anything but blanks, line ends and the marks of the format. -/
def isWordChar (c : Char) : Bool :=
  !(isGap c || ['.', '=', ',', '[', ']', '{', '}', '#', '\r', '\n'].contains c)

/-- Whether a text starts with a word that is not quoted. -/
def startsWord (cs : List Char) : Bool :=
  cs.head?.any fun c => isWordChar c && c != '"' && c != '\''

/-- The characters of the scalar at the start, and the rest.  A scalar is words and points, and it
goes on behind blanks if another word follows, so that a date and a time are one scalar; `fuel`
bounds the number of words. -/
def scalarWithin : Nat → List Char → List Char × List Char
  | 0, cs => ([], cs)
  | fuel + 1, cs =>
    let (words, rest) := cs.span fun c => isWordChar c || c == '.'
    let (gap, more) := rest.span isGap
    if !gap.isEmpty && startsWord more then
      let (later, behind) := scalarWithin fuel more
      (words ++ gap ++ later, behind)
    else (words, rest)

/-- The characters of the scalar at the start, and the rest. -/
def scalarAt (cs : List Char) : List Char × List Char := scalarWithin (cs.length + 1) cs

end SqlAccess.Toml
