/-
**Tokens of a JSON text.**

Main definitions:

* `SqlAccess.Json.Token` — brackets, separators and scalars;
* `SqlAccess.Json.numberOf?` — the number that digits, point and exponent denote;
* `SqlAccess.Json.next?` — the first token of a text;
* `SqlAccess.Json.tokens?` — all tokens.
-/

import SqlAccess.Json.Basic

set_option autoImplicit false

namespace SqlAccess.Json

/-- A token; scalars stand for themselves. -/
inductive Token where
  | openArray
  | closeArray
  | openObject
  | closeObject
  | colon
  | comma
  | scalar (value : Json)
  deriving Inhabited

/-! ### Texts -/

/-- The value of four hexadecimal digits at the start, and the rest. -/
def hexFour? : List Char → Option (Nat × List Char)
  | a :: b :: c :: d :: rest => do
    let values ← [a, b, c, d].mapM Uuid.hexValue?
    return (values.foldl (fun n x => 16 * n + x) 0, rest)
  | _ => none

/-- The character of an escape, whose backslash is behind: a letter, or one or two code units. -/
def unescape? : List Char → Option (Char × List Char)
  | '"' :: rest => some ('"', rest)
  | '\\' :: rest => some ('\\', rest)
  | '/' :: rest => some ('/', rest)
  | 'b' :: rest => some ('\x08', rest)
  | 'f' :: rest => some ('\x0c', rest)
  | 'n' :: rest => some ('\n', rest)
  | 'r' :: rest => some ('\r', rest)
  | 't' :: rest => some ('\t', rest)
  | 'u' :: digits => do
    let (unit, rest) ← hexFour? digits
    if 0xD800 ≤ unit ∧ unit ≤ 0xDBFF then
      match rest with
      | '\\' :: 'u' :: more => do
        let (low, rest) ← hexFour? more
        if 0xDC00 ≤ low ∧ low ≤ 0xDFFF then
          some (Char.ofNat (0x10000 + (unit - 0xD800) * 0x400 + (low - 0xDC00)), rest)
        else none
      | _ => none
    else if 0xDC00 ≤ unit ∧ unit ≤ 0xDFFF then none
    else some (Char.ofNat unit, rest)
  | _ => none

/-- The characters up to the closing quote, and the rest; `fuel` bounds their number. -/
def textBody? : Nat → List Char → Option (List Char × List Char)
  | 0, _ => none
  | _ + 1, [] => none
  | _ + 1, '"' :: rest => some ([], rest)
  | fuel + 1, '\\' :: rest => do
    let (c, rest) ← unescape? rest
    let (cs, rest) ← textBody? fuel rest
    return (c :: cs, rest)
  | fuel + 1, c :: rest =>
    if c.toNat < 0x20 then none
    else (textBody? fuel rest).map fun p => (c :: p.1, p.2)

/-! ### Numbers -/

/-- The largest significand that is kept. -/
def maxSignificand : Nat := Nat.pow 2 64 - 1

/-- Digits appended to a significand while it stays within bounds, and how many were appended. -/
def appendDigits (significand count : Nat) : List Char → Nat × Nat
  | [] => (significand, count)
  | c :: rest =>
    let next := 10 * significand + (c.toNat - '0'.toNat)
    if next ≤ maxSignificand then appendDigits next (count + 1) rest else (significand, count)

/-- A power of ten. -/
def powerOfTen (e : Nat) : Float := Decimal.doubleOfRatio false (Nat.pow 10 e) 1

/-- A number divided by a power of ten, in steps that a double can hold. -/
def divideByPower (x : Float) (e : Nat) : Float :=
  if e ≤ 308 then x / powerOfTen e
  else if x == 0.0 then x
  else divideByPower (x / powerOfTen 308) (e - 308)
  termination_by e

/-- The significand times a power of ten, by one multiplication or division; a number too large for
a double is none. -/
def scaled? (significand : Nat) (e : Int) : Option Float :=
  let x := Decimal.doubleOfRatio false significand 1
  if e < 0 then some (divideByPower x e.natAbs)
  else if 308 < e then if significand = 0 then some x else none
  else
    let y := x * powerOfTen e.toNat
    if y.isInf then none else some y

/-- The number with these digits before and after the point and this exponent, if there is one.
Without point and exponent it is an integer if it fits into sixty-four bits. -/
def numberOf? (negative : Bool) (whole fraction : List Char) (exponent : Option Int) :
    Option Json :=
  let (kept, count) := appendDigits 0 0 whole
  let extra := whole.length - count
  let signed := fun (x : Float) => float (if negative then -x else x)
  if fraction.isEmpty ∧ exponent = none ∧ extra = 0 then
    if !negative then some (int kept)
    else if kept = 0 ∨ Nat.pow 2 63 < kept then (scaled? kept 0).map signed
    else some (int (-(kept : Int)))
  else
    let (significand, places) := appendDigits kept 0 fraction
    let e : Int := extra - places + exponent.getD 0
    (scaled? significand e).map signed

/-- The digits of an exponent with its sign, if the text starts with one. -/
def exponent? (cs : List Char) : Option (Option Int × List Char) :=
  match cs with
  | c :: rest =>
    if c = 'e' ∨ c = 'E' then
      let (negative, ds) := match rest with
        | '-' :: more => (true, more)
        | '+' :: more => (false, more)
        | more => (false, more)
      let (digits, rest) := ds.span Char.isDigit
      if digits.isEmpty then none
      else
        let value : Int := Text.digitsValue digits
        some (some (if negative then -value else value), rest)
    else some (none, cs)
  | [] => some (none, [])

/-- The number at the start of a text, and the rest. -/
def number? (cs : List Char) : Option (Json × List Char) := do
  let (negative, cs) := match cs with
    | '-' :: rest => (true, rest)
    | rest => (false, rest)
  let (whole, cs) := cs.span Char.isDigit
  if whole.isEmpty ∨ (whole.head? = some '0' ∧ whole.length ≠ 1) then none
  let (fraction, cs) ← match cs with
    | '.' :: rest =>
      let (digits, rest) := rest.span Char.isDigit
      if digits.isEmpty then none else some (digits, rest)
    | rest => some ([], rest)
  let (exponent, rest) ← exponent? cs
  return (← numberOf? negative whole fraction exponent, rest)

/-! ### Tokens -/

/-- The four characters that may stand between tokens. -/
def isGap (c : Char) : Bool := c == ' ' || c == '\t' || c == '\n' || c == '\r'

/-- The first token of a text that does not start with a gap, and the rest. -/
def next? (cs : List Char) : Option (Token × List Char) :=
  match cs with
  | '[' :: rest => some (.openArray, rest)
  | ']' :: rest => some (.closeArray, rest)
  | '{' :: rest => some (.openObject, rest)
  | '}' :: rest => some (.closeObject, rest)
  | ':' :: rest => some (.colon, rest)
  | ',' :: rest => some (.comma, rest)
  | 'n' :: 'u' :: 'l' :: 'l' :: rest => some (.scalar null, rest)
  | 't' :: 'r' :: 'u' :: 'e' :: rest => some (.scalar (bool true), rest)
  | 'f' :: 'a' :: 'l' :: 's' :: 'e' :: rest => some (.scalar (bool false), rest)
  | '"' :: rest =>
    (textBody? (rest.length + 1) rest).map fun p => (.scalar (text (String.ofList p.1)), p.2)
  | _ => (number? cs).map fun p => (.scalar p.1, p.2)

/-- The tokens of a text; `fuel` bounds their number. -/
def tokensWithin? : Nat → List Char → Option (List Token)
  | 0, _ => none
  | fuel + 1, cs =>
    match cs.dropWhile isGap with
    | [] => some []
    | c :: rest => do
      let (token, rest) ← next? (c :: rest)
      return token :: (← tokensWithin? fuel rest)

/-- The tokens of a text. -/
def tokens? (cs : List Char) : Option (List Token) := tokensWithin? (cs.length + 1) cs

end SqlAccess.Json
