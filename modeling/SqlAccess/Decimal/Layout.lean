/-
**Floating-point numbers as text.**

The digits of a number are its shortest ones; where the point stands, and when an exponent is
written instead, is a matter of style.

Main definitions:

* `SqlAccess.Decimal.FloatStyle` — a style, with `plain`, `literal` and `json`;
* `SqlAccess.Decimal.FloatStyle.render` — a number in a style;
* `SqlAccess.Decimal.readFloat?`, `SqlAccess.Decimal.readSingle?` — the number nearest to a decimal.
-/

import SqlAccess.Text.Cut
import SqlAccess.Decimal.Nearest
import SqlAccess.Decimal.Shortest

set_option autoImplicit false

namespace SqlAccess.Decimal

/-! ### Styles -/

/-- How the digits of a number are laid out. -/
structure FloatStyle where
  /-- Whether a whole number ends in `.0`. -/
  marksWhole : Bool
  /-- The places of the decimal point at which no exponent is written, if they are limited. -/
  positional : Option (Int × Int)
  /-- Whether an exponent that is not negative has a sign. -/
  marksExponent : Bool
  /-- Which of two equally near shortest forms is written. -/
  tie : Tie

namespace FloatStyle

/-- Never an exponent, and whole numbers look like integers. -/
def plain : FloatStyle := ⟨false, none, false, .up⟩

/-- As in program text: whole numbers end in `.0`, and below `10 ^ -4` and from `10 ^ 16` on there
is an exponent. -/
def literal : FloatStyle := ⟨true, some (-3, 16), false, .up⟩

/-- As in JSON: like program text, but with one place more below one, a sign before every exponent,
and an even last digit in a tie. -/
def json : FloatStyle := ⟨true, some (-4, 16), true, .even⟩

/-- Digits with a decimal point at its place. -/
def positionalText (style : FloatStyle) (d : Digits) : List Char :=
  if d.point ≤ 0 then
    ['0', '.'] ++ List.replicate (-d.point).toNat '0' ++ d.digits
  else if d.digits.length ≤ d.point.toNat then
    d.digits ++ List.replicate (d.point.toNat - d.digits.length) '0' ++
      (if style.marksWhole then ['.', '0'] else [])
  else
    d.digits.take d.point.toNat ++ '.' :: d.digits.drop d.point.toNat

/-- Digits with the point after the first, and an exponent. -/
def exponentText (style : FloatStyle) (d : Digits) : List Char :=
  let e := d.point - 1
  let fraction := d.digits.drop 1
  let sign := if e < 0 then ['-'] else if style.marksExponent then ['+'] else []
  d.digits.take 1 ++ (if fraction.isEmpty then [] else '.' :: fraction) ++ 'e' :: sign ++
    Text.digits e.natAbs

/-- Digits in a style. -/
def digitsText (style : FloatStyle) (d : Digits) : List Char :=
  match style.positional with
  | some (first, last) =>
    if d.digits = ['0'] ∨ (first ≤ d.point ∧ d.point ≤ last) then style.positionalText d
    else style.exponentText d
  | none => style.positionalText d

/-- A number in a style. -/
def render (style : FloatStyle) (x : Float) : String :=
  let bits := x.toBits.toNat
  let sign := if bits < Nat.pow 2 63 then [] else ['-']
  let magnitude := bits % Nat.pow 2 63
  if magnitude < BinaryFormat.double.infinity then
    String.ofList (sign ++ style.digitsText (shortest style.tie magnitude))
  else if magnitude = BinaryFormat.double.infinity then
    String.ofList (sign ++ ['i', 'n', 'f'])
  else "NaN"

end FloatStyle

/-! ### Reading decimals -/

/-- A number as it is written in decimal. -/
inductive Written where
  /-- `± mantissa · 10 ^ exponent`. -/
  | finite (negative : Bool) (mantissa : Nat) (exponent : Int)
  | infinite (negative : Bool)
  | notANumber
  deriving DecidableEq, Repr, Inhabited

/-- A whole number with an optional sign. -/
def signedValue? (cs : List Char) : Option Int :=
  let (negative, ds) := match cs with
    | '-' :: rest => (true, rest)
    | '+' :: rest => (false, rest)
    | rest => (false, rest)
  if Text.isDigits ds then
    some (if negative then -(Text.digitsValue ds : Int) else Text.digitsValue ds)
  else none

/-- An unsigned decimal: digits around an optional point, and an optional exponent. -/
def unsigned? (negative : Bool) (cs : List Char) : Option Written := do
  let (mantissa, exponent) ←
    match Text.cut? 'e' (cs.map Char.toLower) with
    | some (m, e) => (signedValue? e).map fun x => (m, x)
    | none => some (cs, 0)
  let (whole, fraction) := (Text.cut? '.' mantissa).getD (mantissa, [])
  let ds := whole ++ fraction
  if Text.isDigits ds then
    some (.finite negative (Text.digitsValue ds) (exponent - fraction.length))
  else none

/-- A decimal, an infinity or not-a-number, as written. -/
def written? (cs : List Char) : Option Written :=
  let (negative, rest) := match cs with
    | '-' :: rest => (true, rest)
    | '+' :: rest => (false, rest)
    | rest => (false, rest)
  let word := rest.map Char.toLower
  if word = ['i', 'n', 'f'] ∨ word = ['i', 'n', 'f', 'i', 'n', 'i', 't', 'y'] then
    some (.infinite negative)
  else if word = ['n', 'a', 'n'] then some .notANumber
  else unsigned? negative rest

/-- A decimal as a quotient; beyond every format's range it is cut off. -/
def ratio (mantissa : Nat) (exponent : Int) : Nat × Nat :=
  let size : Int := (Text.digits mantissa).length + exponent
  if mantissa = 0 ∨ size < -400 then (0, 1)
  else if 400 < size then (Nat.pow 10 400, 1)
  else (mantissa * Nat.pow 10 exponent.toNat, Nat.pow 10 (-exponent).toNat)

/-- The double nearest to a decimal text. -/
def readFloat? (text : String) : Option Float :=
  (written? text.toList).map fun
    | .finite negative m e => doubleOfRatio negative (ratio m e).1 (ratio m e).2
    | .infinite negative =>
      Float.ofBits (if negative then 0xFFF0000000000000 else 0x7FF0000000000000)
    | .notANumber => Float.ofBits 0x7FF8000000000000

/-- The single-precision number nearest to a decimal text. -/
def readSingle? (text : String) : Option Float32 :=
  (written? text.toList).map fun
    | .finite negative m e => singleOfRatio negative (ratio m e).1 (ratio m e).2
    | .infinite negative => Float32.ofBits (if negative then 0xFF800000 else 0x7F800000)
    | .notANumber => Float32.ofBits 0x7FC00000

end SqlAccess.Decimal
