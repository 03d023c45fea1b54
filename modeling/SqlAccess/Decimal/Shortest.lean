/-
**The fewest digits that read back.**

Every real number in a certain interval around a double rounds to it.  Among the decimals in that
interval those with the fewest digits are candidates, and of these the one nearest to the double is
its shortest form; which of two equally near ones it is, is a matter of style.  All of it is exact
arithmetic on natural numbers.

Main definitions:

* `SqlAccess.Decimal.Digits` — digits and the place of the decimal point;
* `SqlAccess.Decimal.Tie` — the choice between two equally near decimals;
* `SqlAccess.Decimal.Span` — a double with the ends of its interval;
* `SqlAccess.Decimal.shortest` — the digits of a finite double without its sign.
-/

import SqlAccess.Text.Word

set_option autoImplicit false

namespace SqlAccess.Decimal

/-! ### Digits -/

/-- The number `0.d₁d₂…dₙ · 10 ^ point`. -/
structure Digits where
  digits : List Char
  point : Int
  deriving DecidableEq, Repr, Inhabited

/-- The natural number `n`, multiplied by `10 ^ e`, without zeros at its end. -/
def Digits.ofScaled (n : Nat) (e : Int) : Digits :=
  let ds := Text.digits n
  let kept := (ds.reverse.dropWhile (· == '0')).reverse
  if kept.isEmpty then ⟨['0'], 1⟩ else ⟨kept, ds.length + e⟩

/-- The choice between two equally near decimals. -/
inductive Tie where
  /-- The larger. -/
  | up
  /-- The one whose last digit is even. -/
  | even
  deriving DecidableEq, Repr, Inhabited

/-- The nearer of `n` and `n + 1` to the quotient `num / den` between them. -/
def Tie.nearer (tie : Tie) (num den n : Nat) : Nat :=
  let twice := 2 * num
  let middle := (2 * n + 1) * den
  let below := match tie with
    | up => false
    | even => n % 2 == 0
  if twice < middle || (twice == middle && below) then n else n + 1

/-! ### The interval of a double -/

/-- A positive double and the ends of the interval that rounds to it, over one denominator.  The
ends themselves belong to the interval exactly for an even significand. -/
structure Span where
  low : Nat
  value : Nat
  high : Nat
  den : Nat
  inclusive : Bool
  deriving Repr, Inhabited

/-- The interval of the number `m · 2 ^ q`; the gap below is half as wide at a power of two. -/
def Span.ofBinary (m : Nat) (q : Int) (narrow : Bool) : Span :=
  let up : Nat := Nat.pow 2 (q - 2).toNat
  ⟨(4 * m - if narrow then 1 else 2) * up, 4 * m * up, (4 * m + 2) * up, Nat.pow 2 (2 - q).toNat,
    m % 2 == 0⟩

/-- The interval of a finite double, from its bits. -/
def Span.ofBits (bits : Nat) : Span :=
  let fraction : Nat := bits % Nat.pow 2 52
  let field : Nat := bits / Nat.pow 2 52 % Nat.pow 2 11
  if field = 0 then ofBinary fraction (-1074) false
  else ofBinary (Nat.pow 2 52 + fraction) ((field : Int) - 1075) (fraction == 0 && field != 1)

namespace Span

/-- Whether `n · 10 ^ e`, not above the value, lies in the interval. -/
def containsBelow (s : Span) (n : Nat) (e : Int) : Bool :=
  let left := s.low * Nat.pow 10 (-e).toNat
  let right := n * Nat.pow 10 e.toNat * s.den
  left < right || (s.inclusive && left == right)

/-- Whether `n · 10 ^ e`, not below the value, lies in the interval. -/
def containsAbove (s : Span) (n : Nat) (e : Int) : Bool :=
  let left := n * Nat.pow 10 e.toNat * s.den
  let right := s.high * Nat.pow 10 (-e).toNat
  left < right || (s.inclusive && left == right)

/-- The multiple of `10 ^ e` in the interval that is nearest to the value, if there is one. -/
def onGrid? (s : Span) (tie : Tie) (e : Int) : Option Nat :=
  let num := s.value * Nat.pow 10 (-e).toNat
  let den := s.den * Nat.pow 10 e.toNat
  let n := num / den
  match s.containsBelow n e, s.containsAbove (n + 1) e with
  | true, true => some (tie.nearer num den n)
  | true, false => some n
  | false, true => some (n + 1)
  | false, false => none

/-- The place of the decimal point: the value lies between `10 ^ (point - 1)` and `10 ^ point`. -/
def point (s : Span) : Int :=
  ((Text.digits (s.value * Nat.pow 10 400 / s.den)).length : Int) - 400

/-- The shortest decimal in the interval. -/
def shortest (s : Span) (tie : Tie) : Digits :=
  let found := (List.range 17).findSome? fun (i : Nat) =>
    let e := s.point - (i + 1)
    (s.onGrid? tie e).map fun n => Digits.ofScaled n e
  found.getD ⟨['0'], 1⟩

end Span

/-- The shortest digits of a finite double, its sign aside. -/
def shortest (tie : Tie) (bits : Nat) : Digits :=
  if bits % Nat.pow 2 63 = 0 then ⟨['0'], 1⟩ else (Span.ofBits bits).shortest tie

end SqlAccess.Decimal
