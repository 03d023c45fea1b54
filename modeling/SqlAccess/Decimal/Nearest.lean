/-
**The binary number nearest to a quotient.**

A binary format stores numbers `m · 2 ^ q` with a bounded significand `m` and a bounded exponent
`q`.  Encoded as bits, consecutive natural numbers are consecutive numbers of the format, so that
rounding a quotient is one division and one comparison with the half.

Main definitions:

* `SqlAccess.Decimal.BinaryFormat` — a format, with `double` and `single`;
* `SqlAccess.Decimal.BinaryFormat.nearestBits` — the nearest number to `num / den`, a tie going to
  the even significand;
* `SqlAccess.Decimal.doubleOfRatio`, `SqlAccess.Decimal.singleOfRatio` — the same as numbers.
-/

set_option autoImplicit false

namespace SqlAccess.Decimal

/-- A binary floating-point format. -/
structure BinaryFormat where
  /-- The number of significant bits. -/
  precision : Nat
  /-- The exponent of the smallest positive number is its negative. -/
  minExponent : Nat
  /-- The bits of infinity. -/
  infinity : Nat

namespace BinaryFormat

/-- Sixty-four bits, fifty-three of them significant. -/
def double : BinaryFormat := ⟨53, 1074, 0x7FF0000000000000⟩

/-- Thirty-two bits, twenty-four of them significant. -/
def single : BinaryFormat := ⟨24, 149, 0x7F800000⟩

/-- The quotient and the half-way comparison of `num / (den · 2 ^ e)`, rounded to the nearest
natural number, a tie to the even one. -/
def scaledNearest (num den : Nat) (e : Int) : Nat :=
  let n := num * Nat.pow 2 (-e).toNat
  let d := den * Nat.pow 2 e.toNat
  let q := n / d
  let twice := 2 * (n % d)
  if twice < d || (twice == d && q % 2 == 0) then q else q + 1

/-- The exponent of the last significant bit of `num / den`, not below the smallest. -/
def unitExponent (f : BinaryFormat) (num den : Nat) : Int :=
  let guess : Int := (num.log2 : Int) - den.log2 - (f.precision - 1)
  let tooLarge := num * Nat.pow 2 (-guess).toNat <
    den * Nat.pow 2 guess.toNat * Nat.pow 2 (f.precision - 1)
  max (if tooLarge then guess - 1 else guess) (-(f.minExponent : Int))

/-- The bits of the number nearest to the positive quotient `num / den`. -/
def nearestBits (f : BinaryFormat) (num den : Nat) : Nat :=
  if num = 0 then 0
  else
    let e := f.unitExponent num den
    min ((e + f.minExponent).toNat * Nat.pow 2 (f.precision - 1) + scaledNearest num den e)
      f.infinity

end BinaryFormat

/-- The double nearest to `± num / den`. -/
def doubleOfRatio (negative : Bool) (num den : Nat) : Float :=
  let bits := BinaryFormat.double.nearestBits num den
  Float.ofBits (UInt64.ofNat (if negative then bits + Nat.pow 2 63 else bits))

/-- The single-precision number nearest to `± num / den`. -/
def singleOfRatio (negative : Bool) (num den : Nat) : Float32 :=
  let bits := BinaryFormat.single.nearestBits num den
  Float32.ofBits (UInt32.ofNat (if negative then bits + Nat.pow 2 31 else bits))

/-- The double nearest to an integer. -/
def doubleOfInt (n : Int) : Float := doubleOfRatio (n < 0) n.natAbs 1

/-- The single-precision number nearest to an integer. -/
def singleOfInt (n : Int) : Float32 := singleOfRatio (n < 0) n.natAbs 1

end SqlAccess.Decimal
