/-
**Spans of time.**

Main definitions:

* `SqlAccess.Duration` — a whole number of nanoseconds;
* `SqlAccess.Duration.render` — its text, in the largest unit that leaves a whole part.
-/

import SqlAccess.Text.Word

set_option autoImplicit false

namespace SqlAccess

/-- A span of time. -/
structure Duration where
  nanos : Nat
  deriving DecidableEq, Repr, Inhabited

namespace Duration

/-- A whole number of milliseconds. -/
def ofMillis (ms : Nat) : Duration := ⟨ms * 1000000⟩

/-- The units, largest first, in nanoseconds, with the number of decimal places below each. -/
def units : List (Nat × Nat × String) :=
  [(1000000000, 9, "s"), (1000000, 6, "ms"), (1000, 3, "µs")]

/-- The digits after the point of `rest` parts out of `10 ^ places`, without zeros at the end. -/
def fraction (places rest : Nat) : List Char :=
  let ds := ((Text.padded places rest).reverse.dropWhile (· == '0')).reverse
  if ds.isEmpty then [] else '.' :: ds

/-- The largest unit that makes the whole part nonzero, with the exact fraction. -/
def render (d : Duration) : String :=
  match units.find? fun u => u.1 ≤ d.nanos with
  | some (size, places, name) =>
    String.ofList (Text.digits (d.nanos / size) ++ fraction places (d.nanos % size)) ++ name
  | none => String.ofList (Text.digits d.nanos) ++ "ns"

end Duration

end SqlAccess
