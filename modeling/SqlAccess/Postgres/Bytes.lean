/-
**Bytes on the wire.**

Numbers travel with the most significant byte first, negative ones in two's complement.

Main definitions:

* `SqlAccess.Postgres.ofNat`, `SqlAccess.Postgres.toNat` — numbers as bytes and back;
* `SqlAccess.Postgres.ofInt`, `SqlAccess.Postgres.toInt` — the same for signed numbers;
* `SqlAccess.Postgres.ofText`, `SqlAccess.Postgres.toText?` — texts as bytes and back;
* `SqlAccess.Postgres.hex`, `SqlAccess.Postgres.ofHex?` — bytes as hexadecimal digits and back.
-/

import SqlAccess.Uuid

set_option autoImplicit false

namespace SqlAccess.Postgres

/-- Bytes as they travel. -/
abbrev Bytes := List UInt8

/-! ### Numbers -/

/-- The last `width` bytes of a number. -/
def ofNat : (width n : Nat) → Bytes
  | 0, _ => []
  | width + 1, n => ofNat width (n / 256) ++ [UInt8.ofNat n]

/-- The number that bytes denote. -/
def toNat (bytes : Bytes) : Nat := bytes.foldl (fun n b => 256 * n + b.toNat) 0

/-- A signed number in so many bytes. -/
def ofInt (width : Nat) (n : Int) : Bytes := ofNat width (n % Int.pow 256 width).toNat

/-- The signed number that bytes denote. -/
def toInt (bytes : Bytes) : Int := Int.bmod (toNat bytes) (Nat.pow 256 bytes.length)

/-! ### Texts -/

/-- The bytes of a text. -/
def ofText (s : String) : Bytes := s.toUTF8.toList

/-- The text that bytes denote, if they are well formed. -/
def toText? (bytes : Bytes) : Option String := String.fromUTF8? ⟨bytes.toArray⟩

/-! ### Hexadecimal digits -/

/-- Two lower-case digits for each byte. -/
def hex (bytes : Bytes) : String :=
  String.ofList (bytes.flatMap fun b =>
    let ds := Nat.toDigits 16 b.toNat
    List.replicate (2 - ds.length) '0' ++ ds)

/-- The bytes of pairs of digits. -/
def ofHexDigits? : List Char → Option Bytes
  | [] => some []
  | high :: low :: rest => do
    let byte := 16 * (← Uuid.hexValue? high) + (← Uuid.hexValue? low)
    return UInt8.ofNat byte :: (← ofHexDigits? rest)
  | [_] => none

/-- The bytes that a text of digits denotes. -/
def ofHex? (text : String) : Option Bytes := ofHexDigits? text.toList

end SqlAccess.Postgres
