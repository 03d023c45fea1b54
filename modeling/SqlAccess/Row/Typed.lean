/-
**Values of known types.**

A row delivers values of any shape; a caller wants them as numbers, texts, lists.  The types that a
caller can ask for are generated by options and lists from a few simple ones.

Main definitions:

* `SqlAccess.ColumnType`, `SqlAccess.ColumnType.Carrier` — the types, and what their members are;
* `SqlAccess.ColumnType.decode` — a value read as a type;
* `SqlAccess.ColumnType.encode` — a member of a type as a value;
* `SqlAccess.Row.get`, `SqlAccess.Row.getAt` — a typed value of a row.
-/

import SqlAccess.Error
import SqlAccess.Json.Basic
import SqlAccess.Row.Basic

set_option autoImplicit false

namespace SqlAccess

/-! ### Types -/

/-- The types that a caller can ask for. -/
inductive ColumnType where
  | value
  | int64
  | int32
  | uint64
  | float
  | bool
  | text
  | timestamp
  | uuid
  /-- The inner type, or null. -/
  | option (inner : ColumnType)
  | list (element : ColumnType)
  deriving DecidableEq, Repr, Inhabited

namespace ColumnType

/-- The members of a type. -/
@[reducible] def Carrier : ColumnType → Type
  | value => Value
  | int64 => Int64
  | int32 => Int32
  | uint64 => UInt64
  | float => Float
  | bool => Bool
  | text => String
  | timestamp => Timestamp
  | uuid => Uuid
  | option inner => Option inner.Carrier
  | list element => List element.Carrier

/-! ### Reading -/

/-- A value that must be an integer. -/
def integer (v : Value) : Except DecodeFault Int64 :=
  match v with
  | .int n => .ok n
  | other => .error (.mismatch "integer" other)

/-- An integer that must lie in a range. -/
def within (low high : Int) (n : Int64) : Except DecodeFault Int64 :=
  if high < n.toInt then .error .tooLarge
  else if n.toInt < low then .error .tooSmall
  else .ok n

/-- All results, or the first fault. -/
def allOk {α : Type} (read : Value → Except DecodeFault α) :
    List Value → Except DecodeFault (List α)
  | [] => .ok []
  | v :: rest => do
    let x ← read v
    return x :: (← allOk read rest)

/-- A value read as a type. -/
def decode : (t : ColumnType) → Value → Except DecodeFault t.Carrier
  | value, v => .ok v
  | int64, v => integer v
  | int32, v => do return (← within (-2147483648) 2147483647 (← integer v)).toInt32
  | uint64, v => do return (← within 0 9223372036854775807 (← integer v)).toUInt64
  | float, v =>
    match v with
    | .float x => .ok x
    | .int n => .ok (Decimal.doubleOfInt n.toInt)
    | other => .error (.mismatch "float" other)
  | bool, v =>
    match v with
    | .bool b => .ok b
    | other => .error (.mismatch "bool" other)
  | text, v =>
    match v with
    | .text s => .ok s
    | other => .error (.mismatch "text" other)
  | timestamp, v =>
    match v with
    | .timestamp t => .ok t
    | other => .error (.mismatch "timestamp" other)
  | uuid, v =>
    match v with
    | .uuid u => .ok u
    | .text s =>
      match Uuid.ofText? s with
      | some u => .ok u
      | none => .error (.badUuid s)
    | other => .error (.mismatch "uuid" other)
  | option inner, v =>
    match v with
    | .null => .ok none
    | other => (inner.decode other).map some
  | list element, v =>
    match v with
    | .list items => allOk element.decode items
    | other => .error (.mismatch "list" other)

/-! ### Writing -/

/-- A member of a type as a value.  An unsigned number of sixty-four bits is no value by itself: it
is written like a number of a document, from `2 ^ 63` on as a float. -/
def encode : (t : ColumnType) → t.Carrier → Value
  | value, v => v
  | int64, n => .int n
  | int32, n => .int n.toInt64
  | uint64, n => .ofInteger n.toNat
  | float, x => .float x
  | bool, b => .bool b
  | text, s => .text s
  | timestamp, t => .timestamp t
  | uuid, u => .uuid u
  | option inner, x =>
    match x with
    | none => .null
    | some y => inner.encode y
  | list element, xs => .list (xs.map element.encode)

end ColumnType

/-! ### Typed access -/

namespace Row

/-- The value of a column, read as a type. -/
def get (r : Row) (t : ColumnType) (column : String) : Outcome t.Carrier :=
  match r.named? column with
  | none => .error (.decode column .noSuchColumn)
  | some v => (t.decode v).mapError (.decode column)

/-- The value at a position, read as a type. -/
def getAt (r : Row) (t : ColumnType) (position : Nat) : Outcome t.Carrier :=
  match r.at? position with
  | none => .error (.decode (r.columnLabel position) .noSuchColumn)
  | some v => (t.decode v).mapError (.decode (r.columnLabel position))

end Row

end SqlAccess
