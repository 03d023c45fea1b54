/-
**Values on the wire.**

A parameter is written as the type that the server has inferred for it, as far as a conversion to
that type is known; otherwise it is written as the value's own type.  A column is read as the type
that the server declares.

Main definitions:

* `SqlAccess.Postgres.encode` — a value as a parameter; null has no bytes;
* `SqlAccess.Postgres.decode` — the value of a column.
-/

import SqlAccess.Error
import SqlAccess.Json.Reader
import SqlAccess.Postgres.Bytes
import SqlAccess.Postgres.WireType

set_option autoImplicit false

namespace SqlAccess.Postgres

/-! ### Parameters -/

/-- Why a value cannot be a parameter of a type. -/
inductive EncodeFault where
  /-- The integer does not fit. -/
  | outOfRange
  /-- The text denotes no identifier. -/
  | badUuid
  /-- The text is no document. -/
  | badJson
  deriving DecidableEq, Repr, Inhabited

/-- A document as a parameter; the binary form begins with its version. -/
def encodeJson (t : WireType) (j : Json) : Bytes :=
  (if t = .jsonb then [1] else []) ++ ofText j.render

/-- A signed number that must fit into so many bytes. -/
def encodeInt (width : Nat) (n : Int) : Except EncodeFault Bytes :=
  if -(Int.pow 256 width / 2) ≤ n ∧ n < Int.pow 256 width / 2 then .ok (ofInt width n)
  else .error .outOfRange

/-- A number in single precision. -/
def encodeSingle (x : Float32) : Bytes := ofNat 4 x.toBits.toNat

/-- A number in double precision. -/
def encodeDouble (x : Float) : Bytes := ofNat 8 x.toBits.toNat

/-- A timestamp, or its date alone. -/
def encodeTimestamp (type : WireType) (t : Timestamp) : Bytes :=
  match type with
  | .date => ofInt 4 t.date.toDays
  | _ => ofInt 8 t.toMicros

/-- An element of an array: its length and its bytes; null has length -1 and no bytes. -/
def element : Option Bytes → Bytes
  | some bytes => ofInt 4 bytes.length ++ bytes
  | none => ofInt 4 (-1)

/-- An array of one dimension, counted from 1. -/
def encodeArray (t : WireType) (elements : List (Option Bytes)) : Bytes :=
  ofInt 4 1 ++ ofInt 4 (if elements.any Option.isNone then 1 else 0) ++ ofInt 4 t.oid ++
    ofInt 4 elements.length ++ ofInt 4 1 ++ elements.flatMap element

mutual

/-- A value as a parameter of a type; null has no bytes. -/
def encode (type : WireType) : Value → Except EncodeFault (Option Bytes)
  | .null => .ok none
  | .bool b => .ok (some [if b then 1 else 0])
  | .int n =>
    match type with
    | .int2 => (encodeInt 2 n.toInt).map some
    | .int4 => (encodeInt 4 n.toInt).map some
    | .float4 => .ok (some (encodeSingle (Decimal.singleOfInt n.toInt)))
    | .float8 => .ok (some (encodeDouble (Decimal.doubleOfInt n.toInt)))
    | other =>
      if other.isText then .ok (some (ofText (Value.intText n.toInt)))
      else .ok (some (ofInt 8 n.toInt))
  | .float x =>
    match type with
    | .float4 => .ok (some (encodeSingle x.toFloat32))
    | _ => .ok (some (encodeDouble x))
  | .text s =>
    match type with
    | .uuid =>
      match Uuid.ofText? s with
      | some u => .ok (some (ofNat 16 u.bits.toNat))
      | none => .error .badUuid
    | .json | .jsonb =>
      match Json.read? s with
      | some j => .ok (some (encodeJson type j))
      | none => .error .badJson
    | _ => .ok (some (ofText s))
  | .timestamp t => .ok (some (encodeTimestamp type t))
  | .uuid u => .ok (some (ofNat 16 u.bits.toNat))
  | .list items =>
    match type with
    | .array t => (encodeItems t items).map fun elements => some (encodeArray t elements)
    | _ => .ok (some (encodeJson type (Json.ofValue (.list items))))
  | .map fields => .ok (some (encodeJson type (Json.ofValue (.map fields))))

/-- Several values as elements of a type. -/
def encodeItems (type : WireType) : List Value → Except EncodeFault (List (Option Bytes))
  | [] => .ok []
  | v :: rest => do
    let first ← encode type v
    return first :: (← encodeItems type rest)

end

/-! ### Columns -/

/-- Bytes that must be of a length. -/
def exactly (width : Nat) (bytes : Bytes) : Option Bytes :=
  if bytes.length = width then some bytes else none

/-- The document that a column holds; the binary form begins with its version. -/
def decodeJson? (type : WireType) (bytes : Bytes) : Option Json :=
  let body := match type, bytes with
    | .jsonb, 1 :: rest => some rest
    | .jsonb, _ => none
    | _, all => some all
  (body.bind toText?).bind Json.read?

/-- The value of bytes that are not null, if they are of the column's type. -/
def decodeBytes? (type : WireType) (bytes : Bytes) : Option Value :=
  match type with
  | .bool => (exactly 1 bytes).map fun b => .bool (toNat b != 0)
  | .int2 => (exactly 2 bytes).map fun b => .int (Int64.ofInt (toInt b))
  | .int4 => (exactly 4 bytes).map fun b => .int (Int64.ofInt (toInt b))
  | .int8 => (exactly 8 bytes).map fun b => .int (Int64.ofInt (toInt b))
  | .float4 =>
    (exactly 4 bytes).map fun b => .float (Float32.ofBits (UInt32.ofNat (toNat b))).toFloat
  | .float8 => (exactly 8 bytes).map fun b => .float (Float.ofBits (UInt64.ofNat (toNat b)))
  | .text | .varchar | .bpchar | .name => (toText? bytes).map .text
  | .timestamp | .timestamptz =>
    (exactly 8 bytes).bind fun b => (Timestamp.ofMicros? (toInt b)).map .timestamp
  | .date => (exactly 4 bytes).bind fun b =>
    let date := Date.ofDays (toInt b)
    if date.inRange then some (.timestamp (.midnight date)) else none
  | .uuid => (exactly 16 bytes).map fun b => .uuid ⟨BitVec.ofNat 128 (toNat b)⟩
  | .json | .jsonb => (decodeJson? type bytes).map Value.ofJson
  | .other _ | .array _ => none

/-- Whether columns of a type are read at all. -/
def isReadable : WireType → Bool
  | .other _ | .array _ => false
  | _ => true

/-- The value of a column. -/
def decode (type : WireType) (cell : Option Bytes) : Except DecodeFault Value :=
  if !isReadable type then .error (.unsupportedType type.typeName)
  else match cell with
    | none => .ok .null
    | some bytes =>
      match decodeBytes? type bytes with
      | some v => .ok v
      | none => .error (.malformed type.typeName)

end SqlAccess.Postgres
