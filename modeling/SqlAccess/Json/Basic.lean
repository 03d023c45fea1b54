/-
**JSON documents.**

Main definitions:

* `SqlAccess.Json` — documents; the members of an object are in ascending order of their names;
* `SqlAccess.Json.render` — the compact text of a document;
* `SqlAccess.Json.ofValue`, `SqlAccess.Value.ofJson` — values as documents and back.
-/

import SqlAccess.Value.Basic

set_option autoImplicit false

namespace SqlAccess

/-- A document. -/
inductive Json where
  | null
  | bool (b : Bool)
  /-- A number written without point or exponent, within sixty-four bits. -/
  | int (n : Int)
  | float (x : Float)
  | text (s : String)
  | array (items : List Json)
  /-- Members in ascending order of their names. -/
  | object (members : List (String × Json))
  deriving Inhabited

namespace Json

/-! ### Text -/

/-- A character between the quotes of a JSON text. -/
def escaped (c : Char) : List Char :=
  if c = '"' then ['\\', '"']
  else if c = '\\' then ['\\', '\\']
  else if c = '\n' then ['\\', 'n']
  else if c = '\r' then ['\\', 'r']
  else if c = '\t' then ['\\', 't']
  else if c = '\x08' then ['\\', 'b']
  else if c = '\x0c' then ['\\', 'f']
  else if c.toNat < 0x20 then
    let ds := Nat.toDigits 16 c.toNat
    ['\\', 'u'] ++ List.replicate (4 - ds.length) '0' ++ ds
  else [c]

/-- A text between quotes. -/
def quoted (s : String) : String := String.ofList ('"' :: s.toList.flatMap escaped ++ ['"'])

mutual

/-- The compact text of a document. -/
def render : Json → String
  | null => "null"
  | bool b => Value.boolText b
  | int n => Value.intText n
  | float x => Decimal.FloatStyle.json.render x
  | text s => quoted s
  | array items => "[" ++ String.intercalate "," (renderItems items) ++ "]"
  | object members => "\x7b" ++ String.intercalate "," (renderMembers members) ++ "\x7d"

/-- The compact texts of several documents. -/
def renderItems : List Json → List String
  | [] => []
  | j :: rest => j.render :: renderItems rest

/-- The compact texts of members: quoted name, colon, document. -/
def renderMembers : List (String × Json) → List String
  | [] => []
  | (k, j) :: rest => (quoted k ++ ":" ++ j.render) :: renderMembers rest

end

/-! ### Values -/

mutual

/-- A value as a document: timestamps and identifiers as texts, floats that are not finite as
null. -/
def ofValue : Value → Json
  | .null => null
  | .bool b => bool b
  | .int n => int n.toInt
  | .float x => if x.isFinite then float x else null
  | .text s => text s
  | .timestamp t => text t.renderJoined
  | .uuid u => text u.render
  | .list items => array (ofItems items)
  | .map fields => object (ofFields fields)

/-- Several values as documents. -/
def ofItems : List Value → List Json
  | [] => []
  | v :: rest => ofValue v :: ofItems rest

/-- Fields as members. -/
def ofFields : List (String × Value) → List (String × Json)
  | [] => []
  | (k, v) :: rest => (k, ofValue v) :: ofFields rest

end

end Json

namespace Value

/-- A number without point or exponent: an integer if it fits sixty-four signed bits, else a
float. -/
def ofInteger (n : Int) : Value :=
  if -Int.pow 2 63 ≤ n ∧ n < Int.pow 2 63 then int (Int64.ofInt n)
  else float (Decimal.doubleOfInt n)

theorem ofInteger_ne_null (n : Int) : ofInteger n ≠ null := by
  rw [ofInteger]
  split <;> exact nofun

mutual

/-- A document as a value. -/
def ofJson : Json → Value
  | .null => null
  | .bool b => bool b
  | .int n => ofInteger n
  | .float x => float x
  | .text s => text s
  | .array items => list (ofJsonItems items)
  | .object members => map (ofJsonMembers members)

/-- Several documents as values. -/
def ofJsonItems : List Json → List Value
  | [] => []
  | j :: rest => ofJson j :: ofJsonItems rest

/-- Members as fields. -/
def ofJsonMembers : List (String × Json) → List (String × Value)
  | [] => []
  | (k, j) :: rest => (k, ofJson j) :: ofJsonMembers rest

end

end Value

end SqlAccess
