/-
**Values.**

What a statement binds to its markers and what a scope holds: one dynamic type, since scopes, rows
and JSON documents bring values whose shape is known only when they arrive.  The fields of a map
are kept in ascending order of their keys.

Main definitions:

* `SqlAccess.Value` — the type;
* `SqlAccess.Value.ofFields` — the map with some fields;
* `SqlAccess.Value.isTruthy` — what counts as true in a guard;
* `SqlAccess.Value.get?` — one step of a path, into a map or a list;
* `SqlAccess.Value.render`, `SqlAccess.Value.tagged` — a value as plain text, and with its type.
-/

import SqlAccess.Fields
import SqlAccess.Text.Quoted
import SqlAccess.Decimal.Layout
import SqlAccess.Time.Timestamp
import SqlAccess.Uuid

set_option autoImplicit false

namespace SqlAccess

/-- A value of any shape. -/
inductive Value where
  | null
  | bool (b : Bool)
  | int (n : Int64)
  | float (x : Float)
  | text (s : String)
  | timestamp (t : Timestamp)
  | uuid (u : Uuid)
  | list (items : List Value)
  /-- Fields in ascending order of their keys. -/
  | map (fields : List (String × Value))
  deriving Inhabited

namespace Value

/-- The map with these fields; of fields with one key the last stays. -/
def ofFields (fields : List (String × Value)) : Value := map (orderFields fields)

/-! ### From other types -/

/-- A number in single precision; double precision holds it exactly. -/
def ofSingle (x : Float32) : Value := float x.toFloat

/-- A date, as its first moment. -/
def ofDate (d : Date) : Value := timestamp (.midnight d)

/-! ### Shape -/

/-- Whether the value is null. -/
def isNull : Value → Bool
  | null => true
  | _ => false

/-- Null, `false`, zero and empty texts, lists and maps are false; all else is true. -/
def isTruthy : Value → Bool
  | null => false
  | bool b => b
  | int n => n != 0
  | float x => x != 0.0
  | text s => !s.toList.isEmpty
  | list items => !items.isEmpty
  | map fields => !fields.isEmpty
  | timestamp _ | uuid _ => true

/-- The items of a list. -/
def asList? : Value → Option (List Value)
  | list items => some items
  | _ => none

/-- A position in a list: digits with an optional plus sign, below `2 ^ 64`. -/
def position? (segment : List Char) : Option Nat :=
  let ds := match segment with
    | '+' :: rest => rest
    | rest => rest
  if Text.isDigits ds ∧ Text.digitsValue ds < Nat.pow 2 64 then some (Text.digitsValue ds)
  else none

/-- One step of a path: the field of a map, or the item at a position of a list. -/
def get? (v : Value) (segment : List Char) : Option Value :=
  match v with
  | map fields => findField? (String.ofList segment) fields
  | list items => (position? segment).bind fun i => items[i]?
  | _ => none

/-! ### Text -/

/-- A number as text, with a minus sign if it is negative. -/
def intText (n : Int) : String :=
  String.ofList ((if n < 0 then ['-'] else []) ++ Text.digits n.natAbs)

/-- A Boolean as text. -/
def boolText (b : Bool) : String := if b then "true" else "false"

mutual

/-- The plain text of a value, as it is spliced into a key. -/
def render : Value → String
  | null => "null"
  | bool b => boolText b
  | int n => intText n.toInt
  | float x => Decimal.FloatStyle.plain.render x
  | text s => s
  | timestamp t => t.render
  | uuid u => u.render
  | list items => String.intercalate "," (renderItems items)
  | map fields => "\x7b" ++ String.intercalate "," (renderFields fields) ++ "\x7d"

/-- The plain texts of several values. -/
def renderItems : List Value → List String
  | [] => []
  | v :: rest => v.render :: renderItems rest

/-- The plain texts of fields: key, colon, value. -/
def renderFields : List (String × Value) → List String
  | [] => []
  | (k, v) :: rest => (k ++ ":" ++ v.render) :: renderFields rest

end

mutual

/-- The text of a value that shows its type, as it is logged. -/
def tagged : Value → String
  | null => "NULL"
  | bool b => "Bool(" ++ boolText b ++ ")"
  | int n => "Int(" ++ intText n.toInt ++ ")"
  | float x => "Float(" ++ Decimal.FloatStyle.plain.render x ++ ")"
  | text s => "Text(" ++ Text.quoted s ++ ")"
  | timestamp t => "DATETIME(" ++ t.toSeconds ++ ")"
  | uuid u => "Uuid(" ++ u.render ++ ")"
  | list items => "List[" ++ String.intercalate ", " (taggedItems items) ++ "]"
  | map fields => "Map\x7b" ++ String.intercalate ", " (taggedFields fields) ++ "\x7d"

/-- The tagged texts of several values. -/
def taggedItems : List Value → List String
  | [] => []
  | v :: rest => v.tagged :: taggedItems rest

/-- The tagged texts of fields: key, colon, value. -/
def taggedFields : List (String × Value) → List String
  | [] => []
  | (k, v) :: rest => (k ++ ": " ++ v.tagged) :: taggedFields rest

end

mutual

/-- The text of a value as an expression, with every type shown. -/
def literal : Value → String
  | null => "Null"
  | bool b => "Bool(" ++ boolText b ++ ")"
  | int n => "Int(" ++ intText n.toInt ++ ")"
  | float x => "Float(" ++ Decimal.FloatStyle.literal.render x ++ ")"
  | text s => "Text(" ++ Text.quoted s ++ ")"
  | timestamp t => "Timestamp(" ++ t.renderJoined ++ ")"
  | uuid u => "Uuid(" ++ u.render ++ ")"
  | list items => "List([" ++ String.intercalate ", " (literalItems items) ++ "])"
  | map fields => "Map(\x7b" ++ String.intercalate ", " (literalFields fields) ++ "\x7d)"

/-- The expressions of several values. -/
def literalItems : List Value → List String
  | [] => []
  | v :: rest => v.literal :: literalItems rest

/-- The expressions of fields: quoted key, colon, value. -/
def literalFields : List (String × Value) → List String
  | [] => []
  | (k, v) :: rest => (Text.quoted k ++ ": " ++ v.literal) :: literalFields rest

end

end Value

end SqlAccess
