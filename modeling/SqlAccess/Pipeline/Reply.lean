/-
**Replies.**

What travels back through the pipeline is a value of one of a few kinds; the caller knows which kind
it asked for.

Main definitions:

* `SqlAccess.ReplyKind`, `SqlAccess.Reply` — the kinds and the values;
* `SqlAccess.Reply.expect` — a reply that must be of a kind.
-/

import SqlAccess.Error
import SqlAccess.Row.Basic

set_option autoImplicit false

namespace SqlAccess

/-- The kinds of replies. -/
inductive ReplyKind where
  | affected
  | rows
  | integers
  | texts
  | optionalRow
  | integer
  | optionalInteger
  | optionalValue
  | text
  deriving DecidableEq, Repr, Inhabited

/-- The name of a kind. -/
def ReplyKind.name : ReplyKind → String
  | affected => "number of rows"
  | rows => "rows"
  | integers => "integers"
  | texts => "texts"
  | optionalRow => "optional row"
  | integer => "integer"
  | optionalInteger => "optional integer"
  | optionalValue => "optional value"
  | text => "text"

/-- What travels back through the pipeline. -/
inductive Reply where
  | affected (count : UInt64)
  | rows (rows : List Row)
  | integers (items : List Int64)
  | texts (items : List String)
  | optionalRow (row : Option Row)
  | integer (n : Int64)
  | optionalInteger (item : Option Int64)
  | optionalValue (value : Option Value)
  | text (s : String)
  deriving Inhabited

namespace Reply

/-- The kind of a reply. -/
def kind : Reply → ReplyKind
  | affected _ => .affected
  | rows _ => .rows
  | integers _ => .integers
  | texts _ => .texts
  | optionalRow _ => .optionalRow
  | integer _ => .integer
  | optionalInteger _ => .optionalInteger
  | optionalValue _ => .optionalValue
  | text _ => .text

/-- The reply itself, if it is of the kind asked for. -/
def expect (kind : ReplyKind) (r : Reply) : Outcome Reply :=
  if r.kind = kind then .ok r else .error (.unexpectedReply kind.name)

/-- The count of affected rows, if the reply is one. -/
def affected? : Reply → Option UInt64
  | affected count => some count
  | _ => none

end Reply

end SqlAccess
