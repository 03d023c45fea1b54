/-
**Reading JSON.**

Tokens are taken one by one; the arrays and objects that are still open form a stack.

Main definitions:

* `SqlAccess.Json.Frame`, `SqlAccess.Json.ReaderState` — what is open, and what may come next;
* `SqlAccess.Json.ReaderState.step?` — one token;
* `SqlAccess.Json.read?` — the document that a text denotes.
-/

import SqlAccess.Json.Token

set_option autoImplicit false

namespace SqlAccess.Json

/-- An array or object that is still open. -/
inductive Frame where
  /-- The items so far, the last first. -/
  | array (items : List Json)
  /-- The members so far in the order of their names, and the name whose value comes next. -/
  | object (members : List (String × Json)) (name : String)
  deriving Inhabited

/-- What may come next. -/
inductive Expecting where
  | value
  | valueOrClose
  | name
  | nameOrClose
  | colon
  | commaOrClose
  | nothing (document : Json)
  deriving Inhabited

/-- What is open, innermost first, and what may come next. -/
structure ReaderState where
  frames : List Frame
  expecting : Expecting
  deriving Inhabited

namespace ReaderState

/-- How many arrays and objects may be open at once. -/
def maxDepth : Nat := 127

/-- Nothing read yet. -/
def start : ReaderState := ⟨[], .value⟩

/-- A complete document takes its place in the innermost open one. -/
def complete (frames : List Frame) (j : Json) : ReaderState :=
  match frames with
  | [] => ⟨[], .nothing j⟩
  | .array items :: outer => ⟨.array (j :: items) :: outer, .commaOrClose⟩
  | .object members name :: outer =>
    ⟨.object (insertField name j members) name :: outer, .commaOrClose⟩

/-- One more array or object is open. -/
def opened? (frames : List Frame) (frame : Frame) (expecting : Expecting) : Option ReaderState :=
  if frames.length < maxDepth then some ⟨frame :: frames, expecting⟩ else none

/-- A token where a value may come. -/
def value? (frames : List Frame) : Token → Option ReaderState
  | .openArray => opened? frames (.array []) .valueOrClose
  | .openObject => opened? frames (.object [] "") .nameOrClose
  | .scalar j => some (complete frames j)
  | _ => none

/-- A token where a name may come. -/
def name? (frames : List Frame) : Token → Option ReaderState
  | .scalar (.text s) =>
    match frames with
    | .object members _ :: outer => some ⟨.object members s :: outer, .colon⟩
    | _ => none
  | _ => none

/-- A token that closes the innermost array or object. -/
def close? (frames : List Frame) : Token → Option ReaderState
  | .closeArray =>
    match frames with
    | .array items :: outer => some (complete outer (.array items.reverse))
    | _ => none
  | .closeObject =>
    match frames with
    | .object members _ :: outer => some (complete outer (.object members))
    | _ => none
  | _ => none

/-- One token. -/
def step? (s : ReaderState) (t : Token) : Option ReaderState :=
  match s.expecting with
  | .value => value? s.frames t
  | .valueOrClose => (close? s.frames t).or (value? s.frames t)
  | .name => name? s.frames t
  | .nameOrClose => (close? s.frames t).or (name? s.frames t)
  | .colon =>
    match t with
    | .colon => some ⟨s.frames, .value⟩
    | _ => none
  | .commaOrClose =>
    match t, s.frames with
    | .comma, .array _ :: _ => some ⟨s.frames, .value⟩
    | .comma, .object _ _ :: _ => some ⟨s.frames, .name⟩
    | _, _ => close? s.frames t
  | .nothing _ => none

end ReaderState

/-- The document that tokens make up. -/
def ofTokens? (tokens : List Token) : Option Json :=
  match tokens.foldlM ReaderState.step? ReaderState.start with
  | some ⟨_, .nothing j⟩ => some j
  | _ => none

/-- The document that a text denotes. -/
def read? (text : String) : Option Json := (tokens? text.toList).bind ofTokens?

end SqlAccess.Json
