/-
**Configuration texts.**

The reader for TOML texts: names with values, values in arrays and tables, and tables opened by
headers.  Brackets and dotted names may be nested to a depth of eighty.

Main definitions:

* `SqlAccess.Toml` — documents;
* `SqlAccess.Toml.Entry` — the lines of a document: headers and pairs;
* `SqlAccess.Toml.read?` — the document that a text denotes.
-/

import SqlAccess.Config.Scalar
import SqlAccess.Fields
import SqlAccess.Text.Word
import SqlAccess.Uuid

set_option autoImplicit false

namespace SqlAccess

/-! ### Documents -/

/-- How a table came to be, which decides how it may be added to. -/
inductive Toml.Origin where
  /-- By a header of its own. -/
  | header
  /-- As part of the path of another header. -/
  | implied
  /-- By a dotted name. -/
  | dotted
  /-- By braces; nothing can be added. -/
  | inline
  deriving DecidableEq, Repr, Inhabited

/-- A document or a part of one. -/
inductive Toml where
  | text (s : String)
  | scalar (s : Toml.Scalar)
  | array (items : List Toml)
  | table (origin : Toml.Origin) (entries : List (String × Toml))
  /-- Tables that were each opened by a doubled header. -/
  | tables (items : List Toml)
  deriving Inhabited

namespace Toml

/-! ### Blanks, comments and line ends -/

/-- A control character that no text or comment may hold. -/
def isControl (c : Char) : Bool := (c.toNat < 0x20 && c != '\t') || c.toNat == 0x7F

/-- The text without the blanks at its start. -/
def skipGap (cs : List Char) : List Char := cs.dropWhile isGap

/-- The rest after a line end. -/
def lineEnd? : List Char → Option (List Char)
  | '\n' :: rest => some rest
  | '\r' :: '\n' :: rest => some rest
  | _ => none

/-- The text without a comment at its start. -/
def skipComment (cs : List Char) : List Char :=
  match cs with
  | '#' :: rest => rest.dropWhile fun c => !isControl c
  | _ => cs

/-- The rest after blanks, a comment and the end of the line or of the text. -/
def endLine? (cs : List Char) : Option (List Char) :=
  match skipComment (skipGap cs) with
  | [] => some []
  | rest => lineEnd? rest

/-- The text without blanks, comments and line ends at its start; `fuel` bounds their number. -/
def skipLines : Nat → List Char → List Char
  | 0, cs => cs
  | fuel + 1, cs =>
    let rest := skipComment (skipGap cs)
    match lineEnd? rest with
    | some more => skipLines fuel more
    | none => rest

/-! ### Texts -/

/-- The character with the code point that hexadecimal digits denote. -/
def charOfHex? (ds : List Char) : Option Char := do
  let n := (← ds.mapM Uuid.hexValue?).foldl (fun n d => 16 * n + d) 0
  if n < 0xD800 ∨ (0xE000 ≤ n ∧ n < 0x110000) then some (Char.ofNat n) else none

/-- The character of so many hexadecimal digits at the start, and the rest. -/
def hexEscape? (count : Nat) (cs : List Char) : Option (Char × List Char) :=
  if (cs.take count).length = count then
    (charOfHex? (cs.take count)).map fun c => (c, cs.drop count)
  else none

/-- The character of an escape whose backslash is behind, and the rest. -/
def unescape? : List Char → Option (Char × List Char)
  | '"' :: rest => some ('"', rest)
  | '\\' :: rest => some ('\\', rest)
  | 'b' :: rest => some ('\x08', rest)
  | 'e' :: rest => some ('\x1b', rest)
  | 'f' :: rest => some ('\x0c', rest)
  | 'n' :: rest => some ('\n', rest)
  | 'r' :: rest => some ('\r', rest)
  | 't' :: rest => some ('\t', rest)
  | 'x' :: rest => hexEscape? 2 rest
  | 'u' :: rest => hexEscape? 4 rest
  | 'U' :: rest => hexEscape? 8 rest
  | _ => none

/-- The characters of a text with escapes up to its closing quote, and the rest. -/
def basicBody? : Nat → List Char → Option (List Char × List Char)
  | 0, _ => none
  | _ + 1, [] => none
  | _ + 1, '"' :: rest => some ([], rest)
  | fuel + 1, '\\' :: rest => do
    let (c, rest) ← unescape? rest
    let (cs, rest) ← basicBody? fuel rest
    return (c :: cs, rest)
  | fuel + 1, c :: rest =>
    if isControl c then none else (basicBody? fuel rest).map fun p => (c :: p.1, p.2)

/-- The characters of a text without escapes up to its closing quote, and the rest. -/
def literalBody? (cs : List Char) : Option (List Char × List Char) :=
  let (body, rest) := cs.span fun c => c != '\'' && !isControl c
  match rest with
  | '\'' :: rest => some (body, rest)
  | _ => none

/-- The text without blanks and line ends at its start. -/
def skipBlankLines : Nat → List Char → List Char
  | 0, cs => cs
  | fuel + 1, cs =>
    match lineEnd? (skipGap cs) with
    | some rest => skipBlankLines fuel rest
    | none => skipGap cs

/-- The rest after a backslash at the end of a line: all blanks and line ends are skipped. -/
def continueLine? (cs : List Char) : Option (List Char) :=
  (lineEnd? (skipGap cs)).map fun rest => skipBlankLines (rest.length + 1) rest

/-- The characters of a text over several lines up to its three closing quotes, and the rest.  Line
ends are kept as they are, and one or two quotes just before the closing ones belong to the text. -/
def longBody? (quote : Char) : Nat → List Char → Option (List Char × List Char)
  | 0, _ => none
  | fuel + 1, cs =>
    let quotes := (cs.takeWhile (· == quote)).length
    if 3 ≤ quotes then
      if quotes ≤ 5 then some (List.replicate (quotes - 3) quote, cs.drop quotes) else none
    else match cs with
      | [] => none
      | '\\' :: rest =>
        if quote = '"' then
          match continueLine? rest with
          | some rest => longBody? quote fuel rest
          | none => do
            let (c, rest) ← unescape? rest
            let (cs, rest) ← longBody? quote fuel rest
            return (c :: cs, rest)
        else (longBody? quote fuel rest).map fun p => ('\\' :: p.1, p.2)
      | '\r' :: '\n' :: rest =>
        (longBody? quote fuel rest).map fun p => ('\r' :: '\n' :: p.1, p.2)
      | c :: rest =>
        if isControl c && c != '\n' then none
        else (longBody? quote fuel rest).map fun p => (c :: p.1, p.2)

/-- A line end just after the three opening quotes is dropped. -/
def skipFirstLineEnd (cs : List Char) : List Char := (lineEnd? cs).getD cs

/-- The text at the start, and the rest; only a value may run over several lines. -/
def quotedText? (allowLong : Bool) (cs : List Char) : Option (List Char × List Char) :=
  match cs with
  | '"' :: '"' :: '"' :: rest =>
    if allowLong then longBody? '"' (rest.length + 1) (skipFirstLineEnd rest)
    else some ([], '"' :: rest)
  | '\'' :: '\'' :: '\'' :: rest =>
    if allowLong then longBody? '\'' (rest.length + 1) (skipFirstLineEnd rest)
    else some ([], '\'' :: rest)
  | '"' :: rest => basicBody? (rest.length + 1) rest
  | '\'' :: rest => literalBody? rest
  | _ => none

/-! ### Names -/

/-- What a name without quotes is made of. -/
def isNameChar (c : Char) : Bool := c.isAlphanum || c == '_' || c == '-'

/-- One part of a name, and the rest. -/
def namePart? (cs : List Char) : Option (String × List Char) :=
  let (plain, rest) := cs.span isNameChar
  if plain.isEmpty then (quotedText? false cs).map fun p => (String.ofList p.1, p.2)
  else some (String.ofList plain, rest)

/-- How many parts a name may have, and how many brackets may be open. -/
def maxDepth : Nat := 80

/-- At most so many parts of a name with dots and blanks between, and the rest. -/
def nameParts? : Nat → List Char → Option (List String × List Char)
  | 0, _ => none
  | room + 1, cs => do
    let (part, rest) ← namePart? (skipGap cs)
    match skipGap rest with
    | '.' :: more =>
      let (parts, rest) ← nameParts? room more
      return (part :: parts, rest)
    | rest => return ([part], rest)

/-- The parts of the name at the start, and the rest. -/
def name? (cs : List Char) : Option (List String × List Char) := nameParts? maxDepth cs

/-! ### Adding to tables -/

/-- The entries with one more at the end, unless its name is taken. -/
def insertEntryAt? (name : String) (value : Toml) (entries : List (String × Toml)) :
    Option (List (String × Toml)) :=
  if (findField? name entries).isSome then none else some (entries ++ [(name, value)])

/-- The entries with the value of a name replaced. -/
def replaceEntry (name : String) (value : Toml) (entries : List (String × Toml)) :
    List (String × Toml) :=
  entries.map fun e => if e.1 = name then (name, value) else e

/-- The table at a path changed by `f`.  Tables that are missing on the way come to be by `origin`;
a dotted name goes through tables of dotted names only, and nothing goes into an inline table. -/
def changeAt? (origin : Origin) (f : List (String × Toml) → Option (List (String × Toml))) :
    List String → List (String × Toml) → Option (List (String × Toml))
  | [], entries => f entries
  | name :: path, entries =>
    match findField? name entries with
    | none => do
      let inner ← changeAt? origin f path []
      return entries ++ [(name, table origin inner)]
    | some (table kind inner) =>
      if kind = .inline ∨ (origin = .dotted ∧ kind ≠ .dotted) then none
      else (changeAt? origin f path inner).map fun changed =>
        replaceEntry name (table kind changed) entries
    | some (tables items) =>
      match origin, items.getLast? with
      | .dotted, _ => none
      | _, some (table kind inner) =>
        (changeAt? origin f path inner).map fun changed =>
          replaceEntry name (tables (items.dropLast ++ [table kind changed])) entries
      | _, _ => none
    | some _ => none

/-- A pair put into the table at a path. -/
def putPair? (here names : List String) (value : Toml) (root : List (String × Toml)) :
    Option (List (String × Toml)) := do
  let last ← names.getLast?
  changeAt? .implied (changeAt? .dotted (insertEntryAt? last value) names.dropLast) here root

/-- A table opened by its header: it must be new, or only implied so far. -/
def openTable? (names : List String) (root : List (String × Toml)) :
    Option (List (String × Toml)) := do
  let last ← names.getLast?
  let openHere := fun entries =>
    match findField? last entries with
    | none => some (entries ++ [(last, table .header [])])
    | some (table .implied inner) => some (replaceEntry last (table .header inner) entries)
    | some _ => none
  changeAt? .implied openHere names.dropLast root

/-- One more table opened by a doubled header. -/
def openElement? (names : List String) (root : List (String × Toml)) :
    Option (List (String × Toml)) := do
  let last ← names.getLast?
  let openHere := fun entries =>
    match findField? last entries with
    | none => some (entries ++ [(last, tables [table .header []])])
    | some (tables items) =>
      some (replaceEntry last (tables (items ++ [table .header []])) entries)
    | some _ => none
  changeAt? .implied openHere names.dropLast root

/-! ### Values -/

mutual

/-- The value at the start, in which at most `room` brackets may be open at a time, and the rest. -/
def valueWithin? : Nat → Nat → List Char → Option (Toml × List Char)
  | _, 0, _ => none
  | room, fuel + 1, cs =>
    match cs with
    | '[' :: rest =>
      if room = 0 then none
      else (items? (room - 1) fuel rest).map fun p => (array p.1, p.2)
    | '{' :: rest =>
      if room = 0 then none
      else (members? (room - 1) fuel [] rest).map fun p => (table .inline p.1, p.2)
    | '"' :: _ | '\'' :: _ =>
      (quotedText? true cs).map fun p => (text (String.ofList p.1), p.2)
    | _ =>
      let (written, rest) := scalarAt cs
      (Scalar.ofText? written).map fun s => (scalar s, rest)

/-- The items of an array up to its closing bracket, and the rest. -/
def items? : Nat → Nat → List Char → Option (List Toml × List Char)
  | _, 0, _ => none
  | room, fuel + 1, cs =>
    match skipLines (cs.length + 1) cs with
    | ']' :: rest => some ([], rest)
    | cs => do
      let (item, rest) ← valueWithin? room fuel cs
      match skipLines (rest.length + 1) rest with
      | ',' :: rest => do
        let (items, rest) ← items? room fuel rest
        return (item :: items, rest)
      | ']' :: rest => return ([item], rest)
      | _ => none

/-- The members of an inline table up to its closing brace, and the rest. -/
def members? : Nat → Nat → List (String × Toml) → List Char →
    Option (List (String × Toml) × List Char)
  | _, 0, _, _ => none
  | room, fuel + 1, entries, cs =>
    match skipLines (cs.length + 1) cs with
    | '}' :: rest => some (entries, rest)
    | cs => do
      let (names, rest) ← name? cs
      match skipLines (rest.length + 1) rest with
      | '=' :: rest => do
        let (value, rest) ← valueWithin? room fuel (skipLines (rest.length + 1) rest)
        let entries ← putPair? [] names value entries
        match skipLines (rest.length + 1) rest with
        | ',' :: rest => members? room fuel entries rest
        | '}' :: rest => return (entries, rest)
        | _ => none
      | _ => none

end

/-- The value at the start, and the rest. -/
def value? (cs : List Char) : Option (Toml × List Char) :=
  valueWithin? maxDepth (cs.length + 1) cs

/-! ### Lines -/

/-- A line of a document. -/
inductive Entry where
  | header (names : List String)
  | elementHeader (names : List String)
  | pair (names : List String) (value : Toml)
  deriving Inhabited

/-- A header, whose bracket is behind, with its closing bracket. -/
def header? (cs : List Char) : Option (Entry × List Char) :=
  match cs with
  | '[' :: rest => do
    let (names, rest) ← name? rest
    match rest with
    | ']' :: ']' :: rest => return (.elementHeader names, rest)
    | _ => none
  | _ => do
    let (names, rest) ← name? cs
    match rest with
    | ']' :: rest => return (.header names, rest)
    | _ => none

/-- The entry at the start, and the rest. -/
def entry? (cs : List Char) : Option (Entry × List Char) :=
  match cs with
  | '[' :: rest => header? rest
  | _ => do
    let (names, rest) ← name? cs
    match rest with
    | '=' :: rest => do
      let (value, rest) ← value? (skipGap rest)
      return (.pair names value, rest)
    | _ => none

/-- The entries of a document, each on a line of its own. -/
def entries? : Nat → List Char → Option (List Entry)
  | 0, _ => none
  | fuel + 1, cs =>
    match skipLines (cs.length + 1) cs with
    | [] => some []
    | cs => do
      let (entry, rest) ← entry? cs
      return entry :: (← entries? fuel (← endLine? rest))

/-- One entry added to the root, where `here` is the path of the table that is open. -/
def addLine? (state : List String × List (String × Toml)) (entry : Entry) :
    Option (List String × List (String × Toml)) :=
  match entry with
  | .header names => (openTable? names state.2).map fun root => (names, root)
  | .elementHeader names => (openElement? names state.2).map fun root => (names, root)
  | .pair names value => (putPair? state.1 names value state.2).map fun root => (state.1, root)

/-- The document that a text denotes; a byte-order mark at its start is skipped. -/
def read? (text : String) : Option (List (String × Toml)) := do
  let cs := match text.toList with
    | '\ufeff' :: rest => rest
    | cs => cs
  let entries ← entries? (cs.length + 1) cs
  return (← entries.foldlM addLine? ([], [])).2

end Toml

end SqlAccess
