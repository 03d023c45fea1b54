/-
**Reading conditions.**

From loosest to tightest a condition is built by `|`, by `&`, by braces and by units.  A unit is a
position, meaning equality, or a field and an operator with a dot between.  Both separators group
to the right.  Braces may not be nested, and that is checked before anything else.

Main definitions:

* `SqlAccess.Condition.testBraces` — the test of the braces;
* `SqlAccess.Condition.cutTopLevel` — the first separator outside braces;
* `SqlAccess.Condition.Operator.parse` — the operator that a text names;
* `SqlAccess.Condition.readUnit` — a unit resolved against the table;
* `SqlAccess.Condition.parse` — the reader.

Main results:

* `SqlAccess.Condition.eq_of_cutTopLevel` — cutting loses nothing but the separator.
-/

import SqlAccess.Text.Cut
import SqlAccess.Condition.Basic
import SqlAccess.Condition.Fault

set_option autoImplicit false

namespace SqlAccess.Condition

/-! ### Braces -/

/-- The depth after the text, or `none` if a brace closes that none has opened. -/
def braceDepth? : Nat → List Char → Option Nat
  | depth, [] => some depth
  | depth, c :: cs =>
    if c = '{' then braceDepth? (depth + 1) cs
    else if c = '}' then if depth = 0 then none else braceDepth? (depth - 1) cs
    else braceDepth? depth cs

/-- Whether a brace opens while another is open. -/
def opensNested : Nat → List Char → Bool
  | _, [] => false
  | depth, c :: cs =>
    if c = '{' then depth != 0 || opensNested (depth + 1) cs
    else if c = '}' then opensNested (depth - 1) cs
    else opensNested depth cs

/-- Braces must pair up, and then must not be nested. -/
def testBraces (source : String) : Except Fault Unit :=
  if braceDepth? 0 source.toList ≠ some 0 then .error (.unbalancedBraces source)
  else if opensNested 0 source.toList then .error (.nestedBraces source)
  else .ok ()

/-! ### Cutting at separators -/

/-- The text before and after the first `sep` outside braces, when `depth` braces are open. -/
def cutTopLevel (sep : Char) : Nat → List Char → Option (List Char × List Char)
  | _, [] => none
  | depth, c :: cs =>
    let keep := fun (p : List Char × List Char) => (c :: p.1, p.2)
    if c = '{' then (cutTopLevel sep (depth + 1) cs).map keep
    else if c = '}' then (cutTopLevel sep (depth - 1) cs).map keep
    else if c = sep ∧ depth = 0 then some ([], cs)
    else (cutTopLevel sep depth cs).map keep

theorem eq_of_cutTopLevel {sep : Char} {depth : Nat} {cs left right : List Char}
    (h : cutTopLevel sep depth cs = some (left, right)) : cs = left ++ sep :: right := by
  induction cs generalizing depth left with
  | nil => simp [cutTopLevel] at h
  | cons c cs ih =>
    have step : ∀ d, (cutTopLevel sep d cs).map (fun p => (c :: p.1, p.2)) = some (left, right) →
        c :: cs = left ++ sep :: right := by
      intro d hd
      obtain ⟨p, hp, hq⟩ := Option.map_eq_some_iff.1 hd
      simp only [Prod.mk.injEq] at hq
      rw [ih (show cutTopLevel sep d cs = some (p.1, right) by rw [hp, ← hq.2]), ← hq.1,
        List.cons_append]
    unfold cutTopLevel at h
    split at h
    · exact step _ h
    · split at h
      · exact step _ h
      · split at h
        · rename_i hc
          simp only [Option.some.injEq, Prod.mk.injEq] at h
          simp [← h.1, ← h.2, hc.1]
        · exact step _ h

/-- The body of a text that is one group: braces at both ends and none between. -/
def groupBody? (cs : List Char) : Option (List Char) :=
  match cs with
  | '{' :: rest =>
    match rest.getLast? with
    | some '}' =>
      let body := rest.dropLast
      if body.contains '{' || body.contains '}' then none else some body
    | _ => none
  | _ => none

/-! ### Units -/

/-- The largest position that can be written; a larger one is read as this. -/
def maxIndex : Nat := Nat.pow 2 64 - 1

/-- The position that digits denote. -/
def indexValue (cs : List Char) : Nat := min (Text.digitsValue cs) maxIndex

/-- The column that a field stands for. -/
def resolve (table : Table) (field : Field) (op : Operator) : Except Fault Predicate :=
  match field with
  | .index position =>
    match table.columnAt? position with
    | some column => .ok ⟨field, column, op⟩
    | none => .error (.indexOutOfRange position table.columns.length)
  | .name text =>
    match table.columnNamed? text with
    | some column => .ok ⟨field, column, op⟩
    | none => .error (.unknownField text)

/-- A field as written: digits are a position, anything else a name. -/
def Field.ofText (cs : List Char) : Field :=
  if Text.isDigits cs then .index (indexValue cs) else .name (String.ofList cs)

/-- The operator that a text names, or the error that it names none. -/
def Operator.parse (text : List Char) : Except Fault Operator :=
  match ofText? text with
  | some op => .ok op
  | none => .error (.unknownOperator (String.ofList (Text.trim text)))

/-- A unit: digits alone compare the column at that position for equality; otherwise the last dot
stands between the field and the operator. -/
def readUnit (table : Table) (source : String) (unit : List Char) :
    Except Fault Predicate :=
  if Text.isDigits unit then resolve table (.index (indexValue unit)) .eq
  else match Text.cutLast? '.' unit with
    | none => .error (.missingOperator (String.ofList unit))
    | some (before, after) =>
      let field := Text.trim before
      if field.isEmpty then .error (.emptyExpression source)
      else match Operator.parse after with
        | .error e => .error e
        | .ok op => resolve table (Field.ofText field) op

/-! ### Conditions -/

theorem length_dropTrailing_le (p : Char → Bool) (cs : List Char) :
    (Text.dropTrailing p cs).length ≤ cs.length := by
  have h := (List.dropWhile_sublist p (l := cs.reverse)).length_le
  simpa [Text.dropTrailing] using h

theorem length_trim_le (cs : List Char) : (Text.trim cs).length ≤ cs.length :=
  Nat.le_trans (length_dropTrailing_le _ _) (List.dropWhile_sublist _).length_le

theorem length_lt_of_groupBody? {cs body : List Char} (h : groupBody? cs = some body) :
    body.length < cs.length := by
  unfold groupBody? at h
  split at h
  · rename_i rest
    split at h
    · dsimp only at h
      split at h
      · simp at h
      · simp only [Option.some.injEq] at h
        rw [← h, List.length_dropLast, List.length_cons]
        omega
    · simp at h
  · simp at h

/-- A part of a condition: cut at the first top-level `|`, else at the first top-level `&`, else a
group, else a unit. -/
def parsePart (table : Table) (source : String) (cs : List Char) : Except Fault Condition :=
  if (Text.trim cs).isEmpty then .error (.emptyExpression source)
  else match _hor : cutTopLevel '|' 0 (Text.trim cs) with
    | some (left, right) => do
      return .or (← parsePart table source left) (← parsePart table source right)
    | none => match _hand : cutTopLevel '&' 0 (Text.trim cs) with
      | some (left, right) => do
        return .and (← parsePart table source left) (← parsePart table source right)
      | none => match _hgroup : groupBody? (Text.trim cs) with
        | some body => do return .group (← parsePart table source body)
        | none => do return .simple (← readUnit table source (Text.trim cs))
  termination_by cs.length
  decreasing_by
    all_goals have htrim := length_trim_le cs
    · have h := congrArg List.length (eq_of_cutTopLevel _hor)
      simp only [List.length_append, List.length_cons] at h
      omega
    · have h := congrArg List.length (eq_of_cutTopLevel _hor)
      simp only [List.length_append, List.length_cons] at h
      omega
    · have h := congrArg List.length (eq_of_cutTopLevel _hand)
      simp only [List.length_append, List.length_cons] at h
      omega
    · have h := congrArg List.length (eq_of_cutTopLevel _hand)
      simp only [List.length_append, List.length_cons] at h
      omega
    · have h := length_lt_of_groupBody? _hgroup
      omega

/-- The condition that a text denotes over a table. -/
def parse (table : Table) (source : String) : Except Fault Condition := do
  testBraces source
  parsePart table source source.toList

end SqlAccess.Condition
