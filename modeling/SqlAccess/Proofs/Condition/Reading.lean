/-
**How conditions are read.**

The reader trims each part before it looks for a separator in it.  That the blanks do not matter is
proved first; the reader then obeys three equations about the part as it stands.  They are put
together in an inductive account of all successful readings, on which the later proofs rest.

Main definitions:

* `SqlAccess.Condition.ReadsUnit` — the units and their predicates;
* `SqlAccess.Condition.Reads` — the parts of a text and the conditions that they denote.

Main results:

* `SqlAccess.Condition.parsePart_or`, `SqlAccess.Condition.parsePart_and`,
  `SqlAccess.Condition.parsePart_atom` — the equations;
* `SqlAccess.Condition.readUnit_eq_ok_iff`, `SqlAccess.Condition.parsePart_eq_ok_iff`,
  `SqlAccess.Condition.parse_eq_ok_iff` — the reader succeeds exactly as `Reads` says.
-/

import SqlAccess.Proofs.Except
import SqlAccess.Proofs.Text.Cut
import SqlAccess.Proofs.Condition.Braces

set_option autoImplicit false

namespace SqlAccess.Condition

variable {table : Table} {source : String} {cs left right body : List Char}

/-! ### The equations of the reader -/

/-- The reader sees only the trimmed part. -/
theorem parsePart_eq (table : Table) (source : String) (cs : List Char) :
    parsePart table source cs =
      if (Text.trim cs).isEmpty then .error (.emptyExpression source)
      else match cutTopLevel '|' 0 (Text.trim cs) with
        | some (left, right) => do
          return .or (← parsePart table source left) (← parsePart table source right)
        | none => match cutTopLevel '&' 0 (Text.trim cs) with
          | some (left, right) => do
            return .and (← parsePart table source left) (← parsePart table source right)
          | none => match groupBody? (Text.trim cs) with
            | some body => do return .group (← parsePart table source body)
            | none => do return .simple (← readUnit table source (Text.trim cs)) := by
  rw [parsePart]
  split
  · rfl
  · split <;> rename_i hor <;> simp only [hor]
    split <;> rename_i hand <;> simp only [hand]
    split <;> rename_i hgroup <;> simp only [hgroup]

theorem parsePart_congr (h : Text.trim left = Text.trim right) :
    parsePart table source left = parsePart table source right := by
  rw [parsePart_eq, h, ← parsePart_eq]

theorem trim_ne_nil_of_cutTopLevel {sep : Char} (hsep : IsSeparator sep)
    (h : cutTopLevel sep 0 cs = some (left, right)) : Text.trim cs ≠ [] := by
  intro hnil
  obtain ⟨l, r, hcut, -, -⟩ := cutTopLevel_trim_of_some hsep h
  rw [hnil] at hcut
  cases hcut

theorem parsePart_or (hcut : cutTopLevel '|' 0 cs = some (left, right)) :
    parsePart table source cs =
      (do return .or (← parsePart table source left) (← parsePart table source right)) := by
  obtain ⟨l, r, htrim, hl, hr⟩ := cutTopLevel_trim_of_some .or hcut
  have hne := trim_ne_nil_of_cutTopLevel .or hcut
  rw [parsePart_eq, if_neg (by simpa using hne), htrim, ← parsePart_congr hl,
    ← parsePart_congr hr]

theorem parsePart_and (hor : cutTopLevel '|' 0 cs = none)
    (hcut : cutTopLevel '&' 0 cs = some (left, right)) :
    parsePart table source cs =
      (do return .and (← parsePart table source left) (← parsePart table source right)) := by
  obtain ⟨l, r, htrim, hl, hr⟩ := cutTopLevel_trim_of_some .and hcut
  have hne := trim_ne_nil_of_cutTopLevel .and hcut
  rw [parsePart_eq, if_neg (by simpa using hne), cutTopLevel_trim_of_none .or hor, htrim,
    ← parsePart_congr hl, ← parsePart_congr hr]

/-- What is left without a separator: nothing, a group or a unit. -/
theorem parsePart_atom (hor : cutTopLevel '|' 0 cs = none) (hand : cutTopLevel '&' 0 cs = none) :
    parsePart table source cs =
      if (Text.trim cs).isEmpty then .error (.emptyExpression source)
      else match groupBody? (Text.trim cs) with
        | some body => do return .group (← parsePart table source body)
        | none => do return .simple (← readUnit table source (Text.trim cs)) := by
  rw [parsePart_eq, cutTopLevel_trim_of_none .or hor, cutTopLevel_trim_of_none .and hand]

/-! ### Groups -/

/-- A group is a body without braces between two braces. -/
theorem groupBody?_eq_some_iff :
    groupBody? cs = some body ↔ cs = '{' :: (body ++ ['}']) ∧ NoBrace body := by
  constructor
  · intro h
    unfold groupBody? at h
    split at h
    · rename_i rest
      split at h
      · rename_i hlast
        dsimp only at h
        split at h
        · cases h
        · rename_i hbrace
          obtain rfl := Option.some.inj h
          obtain ⟨init, rfl⟩ := List.getLast?_eq_some_iff.1 hlast
          simp only [List.dropLast_concat, Bool.or_eq_true, List.contains_iff_mem, not_or]
            at hbrace ⊢
          exact ⟨trivial, hbrace⟩
      · cases h
    · cases h
  · rintro ⟨rfl, ho, hc⟩
    simp [groupBody?, ho, hc]

/-! ### Units -/

/-- The unit and its predicate: digits alone compare the column at that position for equality, and
else the last dot stands between the field and the operator. -/
inductive ReadsUnit (table : Table) : List Char → Predicate → Prop where
  | index {unit : List Char} {p : Predicate} (hdigits : Text.isDigits unit = true)
      (hcolumn : resolve table (.index (indexValue unit)) .eq = .ok p) : ReadsUnit table unit p
  | dotted {before after : List Char} {op : Operator} {p : Predicate}
      (hdot : '.' ∉ after) (hfield : Text.trim before ≠ [])
      (hop : Operator.ofText? after = some op)
      (hcolumn : resolve table (Field.ofText (Text.trim before)) op = .ok p) :
      ReadsUnit table (before ++ '.' :: after) p

/-- A predicate keeps its field and operator, and its column is one of the table's. -/
theorem resolve_eq_ok {field : Field} {op : Operator} {p : Predicate}
    (h : resolve table field op = .ok p) :
    p.field = field ∧ p.op = op ∧ p.column ∈ table.columns := by
  unfold resolve at h
  split at h
  · split at h
    · rename_i column hcolumn
      cases h
      unfold Table.columnAt? at hcolumn
      split at hcolumn
      · cases hcolumn
      · exact ⟨rfl, rfl, List.mem_of_getElem? hcolumn⟩
    · cases h
  · split at h
    · rename_i column hcolumn
      cases h
      exact ⟨rfl, rfl, List.mem_of_find?_eq_some hcolumn⟩
    · cases h

theorem isDigits_append_dot (before after : List Char) :
    Text.isDigits (before ++ '.' :: after) = false := by
  simp [Text.isDigits, show ('.').isDigit = false from by decide]

/-- A unit is read exactly as `ReadsUnit` says. -/
theorem readUnit_eq_ok_iff {unit : List Char} {p : Predicate} :
    readUnit table source unit = .ok p ↔ ReadsUnit table unit p := by
  unfold readUnit
  constructor
  · intro h
    split at h
    · rename_i hdigits
      exact .index hdigits h
    · split at h
      · cases h
      · rename_i before after hcut
        obtain ⟨rfl, hdot⟩ := Text.cutLast?_eq_some_iff.1 hcut
        dsimp only at h
        split at h
        · cases h
        · rename_i hfield
          split at h
          · cases h
          · rename_i op hop
            refine .dotted hdot (by simpa using hfield) ?_ h
            unfold Operator.parse at hop
            split at hop
            · rename_i hof
              rw [hof, Except.ok.inj hop]
            · cases hop
  · intro h
    cases h with
    | index hdigits hcolumn => rw [if_pos hdigits, hcolumn]
    | @dotted before after op p hdot hfield hop hcolumn =>
        have hparse : Operator.parse after = .ok op := by simp only [Operator.parse, hop]
        rw [if_neg (by simp [isDigits_append_dot]), Text.cutLast?_eq_some_iff.2 ⟨rfl, hdot⟩]
        dsimp only
        rw [if_neg (by simpa using hfield), hparse]
        exact hcolumn

/-! ### Successful readings -/

/-- The part of a text and the condition that it denotes. -/
inductive Reads (table : Table) : List Char → Condition → Prop where
  | or {cs left right : List Char} {l r : Condition}
      (hcut : cutTopLevel '|' 0 cs = some (left, right)) (hl : Reads table left l)
      (hr : Reads table right r) : Reads table cs (.or l r)
  | and {cs left right : List Char} {l r : Condition} (hor : cutTopLevel '|' 0 cs = none)
      (hcut : cutTopLevel '&' 0 cs = some (left, right)) (hl : Reads table left l)
      (hr : Reads table right r) : Reads table cs (.and l r)
  | group {cs body : List Char} {c : Condition} (hor : cutTopLevel '|' 0 cs = none)
      (hand : cutTopLevel '&' 0 cs = none) (hgroup : groupBody? (Text.trim cs) = some body)
      (hbody : Reads table body c) : Reads table cs (.group c)
  | unit {cs : List Char} {p : Predicate} (hor : cutTopLevel '|' 0 cs = none)
      (hand : cutTopLevel '&' 0 cs = none) (hgroup : groupBody? (Text.trim cs) = none)
      (hunit : ReadsUnit table (Text.trim cs) p) : Reads table cs (.simple p)

theorem ReadsUnit.ne_nil {unit : List Char} {p : Predicate} (h : ReadsUnit table unit p) :
    unit ≠ [] := by
  cases h with
  | index hdigits _ => exact fun hnil => by simp [hnil, Text.isDigits] at hdigits
  | dotted _ _ _ _ => simp

theorem Reads.parsePart_eq_ok {c : Condition} (h : Reads table cs c) :
    parsePart table source cs = .ok c := by
  induction h with
  | or hcut _ _ ihl ihr => rw [parsePart_or hcut, ihl, ihr]; rfl
  | and hor hcut _ _ ihl ihr => rw [parsePart_and hor hcut, ihl, ihr]; rfl
  | group hor hand hgroup _ ih =>
      have hne := (groupBody?_eq_some_iff.1 hgroup).1
      rw [parsePart_atom hor hand, if_neg (by simp [hne]), hgroup]
      dsimp only
      rw [ih]
      rfl
  | unit hor hand hgroup hunit =>
      have hne := hunit.ne_nil
      rw [parsePart_atom hor hand, if_neg (by simpa using hne), hgroup,
        readUnit_eq_ok_iff.2 hunit]
      rfl

/-- A part is read successfully exactly as `Reads` says. -/
theorem parsePart_eq_ok_iff {c : Condition} :
    parsePart table source cs = .ok c ↔ Reads table cs c := by
  refine ⟨?_, Reads.parsePart_eq_ok⟩
  -- each separator and each pair of braces leaves shorter parts
  induction hn : cs.length using Nat.strong_induction_on generalizing cs c with
  | _ n ih =>
      subst hn
      intro h
      cases hor : cutTopLevel '|' 0 cs with
      | some p =>
          obtain ⟨left, right⟩ := p
          have hlen := congrArg List.length (eq_of_cutTopLevel hor)
          rw [List.length_append, List.length_cons] at hlen
          rw [parsePart_or hor] at h
          obtain ⟨l, hl, h⟩ := Except.bind_eq_ok_iff.1 h
          obtain ⟨r, hr, h⟩ := Except.bind_eq_ok_iff.1 h
          cases h
          exact .or hor (ih _ (by omega) rfl hl) (ih _ (by omega) rfl hr)
      | none =>
          cases hand : cutTopLevel '&' 0 cs with
          | some p =>
              obtain ⟨left, right⟩ := p
              have hlen := congrArg List.length (eq_of_cutTopLevel hand)
              rw [List.length_append, List.length_cons] at hlen
              rw [parsePart_and hor hand] at h
              obtain ⟨l, hl, h⟩ := Except.bind_eq_ok_iff.1 h
              obtain ⟨r, hr, h⟩ := Except.bind_eq_ok_iff.1 h
              cases h
              exact .and hor hand (ih _ (by omega) rfl hl) (ih _ (by omega) rfl hr)
          | none =>
              rw [parsePart_atom hor hand] at h
              split at h
              · cases h
              · cases hgroup : groupBody? (Text.trim cs) with
                | some body =>
                    have hlen := length_lt_of_groupBody? hgroup
                    have htrim := length_trim_le cs
                    rw [hgroup] at h
                    obtain ⟨b, hb, h⟩ := Except.bind_eq_ok_iff.1 h
                    cases h
                    exact .group hor hand hgroup (ih _ (by omega) rfl hb)
                | none =>
                    rw [hgroup] at h
                    obtain ⟨p, hp, h⟩ := Except.bind_eq_ok_iff.1 h
                    cases h
                    exact .unit hor hand hgroup (readUnit_eq_ok_iff.1 hp)

/-- A text is read successfully when its braces are in order and `Reads` holds of it. -/
theorem parse_eq_ok_iff {c : Condition} :
    parse table source = .ok c ↔ WellBraced source.toList ∧ Reads table source.toList c := by
  rw [parse, Except.bind_eq_ok_iff]
  constructor
  · rintro ⟨⟨⟩, htest, hparse⟩
    exact ⟨testBraces_eq_ok_iff.1 htest, parsePart_eq_ok_iff.1 hparse⟩
  · rintro ⟨hbraces, hreads⟩
    exact ⟨(), testBraces_eq_ok_iff.2 hbraces, parsePart_eq_ok_iff.2 hreads⟩

end SqlAccess.Condition
