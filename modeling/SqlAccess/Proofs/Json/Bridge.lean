/-
**Values and documents.**

A value is turned into a document on its way to a column, and a document into a value on its way
back.  Both conversions go through lists and maps item by item, so that a value or a document comes
back exactly if all its leaves do.  A document has no timestamps, no identifiers and no floats that
are not finite, and a value has no integers outside of sixty-four bits with a sign; all other leaves
come back, and a whole number stays the integer or the float that it was.

Main definitions:

* `SqlAccess.Value.Throughout`, `SqlAccess.Json.Throughout` — what holds of all leaves;
* `SqlAccess.Value.HasDocument` — the leaves that a document can hold;
* `SqlAccess.Json.IsSigned`, `SqlAccess.Json.IsFinite` — those that a value can hold, and those of
  all documents.

Main results:

* `SqlAccess.Value.ofJson_ofValue_eq_iff`, `SqlAccess.Json.ofValue_ofJson_eq_iff` — what comes back;
* `SqlAccess.Json.throughout_isFinite_ofValue` — the floats of documents are finite;
* `SqlAccess.Json.ofValue_map`, `SqlAccess.Value.ofJson_object` — maps are collected field by field;
* `SqlAccess.Json.bridge_returns` — **values and documents come back**.
-/

import SqlAccess.Proofs.Fields
import SqlAccess.Proofs.Json.RoundTrip

set_option autoImplicit false

namespace SqlAccess

/-! ### Leaves -/

namespace Value

mutual

/-- All leaves of a value, at any depth, have a property. -/
def Throughout (good : Value → Prop) : Value → Prop
  | list items => ThroughoutItems good items
  | map fields => ThroughoutFields good fields
  | v => good v

/-- All leaves of several values have a property. -/
def ThroughoutItems (good : Value → Prop) : List Value → Prop
  | [] => True
  | v :: rest => v.Throughout good ∧ ThroughoutItems good rest

/-- All leaves of the values of fields have a property. -/
def ThroughoutFields (good : Value → Prop) : List (String × Value) → Prop
  | [] => True
  | (_, v) :: rest => v.Throughout good ∧ ThroughoutFields good rest

end

/-- A document can hold the leaf: it is no timestamp, no identifier and no float that is not
finite. -/
def HasDocument : Value → Prop
  | timestamp _ | uuid _ => False
  | float x => x.isFinite = true
  | _ => True

end Value

namespace Json

mutual

/-- All leaves of a document, at any depth, have a property. -/
def Throughout (good : Json → Prop) : Json → Prop
  | array items => ThroughoutItems good items
  | object members => ThroughoutMembers good members
  | j => good j

/-- All leaves of several documents have a property. -/
def ThroughoutItems (good : Json → Prop) : List Json → Prop
  | [] => True
  | j :: rest => j.Throughout good ∧ ThroughoutItems good rest

/-- All leaves of the documents of members have a property. -/
def ThroughoutMembers (good : Json → Prop) : List (String × Json) → Prop
  | [] => True
  | (_, j) :: rest => j.Throughout good ∧ ThroughoutMembers good rest

end

/-- If the leaf is an integer, it has sixty-four bits with a sign. -/
def IsSigned : Json → Prop
  | int n => -Int.pow 2 63 ≤ n ∧ n < Int.pow 2 63
  | _ => True

/-- If the leaf is a float, it is finite: no other has a text. -/
def IsFinite : Json → Prop
  | float x => x.isFinite = true
  | _ => True

variable {good other : Json → Prop}

mutual

/-- Two properties of all leaves. -/
theorem throughout_and_iff : ∀ j : Json,
    j.Throughout (fun leaf => good leaf ∧ other leaf) ↔ j.Throughout good ∧ j.Throughout other
  | .null | .bool _ | .int _ | .float _ | .text _ => Iff.rfl
  | .array items => throughoutItems_and_iff items
  | .object members => throughoutMembers_and_iff members

theorem throughoutItems_and_iff : ∀ items : List Json,
    ThroughoutItems (fun leaf => good leaf ∧ other leaf) items ↔
      ThroughoutItems good items ∧ ThroughoutItems other items
  | [] => (and_self_iff (a := True)).symm
  | j :: items =>
      (and_congr (throughout_and_iff j) (throughoutItems_and_iff items)).trans and_and_and_comm

theorem throughoutMembers_and_iff : ∀ members : List (String × Json),
    ThroughoutMembers (fun leaf => good leaf ∧ other leaf) members ↔
      ThroughoutMembers good members ∧ ThroughoutMembers other members
  | [] => (and_self_iff (a := True)).symm
  | (_, j) :: members =>
      (and_congr (throughout_and_iff j) (throughoutMembers_and_iff members)).trans
        and_and_and_comm

end

end Json

/-! ### What comes back -/

namespace Value

mutual

/-- **A value comes back** from its document exactly if a document can hold its leaves. -/
theorem ofJson_ofValue_eq_iff : ∀ v : Value,
    ofJson (Json.ofValue v) = v ↔ v.Throughout HasDocument
  | .null | .bool _ | .text _ => iff_of_true rfl trivial
  | .int n => iff_of_true (ofInteger_toInt n) trivial
  | .float x => by
      by_cases hx : x.isFinite = true <;>
        simp [Json.ofValue, ofJson, Throughout, HasDocument, hx]
  -- both come back as texts
  | .timestamp _ | .uuid _ => iff_of_false nofun id
  | .list items => by
      rw [Json.ofValue, ofJson, list.injEq]
      exact ofJsonItems_ofItems_eq_iff items
  | .map fields => by
      rw [Json.ofValue, ofJson, map.injEq]
      exact ofJsonMembers_ofFields_eq_iff fields

theorem ofJsonItems_ofItems_eq_iff : ∀ items : List Value,
    ofJsonItems (Json.ofItems items) = items ↔ ThroughoutItems HasDocument items
  | [] => iff_of_true rfl trivial
  | v :: items => by
      rw [Json.ofItems, ofJsonItems, List.cons.injEq]
      exact and_congr (ofJson_ofValue_eq_iff v) (ofJsonItems_ofItems_eq_iff items)

theorem ofJsonMembers_ofFields_eq_iff : ∀ fields : List (String × Value),
    ofJsonMembers (Json.ofFields fields) = fields ↔ ThroughoutFields HasDocument fields
  | [] => iff_of_true rfl trivial
  | (k, v) :: fields => by
      rw [Json.ofFields, ofJsonMembers, List.cons.injEq, Prod.mk.injEq, and_iff_right rfl]
      exact and_congr (ofJson_ofValue_eq_iff v) (ofJsonMembers_ofFields_eq_iff fields)

end

end Value

namespace Json

/-- An integer comes back exactly if a value can hold it: any other becomes a float. -/
theorem ofValue_ofInteger_eq_iff (n : Int) :
    ofValue (.ofInteger n) = .int n ↔ (int n).IsSigned := by
  rw [Value.ofInteger]
  split
  · rename_i hrange
    exact iff_of_true (congrArg int (Int64.toInt_ofInt_of_le hrange.1 hrange.2)) hrange
  · rename_i hrange
    -- the document of a float is a float or null, and no integer
    refine iff_of_false (fun h => ?_) hrange
    rw [ofValue] at h
    split at h <;> cases h

mutual

/-- **A document comes back** from its value exactly if a value can hold its integers and its floats
are finite. -/
theorem ofValue_ofJson_eq_iff : ∀ j : Json,
    ofValue (Value.ofJson j) = j ↔ j.Throughout fun leaf => leaf.IsFinite ∧ leaf.IsSigned
  | .null | .bool _ | .text _ => iff_of_true rfl ⟨trivial, trivial⟩
  | .int n => (ofValue_ofInteger_eq_iff n).trans (and_iff_right trivial).symm
  | .float x => by
      by_cases hx : x.isFinite = true <;>
        simp [ofValue, Value.ofJson, Throughout, IsFinite, IsSigned, hx]
  | .array items => by
      rw [Value.ofJson, ofValue, array.injEq]
      exact ofItems_ofJsonItems_eq_iff items
  | .object members => by
      rw [Value.ofJson, ofValue, object.injEq]
      exact ofFields_ofJsonMembers_eq_iff members

theorem ofItems_ofJsonItems_eq_iff : ∀ items : List Json,
    ofItems (Value.ofJsonItems items) = items ↔
      ThroughoutItems (fun leaf => leaf.IsFinite ∧ leaf.IsSigned) items
  | [] => iff_of_true rfl trivial
  | j :: items => by
      rw [Value.ofJsonItems, ofItems, List.cons.injEq]
      exact and_congr (ofValue_ofJson_eq_iff j) (ofItems_ofJsonItems_eq_iff items)

theorem ofFields_ofJsonMembers_eq_iff : ∀ members : List (String × Json),
    ofFields (Value.ofJsonMembers members) = members ↔
      ThroughoutMembers (fun leaf => leaf.IsFinite ∧ leaf.IsSigned) members
  | [] => iff_of_true rfl trivial
  | (k, j) :: members => by
      rw [Value.ofJsonMembers, ofFields, List.cons.injEq, Prod.mk.injEq, and_iff_right rfl]
      exact and_congr (ofValue_ofJson_eq_iff j) (ofFields_ofJsonMembers_eq_iff members)

end

mutual

/-- The floats of the document of any value are finite. -/
theorem throughout_isFinite_ofValue : ∀ v : Value, (ofValue v).Throughout IsFinite
  | .null | .bool _ | .int _ | .text _ | .timestamp _ | .uuid _ => trivial
  | .float x => by
      rw [ofValue]
      split
      · rename_i hfinite
        exact hfinite
      · trivial
  | .list items => throughoutItems_isFinite_ofItems items
  | .map fields => throughoutMembers_isFinite_ofFields fields

theorem throughoutItems_isFinite_ofItems : ∀ items : List Value,
    ThroughoutItems IsFinite (ofItems items)
  | [] => trivial
  | v :: items => ⟨throughout_isFinite_ofValue v, throughoutItems_isFinite_ofItems items⟩

theorem throughoutMembers_isFinite_ofFields : ∀ fields : List (String × Value),
    ThroughoutMembers IsFinite (ofFields fields)
  | [] => trivial
  | (_, v) :: fields => ⟨throughout_isFinite_ofValue v, throughoutMembers_isFinite_ofFields fields⟩

end

/-! ### Maps -/

theorem ofFields_eq_map (fields : List (String × Value)) :
    ofFields fields = fields.map fun f => (f.1, ofValue f.2) := by
  induction fields with
  | nil => rfl
  | cons f fields ih => rw [ofFields, ih, List.map_cons]

/-- **The document of a map** collects the documents of its fields by their keys. -/
theorem ofValue_map {fields : List (String × Value)}
    (h : (fields.map Prod.fst).Pairwise (· < ·)) :
    ofValue (.map fields) = object (orderFields (fields.map fun f => (f.1, ofValue f.2))) := by
  rw [← ofFields_eq_map, orderFields_of_pairwise (by rwa [map_fst_ofFields]), ofValue]

end Json

namespace Value

theorem ofJsonMembers_eq_map (members : List (String × Json)) :
    ofJsonMembers members = members.map fun f => (f.1, ofJson f.2) := by
  induction members with
  | nil => rfl
  | cons f members ih => rw [ofJsonMembers, ih, List.map_cons]

/-- **The value of an object** collects the values of its members by their names. -/
theorem ofJson_object {members : List (String × Json)}
    (h : (members.map Prod.fst).Pairwise (· < ·)) :
    ofJson (.object members) = ofFields (members.map fun f => (f.1, ofJson f.2)) := by
  have hkeys : (members.map fun f => (f.1, ofJson f.2)).map Prod.fst = members.map Prod.fst := by
    rw [List.map_map]
    rfl
  rw [ofFields, orderFields_of_pairwise (by rwa [hkeys]), ofJson, ofJsonMembers_eq_map]

end Value

namespace Json

/-- **Values and documents come back.**  A value comes back exactly if no timestamp, no identifier
and no float that is not finite occurs in it, and a document, which has only finite floats, exactly
if all its integers have sixty-four bits with a sign.  On both ways maps are collected by their
keys. -/
theorem bridge_returns :
    (∀ v : Value, Value.ofJson (ofValue v) = v ↔ v.Throughout Value.HasDocument) ∧
    (∀ j : Json, j.Throughout IsFinite →
      (ofValue (Value.ofJson j) = j ↔ j.Throughout IsSigned)) ∧
    (∀ v : Value, (ofValue v).Throughout IsFinite) ∧
    (∀ fields : List (String × Value), (fields.map Prod.fst).Pairwise (· < ·) →
      ofValue (.map fields) = object (orderFields (fields.map fun f => (f.1, ofValue f.2)))) ∧
    ∀ members : List (String × Json), (members.map Prod.fst).Pairwise (· < ·) →
      Value.ofJson (.object members) =
        Value.ofFields (members.map fun f => (f.1, Value.ofJson f.2)) := by
  refine ⟨Value.ofJson_ofValue_eq_iff, fun j hfinite => ?_, throughout_isFinite_ofValue,
    fun fields => ofValue_map, fun members => Value.ofJson_object⟩
  rw [ofValue_ofJson_eq_iff, throughout_and_iff, and_iff_right hfinite]

/-- The least integer, a whole number as a float and a null in a list come back, the latter two as
they were; an integer of sixty-four bits without a sign does not. -/
theorem bridge_returns_nested :
    Value.ofJson (ofValue (.map [("a", .list [.int (-9223372036854775808), .float 2, .null]),
        ("b", .map [])])) =
      .map [("a", .list [.int (-9223372036854775808), .float 2, .null]), ("b", .map [])] ∧
    (object [("a", array [int 9223372036854775807, float 2]),
      ("b", int 9223372036854775808)]).Throughout IsFinite ∧
    ofValue (Value.ofJson (object [("a", array [int 9223372036854775807, float 2]),
      ("b", int 9223372036854775808)])) ≠
        object [("a", array [int 9223372036854775807, float 2]), ("b", int 9223372036854775808)] ∧
    ["a", "b"].Pairwise (· < ·) ∧
    ofValue (.map [("a", .bool true), ("b", .null)]) =
      object (orderFields [("a", bool true), ("b", null)]) := by
  obtain ⟨hvalues, hdocuments, -, hmaps, -⟩ := bridge_returns
  have hfinite : (2 : Float).isFinite = true := by decide
  have hdocument : (object [("a", array [int 9223372036854775807, float 2]),
      ("b", int 9223372036854775808)]).Throughout IsFinite :=
    ⟨⟨trivial, hfinite, trivial⟩, trivial, trivial⟩
  have hkeys : ["a", "b"].Pairwise (· < ·) := by decide
  refine ⟨(hvalues _).2 ⟨⟨trivial, hfinite, trivial, trivial⟩, trivial, trivial⟩, hdocument,
    fun h => ?_, hkeys, hmaps [("a", .bool true), ("b", .null)] hkeys⟩
  have hsigned : (int 9223372036854775808).IsSigned := ((hdocuments _ hdocument).1 h).2.1
  exact absurd hsigned.2 (by decide)

end Json

end SqlAccess
