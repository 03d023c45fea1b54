/-
**What becomes of a parameter.**

A parameter that is read back as a column of its type is the value itself, or the value under one of
the conversions below.  For some pairs of a value and a type no conversion is known, and the bytes
of the value's own type may happen to be bytes of the other: a value that is written so is misread.

That a float comes back from its bits is `Float.ofBits_toBits`.  No part of Mathlib imports it, so
that the whole is imported here.

Main definitions:

* `SqlAccess.Postgres.Converts` — the values that a value may become as a parameter of a type;
* `SqlAccess.Postgres.misfits` — the values and types that have no conversion, and whose bytes may
  be taken for each other;
* `SqlAccess.Value.Proper` — a value whose maps are in order and whose timestamp, if it is one, is
  valid.

Main results:

* `SqlAccess.Postgres.converts_of_decode` — **no value is corrupted** that is no misfit, and what is
  read from an integer column was that integer;
* `SqlAccess.Postgres.decode_encode_of_plain` — **a list or map of plain values** comes back from a
  document column as itself;
* `SqlAccess.Postgres.text_misread_as_integer`, `SqlAccess.Postgres.float_misread_as_integer` — a
  text and a float that become other integers.
-/

import Mathlib
import SqlAccess.Postgres.Codec
import SqlAccess.Proofs.Json.RoundTrip
import SqlAccess.Proofs.Postgres.Bytes
import SqlAccess.Proofs.Time.Calendar

set_option autoImplicit false

namespace SqlAccess

/-- A value as a program builds it: the fields of its maps are in order, and it is no timestamp
that there is not. -/
structure Value.Proper (v : Value) : Prop where
  ordered : v.Ordered
  valid : ∀ t, v = .timestamp t → t.Valid

namespace Postgres

/-! ### Conversions -/

/-- A value that can only be a document. -/
def IsNested : Value → Prop
  | .list _ | .map _ => True
  | _ => False

/-- What a value may become as a parameter of a type. -/
inductive Converts : WireType → Value → Value → Prop
  | same (type : WireType) (v : Value) : Converts type v v
  | single (n : Int64) :
      Converts .float4 (.int n) (.float (Decimal.singleOfInt n.toInt).toFloat)
  | double (n : Int64) : Converts .float8 (.int n) (.float (Decimal.doubleOfInt n.toInt))
  | decimal {type : WireType} (h : type.isText = true) (n : Int64) :
      Converts type (.int n) (.text (Value.intText n.toInt))
  | narrowed (x : Float) : Converts .float4 (.float x) (.float x.toFloat32.toFloat)
  | date (t : Timestamp) : Converts .date (.timestamp t) (.timestamp (.midnight t.date))
  /-- The same moment to the microsecond, and the same timestamp if it has no more. -/
  | moment {type : WireType} {t t' : Timestamp} (htype : type = .timestamp ∨ type = .timestamptz)
      (hmicros : t'.toMicros = t.toMicros)
      (hwhole : t.nanos % 1000 = 0 → t.nanos < 1000000000 → t' = t) :
      Converts type (.timestamp t) (.timestamp t')
  | uuid {s : String} {u : Uuid} (h : Uuid.ofText? s = some u) : Converts .uuid (.text s) (.uuid u)
  /-- The document that the text denotes, each float as it is read from its own text. -/
  | parsed {type : WireType} {s : String} {j j' : Json} (htype : type = .json ∨ type = .jsonb)
      (h : Json.read? s = some j) (hread : j.reread? = some j') :
      Converts type (.text s) (.ofJson j')
  /-- The document of the value, each float as it is read from its own text. -/
  | document {type : WireType} {v : Value} {j : Json} (htype : type = .json ∨ type = .jsonb)
      (hv : IsNested v) (hread : (Json.ofValue v).reread? = some j) : Converts type v (.ofJson j)
  | documentText {type : WireType} {v : Value} (htype : type.isText = true ∨ type = .name)
      (hv : IsNested v) : Converts type v (.text (Json.ofValue v).render)

/-- The values and types that have no conversion, and whose bytes may be taken for each other. -/
def misfits : Value → WireType → Bool
  | .null, _ => false
  | .bool _, type => type.isText || type == .name
  | .int _, type => type ∈ [.name, .timestamp, .timestamptz, .json, .jsonb]
  | .float _, type =>
    type.isText || type ∈ [.name, .int8, .timestamp, .timestamptz, .json, .jsonb]
  | .text _, type =>
    type ∈ [.bool, .int2, .int4, .int8, .float4, .float8, .timestamp, .timestamptz, .date]
  | .timestamp _, type => type.isText || type ∈ [.name, .int8, .float8, .json, .jsonb]
  | .uuid _, type => type.isText || type ∈ [.name, .json, .jsonb]
  | .list _, type | .map _, type =>
    type ∈ [.int2, .int4, .int8, .float4, .float8, .timestamp, .timestamptz, .date, .uuid]

/-! ### Columns of fixed width -/

/-- How many bytes a value of the type has, if all have as many. -/
def width? : WireType → Option Nat
  | .bool => some 1
  | .int2 => some 2
  | .int4 | .float4 | .date => some 4
  | .int8 | .float8 | .timestamp | .timestamptz => some 8
  | .uuid => some 16
  | _ => none

theorem exactly_eq_some {width : Nat} {bytes read : Bytes} :
    exactly width bytes = some read ↔ bytes.length = width ∧ read = bytes := by
  unfold exactly
  split <;> simp_all [eq_comm]

theorem exactly_of_length {width : Nat} {bytes : Bytes} (h : bytes.length = width) :
    exactly width bytes = some bytes :=
  if_pos h

theorem length_of_decodeBytes? {type : WireType} {bytes : Bytes} {w : Value} {width : Nat}
    (h : decodeBytes? type bytes = some w) (hwidth : width? type = some width) :
    bytes.length = width := by
  cases type <;> simp only [width?, Option.some.injEq, reduceCtorEq] at hwidth <;> subst hwidth <;>
    simp only [decodeBytes?, Option.map_eq_some_iff, Option.bind_eq_some_iff,
      exactly_eq_some] at h <;>
    obtain ⟨_, ⟨hlength, -⟩, -⟩ := h <;> exact hlength

/-- Bytes of another number than the type's are no value of it. -/
theorem not_decodeBytes? {type : WireType} {bytes : Bytes} {w : Value} {width : Nat}
    (hwidth : width? type = some width) (hlength : bytes.length ≠ width) :
    decodeBytes? type bytes ≠ some w :=
  fun h => hlength (length_of_decodeBytes? h hwidth)

/-! ### Reading back -/

section ReadBack

variable {type : WireType} {bytes : Bytes} {w : Value}

theorem decodeBytes?_ofText (htype : type.isText = true ∨ type = .name) (s : String) :
    decodeBytes? type (ofText s) = some (.text s) := by
  have hread : (toText? (ofText s)).map Value.text = some (.text s) := by
    rw [toText?_ofText, Option.map_some]
  rcases htype with htype | rfl
  · cases type <;> first | exact hread | cases htype
  · exact hread

theorem decodeBytes?_ofInt {width : Nat} {n : Int64}
    (htype : (type, width) ∈ [(WireType.int2, 2), (.int4, 4), (.int8, 8)])
    (hlow : -((256 ^ width : Nat) / 2 : Int) ≤ n.toInt)
    (hhigh : n.toInt < ((256 ^ width : Nat) / 2 : Int)) :
    decodeBytes? type (ofInt width n.toInt) = some (.int n) := by
  have hread : Int64.ofInt (toInt (ofInt width n.toInt)) = n := by
    rw [toInt_ofInt hlow hhigh, Int64.ofInt_toInt]
  simp only [List.mem_cons, Prod.mk.injEq, List.not_mem_nil, or_false] at htype
  rcases htype with ⟨rfl, rfl⟩ | ⟨rfl, rfl⟩ | ⟨rfl, rfl⟩ <;>
    rw [decodeBytes?, exactly_of_length (length_ofInt _ _), Option.map_some, hread]

@[simp] theorem length_encodeDouble (x : Float) : (encodeDouble x).length = 8 := length_ofNat _ _

@[simp] theorem length_encodeSingle (x : Float32) : (encodeSingle x).length = 4 := length_ofNat _ _

theorem decodeBytes?_encodeDouble (x : Float) :
    decodeBytes? .float8 (encodeDouble x) = some (.float x) := by
  have hread : Float.ofBits (UInt64.ofNat (toNat (encodeDouble x))) = x := by
    rw [encodeDouble, toNat_ofNat_of_lt x.toBits.toNat_lt, UInt64.ofNat_toNat, Float.ofBits_toBits]
  rw [decodeBytes?, exactly_of_length (length_encodeDouble x), Option.map_some, hread]

theorem decodeBytes?_encodeSingle (x : Float32) :
    decodeBytes? .float4 (encodeSingle x) = some (.float x.toFloat) := by
  have hread : Float32.ofBits (UInt32.ofNat (toNat (encodeSingle x))) = x := by
    rw [encodeSingle, toNat_ofNat_of_lt x.toBits.toNat_lt, UInt32.ofNat_toNat,
      Float32.ofBits_toBits]
  rw [decodeBytes?, exactly_of_length (length_encodeSingle x), Option.map_some, hread]

theorem decodeBytes?_ofMicros {t : Timestamp} (ht : t.Valid)
    (htype : type = .timestamp ∨ type = .timestamptz) :
    decodeBytes? type (ofInt 8 t.toMicros) =
      (Timestamp.ofMicros? t.toMicros).map Value.timestamp := by
  obtain ⟨hlow, hhigh⟩ := ht.toMicros_bounds
  have hread : toInt (ofInt 8 t.toMicros) = t.toMicros :=
    toInt_ofInt (by norm_num; omega) (by norm_num; omega)
  rcases htype with rfl | rfl <;>
    rw [decodeBytes?, exactly_of_length (length_ofInt _ _), Option.bind_some, hread]

theorem decodeBytes?_ofDays {d : Date} (hd : d.Valid) :
    decodeBytes? .date (ofInt 4 d.toDays) = some (.timestamp (.midnight d)) := by
  obtain ⟨hlow, hhigh⟩ := hd.toDays_bounds
  have hread : toInt (ofInt 4 d.toDays) = d.toDays :=
    toInt_ofInt (by norm_num; omega) (by norm_num; omega)
  rw [decodeBytes?, exactly_of_length (length_ofInt _ _), Option.bind_some, hread,
    Date.ofDays_toDays hd.toProper]
  exact if_pos hd.inRange

theorem decodeBytes?_uuid (u : Uuid) :
    decodeBytes? .uuid (ofNat 16 u.bits.toNat) = some (.uuid u) := by
  have hread : BitVec.ofNat 128 (toNat (ofNat 16 u.bits.toNat)) = u.bits := by
    rw [toNat_ofNat_of_lt u.bits.isLt, BitVec.ofNat_toNat, BitVec.setWidth_eq]
  rw [decodeBytes?, exactly_of_length (length_ofNat _ _), Option.map_some, hread]

theorem decodeBytes?_encodeJson (htype : type = .json ∨ type = .jsonb) {j : Json} (hj : j.Sound) :
    decodeBytes? type (encodeJson type j) =
      if j.depth ≤ Json.ReaderState.maxDepth then j.reread?.map Value.ofJson else none := by
  have hread : decodeBytes? type (encodeJson type j) = (Json.read? j.render).map Value.ofJson := by
    rcases htype with rfl | rfl <;>
      simp [decodeBytes?, decodeJson?, encodeJson, toText?_ofText]
  rw [hread, Json.read?_render hj]
  split <;> rfl

/-- What is read from the bytes of a document is the document, its floats aside. -/
theorem reread?_of_decodeBytes? (htype : type = .json ∨ type = .jsonb) {j : Json} (hj : j.Sound)
    (hdec : decodeBytes? type (encodeJson type j) = some w) :
    ∃ j', j.reread? = some j' ∧ w = .ofJson j' := by
  rw [decodeBytes?_encodeJson htype hj] at hdec
  split at hdec
  · obtain ⟨j', hread, rfl⟩ := Option.map_eq_some_iff.1 hdec
    exact ⟨j', hread, rfl⟩
  · cases hdec

/-! ### Each kind of value -/

/-- What the bytes of a value of another type are read as, if the number of bytes is not the
type's. -/
theorem converts_of_width {v : Value} {width : Nat} (hwidth : width? type = some width)
    (hlength : bytes.length ≠ width) (hdec : decodeBytes? type bytes = some w) :
    Converts type v w :=
  absurd hdec (not_decodeBytes? hwidth hlength)

theorem converts_bool {b : Bool} (henc : encode type (.bool b) = .ok (some bytes))
    (hdec : decodeBytes? type bytes = some w) (hfit : misfits (.bool b) type = false) :
    Converts type (.bool b) w := by
  obtain rfl : [if b then 1 else 0] = bytes := by simpa [encode] using henc
  cases type with
  | bool =>
      obtain rfl : Value.bool b = w := by
        cases b <;> simpa [decodeBytes?, exactly, toNat] using hdec
      exact .same _ _
  | json => cases b <;> cases hdec
  | jsonb => cases b <;> cases hdec
  | text | varchar | bpchar | name => cases hfit
  | other | array => cases hdec
  | _ => exact converts_of_width rfl (by simp) hdec

/-- An integer column holds the integer that was written to it. -/
theorem converts_encodeInt {n : Int64} {width : Nat}
    (htype : (type, width) ∈ [(WireType.int2, 2), (.int4, 4), (.int8, 8)])
    (henc : (encodeInt width n.toInt).map some = .ok (some bytes))
    (hdec : decodeBytes? type bytes = some w) : Converts type (.int n) w := by
  have hpow : Int.pow 256 width = ((256 ^ width : Nat) : Int) := by
    rw [Int.natCast_pow]
    rfl
  unfold encodeInt at henc
  split at henc
  · rename_i hrange
    rw [hpow] at hrange
    obtain rfl : ofInt width n.toInt = bytes := by simpa [Except.map] using henc
    rw [decodeBytes?_ofInt htype hrange.1 hrange.2] at hdec
    cases hdec
    exact .same _ _
  · cases henc

theorem converts_int {n : Int64} (henc : encode type (.int n) = .ok (some bytes))
    (hdec : decodeBytes? type bytes = some w) (hfit : misfits (.int n) type = false) :
    Converts type (.int n) w := by
  -- in its own form it has eight bytes
  have hown (h : encode type (.int n) = .ok (some (ofInt 8 n.toInt))) : bytes.length = 8 := by
    rw [h] at henc
    cases henc
    exact length_ofInt _ _
  cases type with
  | int2 => exact converts_encodeInt (by simp) henc hdec
  | int4 => exact converts_encodeInt (by simp) henc hdec
  | int8 =>
      obtain rfl : ofInt 8 n.toInt = bytes := by simpa [encode, WireType.isText] using henc
      have hlow := n.le_toInt
      have hhigh := n.toInt_lt
      have hread : decodeBytes? .int8 (ofInt 8 n.toInt) = some (.int n) :=
        decodeBytes?_ofInt (by simp) (by norm_num; omega) (by norm_num; omega)
      rw [hread] at hdec
      cases hdec
      exact .same _ _
  | float4 =>
      obtain rfl : encodeSingle (Decimal.singleOfInt n.toInt) = bytes := by
        simpa [encode] using henc
      rw [decodeBytes?_encodeSingle] at hdec
      cases hdec
      exact .single n
  | float8 =>
      obtain rfl : encodeDouble (Decimal.doubleOfInt n.toInt) = bytes := by
        simpa [encode] using henc
      rw [decodeBytes?_encodeDouble] at hdec
      cases hdec
      exact .double n
  | text | varchar | bpchar =>
      obtain rfl : ofText (Value.intText n.toInt) = bytes := by
        simpa [encode, WireType.isText] using henc
      rw [decodeBytes?_ofText (.inl rfl)] at hdec
      cases hdec
      exact .decimal rfl n
  | bool | date | uuid => exact converts_of_width rfl (by rw [hown rfl]; decide) hdec
  | other | array => cases hdec
  | name | timestamp | timestamptz | json | jsonb => cases hfit

theorem converts_float {x : Float} (henc : encode type (.float x) = .ok (some bytes))
    (hdec : decodeBytes? type bytes = some w) (hfit : misfits (.float x) type = false) :
    Converts type (.float x) w := by
  have hown (h : encode type (.float x) = .ok (some (encodeDouble x))) : bytes.length = 8 := by
    rw [h] at henc
    cases henc
    exact length_encodeDouble x
  cases type with
  | float4 =>
      obtain rfl : encodeSingle x.toFloat32 = bytes := by simpa [encode] using henc
      rw [decodeBytes?_encodeSingle] at hdec
      cases hdec
      exact .narrowed x
  | float8 =>
      obtain rfl : encodeDouble x = bytes := by simpa [encode] using henc
      rw [decodeBytes?_encodeDouble] at hdec
      cases hdec
      exact .same _ _
  | bool | int2 | int4 | date | uuid => exact converts_of_width rfl (by rw [hown rfl]; decide) hdec
  | other | array => cases hdec
  | _ => cases hfit

theorem converts_text {s : String} (henc : encode type (.text s) = .ok (some bytes))
    (hdec : decodeBytes? type bytes = some w) (hfit : misfits (.text s) type = false) :
    Converts type (.text s) w := by
  have hown (htype : type.isText = true ∨ type = .name)
      (h : encode type (.text s) = .ok (some (ofText s))) : Converts type (.text s) w := by
    rw [h] at henc
    cases henc
    rw [decodeBytes?_ofText htype] at hdec
    cases hdec
    exact .same _ _
  have hdocument {j : Json} (htype : type = .json ∨ type = .jsonb) (hj : Json.read? s = some j)
      (hdec : decodeBytes? type (encodeJson type j) = some w) : Converts type (.text s) w := by
    obtain ⟨j', hread, rfl⟩ := reread?_of_decodeBytes? htype (Json.sound_of_read? hj) hdec
    exact .parsed htype hj hread
  cases type with
  | text | varchar | bpchar => exact hown (.inl rfl) rfl
  | name => exact hown (.inr rfl) rfl
  | uuid =>
      simp only [encode] at henc
      split at henc
      · rename_i u hu
        obtain rfl : ofNat 16 u.bits.toNat = bytes := Option.some.inj (Except.ok.inj henc)
        rw [decodeBytes?_uuid] at hdec
        cases hdec
        exact .uuid hu
      · cases henc
  | json =>
      simp only [encode] at henc
      split at henc
      · rename_i j hj
        cases henc
        exact hdocument (.inl rfl) hj hdec
      · cases henc
  | jsonb =>
      simp only [encode] at henc
      split at henc
      · rename_i j hj
        cases henc
        exact hdocument (.inr rfl) hj hdec
      · cases henc
  | other | array => cases hdec
  | _ => cases hfit

theorem converts_timestamp {t : Timestamp} (ht : t.Valid)
    (henc : encode type (.timestamp t) = .ok (some bytes))
    (hdec : decodeBytes? type bytes = some w) (hfit : misfits (.timestamp t) type = false) :
    Converts type (.timestamp t) w := by
  obtain rfl : encodeTimestamp type t = bytes := by simpa [encode] using henc
  have hmoment (htype : type = .timestamp ∨ type = .timestamptz)
      (hown : encodeTimestamp type t = ofInt 8 t.toMicros) : Converts type (.timestamp t) w := by
    rw [hown, decodeBytes?_ofMicros ht htype] at hdec
    obtain ⟨t', ht', rfl⟩ := Option.map_eq_some_iff.1 hdec
    refine .moment htype (Timestamp.toMicros_of_ofMicros? ht') fun hwhole hleap => ?_
    rw [Timestamp.ofMicros?_toMicros ht hwhole hleap] at ht'
    exact (Option.some.inj ht').symm
  cases type with
  | timestamp => exact hmoment (.inl rfl) rfl
  | timestamptz => exact hmoment (.inr rfl) rfl
  | date =>
      have hread : decodeBytes? .date (encodeTimestamp .date t) =
          some (.timestamp (.midnight t.date)) := decodeBytes?_ofDays ht.date
      obtain rfl := Option.some.inj (hread.symm.trans hdec)
      exact .date t
  | bool | int2 | int4 | float4 | uuid =>
      exact converts_of_width rfl (by simp [encodeTimestamp]) hdec
  | other | array => cases hdec
  | _ => cases hfit

theorem converts_uuid {u : Uuid} (henc : encode type (.uuid u) = .ok (some bytes))
    (hdec : decodeBytes? type bytes = some w) (hfit : misfits (.uuid u) type = false) :
    Converts type (.uuid u) w := by
  obtain rfl : ofNat 16 u.bits.toNat = bytes := by simpa [encode] using henc
  cases type with
  | uuid =>
      rw [decodeBytes?_uuid] at hdec
      cases hdec
      exact .same _ _
  | text | varchar | bpchar | name | json | jsonb => cases hfit
  | other | array => cases hdec
  | _ => exact converts_of_width rfl (by simp) hdec

/-- A document of items or fields has two brackets. -/
theorem two_le_length_ofText {v : Value} (hv : IsNested v) :
    2 ≤ (ofText (Json.ofValue v).render).length := by
  have hbrackets (opening inner closing : String) (hopening : (ofText opening).length = 1)
      (hclosing : (ofText closing).length = 1) :
      2 ≤ (ofText (opening ++ inner ++ closing)).length := by
    rw [ofText_append, ofText_append, List.length_append, List.length_append, hopening, hclosing]
    omega
  cases v with
  | list items => exact hbrackets "[" _ "]" (by rw [ofText_eq]; rfl) (by rw [ofText_eq]; rfl)
  | map fields => exact hbrackets "\x7b" _ "\x7d" (by rw [ofText_eq]; rfl) (by rw [ofText_eq]; rfl)
  | _ => cases hv

theorem misfits_nested {v : Value} (hv : IsNested v) (type : WireType) :
    misfits v type = misfits (.list []) type := by
  cases v with
  | list | map => rfl
  | _ => cases hv

theorem encode_nested {v : Value} (hv : IsNested v) (htype : ∀ t, type ≠ .array t) :
    encode type v = .ok (some (encodeJson type (.ofValue v))) := by
  cases v with
  | list items => cases type <;> first | rfl | exact absurd rfl (htype _)
  | map fields => rfl
  | _ => cases hv

theorem converts_nested {v : Value} (hv : IsNested v) (hordered : v.Ordered)
    (henc : encode type v = .ok (some bytes)) (hdec : decodeBytes? type bytes = some w)
    (hfit : misfits v type = false) : Converts type v w := by
  rw [misfits_nested hv] at hfit
  have hown (htype : ∀ t, type ≠ .array t) : encodeJson type (.ofValue v) = bytes := by
    rw [encode_nested hv htype] at henc
    simpa using henc
  have htext (htype : type.isText = true ∨ type = .name)
      (hbytes : ofText (Json.ofValue v).render = bytes) : Converts type v w := by
    rw [← hbytes, decodeBytes?_ofText htype] at hdec
    cases hdec
    exact .documentText htype hv
  have hdocument (htype : type = .json ∨ type = .jsonb)
      (hbytes : encodeJson type (.ofValue v) = bytes) : Converts type v w := by
    rw [← hbytes] at hdec
    obtain ⟨j, hread, rfl⟩ := reread?_of_decodeBytes? htype (Json.sound_ofValue hordered) hdec
    exact .document htype hv hread
  cases type with
  | bool =>
      have hlength := two_le_length_ofText hv
      rw [show ofText (Json.ofValue v).render = bytes from hown nofun] at hlength
      exact converts_of_width rfl (by omega) hdec
  | text | varchar | bpchar => exact htext (.inl rfl) (hown nofun)
  | name => exact htext (.inr rfl) (hown nofun)
  | json => exact hdocument (.inl rfl) (hown nofun)
  | jsonb => exact hdocument (.inr rfl) (hown nofun)
  | other | array => cases hdec
  | _ => cases hfit

/-! ### All values -/

theorem decodeBytes?_of_decode (h : decode type (some bytes) = .ok w) :
    decodeBytes? type bytes = some w := by
  unfold decode at h
  split at h
  · cases h
  · simp only at h
    split at h
    · rename_i v hv
      rw [hv, Except.ok.inj h]
    · cases h

theorem decode_of_decodeBytes? (h : decodeBytes? type bytes = some w) :
    decode type (some bytes) = .ok w := by
  have hreadable : isReadable type = true := by
    cases type <;> first | rfl | cases h
  simp only [decode, hreadable, Bool.not_true, Bool.false_eq_true, if_false, h]

/-- What an integer column holds was that integer. -/
theorem Converts.eq_of_integer {v : Value} {n : Int64} (h : Converts type v w)
    (htype : type ∈ [WireType.int2, .int4, .int8]) (hw : w = .int n) : v = .int n := by
  cases h with
  | same => exact hw
  | single | double | narrowed | date | uuid => simp at htype
  | decimal htext => cases hw
  | moment => cases hw
  | parsed hjson => rcases hjson with rfl | rfl <;> simp at htype
  | document hjson => rcases hjson with rfl | rfl <;> simp at htype
  | documentText => cases hw

/-- **No value is corrupted on the way to a column of its parameter's type**, unless it is a misfit:
what is read is the value itself or what one of the conversions makes of it, and what is read from
an integer column was that integer. -/
theorem converts_of_decode {v : Value} (hv : v.Proper) (hfit : misfits v type = false)
    (henc : encode type v = .ok (some bytes)) (hdec : decode type (some bytes) = .ok w) :
    Converts type v w ∧
      ∀ n, type ∈ [WireType.int2, .int4, .int8] → w = .int n → v = .int n := by
  have hdec := decodeBytes?_of_decode hdec
  have hconverts : Converts type v w := by
    cases v with
    | null => cases henc
    | bool => exact converts_bool henc hdec hfit
    | int => exact converts_int henc hdec hfit
    | float => exact converts_float henc hdec hfit
    | text => exact converts_text henc hdec hfit
    | timestamp t => exact converts_timestamp (hv.valid t rfl) henc hdec hfit
    | uuid => exact converts_uuid henc hdec hfit
    | list => exact converts_nested trivial hv.ordered henc hdec hfit
    | map => exact converts_nested trivial hv.ordered henc hdec hfit
  exact ⟨hconverts, fun n htype hw => hconverts.eq_of_integer htype hw⟩

/-- **A list or map of plain values** comes back from a document column as itself, unless too many
of them are open at once. -/
theorem decode_encode_of_plain {v : Value} (hv : IsNested v) (hplain : v.Plain)
    (hordered : v.Ordered) (hdepth : (Json.ofValue v).depth ≤ Json.ReaderState.maxDepth)
    (htype : type = .json ∨ type = .jsonb) :
    ∃ bytes, encode type v = .ok (some bytes) ∧ decode type (some bytes) = .ok v := by
  obtain ⟨hfloatless, hback⟩ := Value.ofJson_ofValue hplain
  have harray : ∀ t, type ≠ .array t := by
    rintro t rfl
    rcases htype with h | h <;> cases h
  refine ⟨_, encode_nested hv harray, decode_of_decodeBytes? ?_⟩
  rw [decodeBytes?_encodeJson htype (Json.sound_ofValue hordered), if_pos hdepth,
    Json.reread?_of_floatless hfloatless, Option.map_some, hback]

end ReadBack

/-! ### Misfits -/

theorem converts_of_decode_of_int :
    (Value.int 7).Proper ∧ misfits (.int 7) .float8 = false ∧
      encode .float8 (.int 7) = .ok (some (encodeDouble (Decimal.doubleOfInt 7))) ∧
      decode .float8 (some (encodeDouble (Decimal.doubleOfInt 7))) =
        .ok (.float (Decimal.doubleOfInt 7)) ∧
      Converts .float8 (.int 7) (.float (Decimal.doubleOfInt 7)) :=
  have henc : encode .float8 (.int 7) = .ok (some (encodeDouble (Decimal.doubleOfInt 7))) := rfl
  have hdec := decode_of_decodeBytes? (decodeBytes?_encodeDouble (Decimal.doubleOfInt 7))
  have hproper : (Value.int 7).Proper := ⟨trivial, nofun⟩
  ⟨hproper, rfl, henc, hdec, (converts_of_decode hproper rfl henc hdec).1⟩

/-- **A text becomes another integer**: two digits are read as one number of two bytes. -/
theorem text_misread_as_integer :
    encode .int2 (.text "42") = .ok (some [0x34, 0x32]) ∧
      decode .int2 (some [0x34, 0x32]) = .ok (.int 13362) := by
  have hbytes : ofText "42" = [0x34, 0x32] := by
    rw [ofText_eq]
    rfl
  have hnumber : toInt [0x34, 0x32] = 13362 := by decide
  have hread : decodeBytes? .int2 [0x34, 0x32] = some (.int 13362) := by
    have hlength : List.length [(0x34 : UInt8), 0x32] = 2 := rfl
    rw [decodeBytes?, exactly_of_length hlength, Option.map_some, hnumber]
    rfl
  refine ⟨?_, decode_of_decodeBytes? hread⟩
  rw [← hbytes]
  rfl

/-- **Every float becomes an integer** in a column of eight bytes: its bits are read as one. -/
theorem float_misread_as_integer (x : Float) :
    ∃ bytes n, encode .int8 (.float x) = .ok (some bytes) ∧
      decode .int8 (some bytes) = .ok (.int n) := by
  refine ⟨encodeDouble x, Int64.ofInt (toInt (encodeDouble x)), rfl, decode_of_decodeBytes? ?_⟩
  rw [decodeBytes?, exactly_of_length (length_encodeDouble x), Option.map_some]

end Postgres

end SqlAccess
