/-
**Sound documents.**

The integers of a document have sixty-four bits, and the members of an object are in ascending order
of their names.  Values whose maps are in order make such documents, and only such documents are
read: what a token adds to the open arrays and objects keeps them sound.

Main definitions:

* `SqlAccess.Json.Sound` — a document with such integers and objects;
* `SqlAccess.Value.Ordered` — a value whose maps are in ascending order of their keys;
* `SqlAccess.Json.ReaderState.Sound` — a reader that has met only sound documents.

Main results:

* `SqlAccess.Json.sound_ofValue` — the document of an ordered value is sound;
* `SqlAccess.Json.ReaderState.sound_step?` — one token keeps the reader sound;
* `SqlAccess.Json.sound_of_read?` — **what is read is sound**.
-/

import Mathlib.Data.String.Basic
import SqlAccess.Json.Reader
import SqlAccess.Proofs.Json.Number

set_option autoImplicit false

namespace SqlAccess

namespace Json

mutual

/-- Integers of sixty-four bits, and members in ascending order of their names. -/
def Sound : Json → Prop
  | int n => -Int.pow 2 63 ≤ n ∧ n < Int.pow 2 64
  | array items => SoundItems items
  | object members => SoundMembers members
  | _ => True

/-- Sound documents. -/
def SoundItems : List Json → Prop
  | [] => True
  | j :: rest => j.Sound ∧ SoundItems rest

/-- Sound documents under ascending names. -/
def SoundMembers : List (String × Json) → Prop
  | [] => True
  | (k, j) :: rest => (∀ f ∈ rest, k < f.1) ∧ j.Sound ∧ SoundMembers rest

end

theorem sound_int_iff {n : Int} :
    (int n).Sound ↔ -9223372036854775808 ≤ n ∧ n < 18446744073709551616 :=
  Iff.rfl

theorem soundItems_iff {items : List Json} : SoundItems items ↔ ∀ j ∈ items, j.Sound := by
  induction items with
  | nil => simp [SoundItems]
  | cons j items ih => simp [SoundItems, ih]

theorem SoundItems.reverse {items : List Json} (h : SoundItems items) :
    SoundItems items.reverse := by
  rw [soundItems_iff] at h ⊢
  exact fun j hj => h j (List.mem_reverse.1 hj)

/-- One more member at its place leaves the names in order. -/
theorem SoundMembers.insertField {members : List (String × Json)} (h : SoundMembers members)
    {j : Json} (hj : j.Sound) (name : String) :
    SoundMembers (insertField name j members) := by
  induction members with
  | nil => exact ⟨nofun, hj, h⟩
  | cons f members ih =>
      obtain ⟨hfirst, hf, hmembers⟩ := h
      unfold SqlAccess.insertField
      split
      · rename_i hbefore
        refine ⟨fun g hg => ?_, hj, hfirst, hf, hmembers⟩
        rcases List.mem_cons.1 hg with rfl | hg
        · exact hbefore
        · exact String.lt_trans hbefore (hfirst g hg)
      · rename_i hbefore
        split
        · rename_i hsame
          exact ⟨fun g hg => hsame ▸ hfirst g hg, hj, hmembers⟩
        · rename_i hother
          refine ⟨fun g hg => ?_, hf, ih hmembers⟩
          rcases mem_insertField hg with rfl | hg
          · exact lt_of_le_of_ne (not_lt.1 hbefore) fun heq => hother heq.symm
          · exact hfirst g hg

end Json

/-! ### Values -/

namespace Value

mutual

/-- The fields of maps are in ascending order of their keys. -/
def Ordered : Value → Prop
  | list items => OrderedItems items
  | map fields => OrderedFields fields
  | _ => True

/-- Ordered values. -/
def OrderedItems : List Value → Prop
  | [] => True
  | v :: rest => v.Ordered ∧ OrderedItems rest

/-- Ordered values under ascending keys. -/
def OrderedFields : List (String × Value) → Prop
  | [] => True
  | (k, v) :: rest => (∀ f ∈ rest, k < f.1) ∧ v.Ordered ∧ OrderedFields rest

end

end Value

namespace Json

theorem map_fst_ofFields (fields : List (String × Value)) :
    (ofFields fields).map Prod.fst = fields.map Prod.fst := by
  induction fields with
  | nil => rfl
  | cons f fields ih => simp [ofFields, ih]

mutual

/-- **The document of an ordered value** is sound. -/
theorem sound_ofValue : ∀ {v : Value}, v.Ordered → (ofValue v).Sound
  | .null, _ | .bool _, _ | .text _, _ | .timestamp _, _ | .uuid _, _ => trivial
  | .int n, _ => by
      have hlow := n.le_toInt
      have hhigh := n.toInt_lt
      refine ⟨hlow, Int.lt_trans hhigh (by decide)⟩
  | .float x, _ => by
      unfold ofValue
      split <;> trivial
  | .list _, h => soundItems_ofItems h
  | .map _, h => soundMembers_ofFields h

theorem soundItems_ofItems : ∀ {items : List Value}, Value.OrderedItems items →
    SoundItems (ofItems items)
  | [], _ => trivial
  | _ :: _, h => ⟨sound_ofValue h.1, soundItems_ofItems h.2⟩

theorem soundMembers_ofFields : ∀ {fields : List (String × Value)}, Value.OrderedFields fields →
    SoundMembers (ofFields fields)
  | [], _ => trivial
  | (k, v) :: fields, h => by
      refine ⟨fun f hf => ?_, sound_ofValue h.2.1, soundMembers_ofFields h.2.2⟩
      have hname : f.1 ∈ fields.map Prod.fst :=
        map_fst_ofFields fields ▸ List.mem_map_of_mem hf
      obtain ⟨g, hg, hfg⟩ := List.mem_map.1 hname
      exact hfg ▸ h.1 g hg

end

/-! ### Tokens -/

theorem appendDigits_le {s : Nat} (hs : s ≤ maxSignificand) (count : Nat) (ds : List Char) :
    (appendDigits s count ds).1 ≤ maxSignificand := by
  induction ds generalizing s count with
  | nil => exact hs
  | cons c ds ih =>
      unfold appendDigits
      dsimp only
      split
      · rename_i hnext
        exact ih hnext _
      · exact hs

theorem sound_of_numberOf? {negative : Bool} {whole fraction : List Char} {exponent : Option Int}
    {j : Json} (h : numberOf? negative whole fraction exponent = some j) : j.Sound := by
  have hkept := appendDigits_le (Nat.zero_le _) 0 whole
  unfold numberOf? at h
  dsimp only at h
  generalize (appendDigits 0 0 whole).1 = kept at h hkept
  rw [show maxSignificand = 18446744073709551615 from rfl] at hkept
  have hfloat {x : Option Float} {f : Float → Float}
      (h : x.map (fun y => float (f y)) = some j) : j.Sound := by
    obtain ⟨y, -, rfl⟩ := Option.map_eq_some_iff.1 h
    trivial
  split at h
  · split at h
    · cases h
      exact sound_int_iff.2 ⟨by omega, by omega⟩
    · split at h
      · exact hfloat h
      · rename_i hrange
        rw [show Nat.pow 2 63 = 9223372036854775808 from rfl] at hrange
        cases h
        exact sound_int_iff.2 ⟨by omega, by omega⟩
  · exact hfloat h

/-- A sound scalar, or no scalar at all. -/
def Token.Sound : Token → Prop
  | .scalar j => j.Sound
  | _ => True

theorem sound_of_next? {cs rest : List Char} {t : Token} (h : next? cs = some (t, rest)) :
    t.Sound := by
  unfold next? at h
  split at h
  case h_10 =>
    obtain ⟨p, -, hp⟩ := Option.map_eq_some_iff.1 h
    obtain ⟨rfl, -⟩ := Prod.mk.inj hp
    trivial
  case h_11 =>
    obtain ⟨⟨j, rest'⟩, hj, hp⟩ := Option.map_eq_some_iff.1 h
    obtain ⟨rfl, -⟩ := Prod.mk.inj hp
    obtain ⟨_, _, _, _, hnumber⟩ := exists_numberOf? hj
    exact sound_of_numberOf? hnumber
  all_goals
    cases h
    trivial

theorem sound_of_tokensWithin? {fuel : Nat} {cs : List Char} {ts : List Token}
    (h : tokensWithin? fuel cs = some ts) : ∀ t ∈ ts, t.Sound := by
  induction fuel generalizing cs ts with
  | zero => cases h
  | succ fuel ih =>
      unfold tokensWithin? at h
      split at h
      · cases h
        nofun
      · simp only [Option.bind_eq_bind, Option.bind_eq_some_iff] at h
        obtain ⟨⟨t, rest⟩, hnext, us, hus, hts⟩ := h
        obtain rfl := Option.some.inj hts
        intro u hu
        rcases List.mem_cons.1 hu with rfl | hu
        · exact sound_of_next? hnext
        · exact ih hus u hu

/-! ### Reading -/

/-- Only sound documents in an open array or object. -/
def Frame.Sound : Frame → Prop
  | .array items => SoundItems items
  | .object members _ => SoundMembers members

namespace ReaderState

/-- Only sound documents so far. -/
structure Sound (s : ReaderState) : Prop where
  frames : ∀ f ∈ s.frames, f.Sound
  document : ∀ j, s.expecting = .nothing j → j.Sound

variable {frames : List Frame} {s s' : ReaderState} {t : Token}

theorem sound_complete (hframes : ∀ f ∈ frames, f.Sound) {j : Json} (hj : j.Sound) :
    (complete frames j).Sound := by
  unfold complete
  split
  · refine ⟨nofun, fun j' h => ?_⟩
    obtain rfl := Expecting.nothing.inj h
    exact hj
  · have hinner : SoundItems _ := hframes _ List.mem_cons_self
    refine ⟨fun f hf => ?_, nofun⟩
    rcases List.mem_cons.1 hf with rfl | hf
    · exact ⟨hj, hinner⟩
    · exact hframes f (List.mem_cons_of_mem _ hf)
  · have hinner : SoundMembers _ := hframes _ List.mem_cons_self
    refine ⟨fun f hf => ?_, nofun⟩
    rcases List.mem_cons.1 hf with rfl | hf
    · exact hinner.insertField hj _
    · exact hframes f (List.mem_cons_of_mem _ hf)

theorem sound_value? (hframes : ∀ f ∈ frames, f.Sound) (ht : t.Sound)
    (h : value? frames t = some s') : s'.Sound := by
  have hopened {frame : Frame} {expecting : Expecting}
      (h : opened? frames frame expecting = some s') (hframe : frame.Sound)
      (hexpecting : ∀ j, expecting ≠ .nothing j) : s'.Sound := by
    unfold opened? at h
    split at h
    · cases h
      refine ⟨fun f hf => ?_, fun j hj => absurd hj (hexpecting j)⟩
      rcases List.mem_cons.1 hf with rfl | hf
      · exact hframe
      · exact hframes f hf
    · cases h
  cases t with
  | openArray => exact hopened h trivial nofun
  | openObject => exact hopened h trivial nofun
  | scalar j =>
      cases h
      exact sound_complete hframes ht
  | _ => cases h

theorem sound_close? (hframes : ∀ f ∈ frames, f.Sound) (h : close? frames t = some s') :
    s'.Sound := by
  have houter {frame : Frame} {outer : List Frame} (heq : frames = frame :: outer) :
      frame.Sound ∧ ∀ f ∈ outer, f.Sound := by
    subst heq
    exact ⟨hframes _ List.mem_cons_self, fun f hf => hframes f (List.mem_cons_of_mem _ hf)⟩
  unfold close? at h
  split at h <;> try cases h
  · split at h <;> cases h
    obtain ⟨hitems, hframes⟩ := houter rfl
    exact sound_complete hframes hitems.reverse
  · split at h <;> cases h
    obtain ⟨hmembers, hframes⟩ := houter rfl
    exact sound_complete hframes hmembers

theorem sound_name? (hframes : ∀ f ∈ frames, f.Sound) (h : name? frames t = some s') :
    s'.Sound := by
  unfold name? at h
  split at h
  · split at h
    · cases h
      have hinner : SoundMembers _ := hframes _ List.mem_cons_self
      refine ⟨fun f hf => ?_, nofun⟩
      rcases List.mem_cons.1 hf with rfl | hf
      · exact hinner
      · exact hframes f (List.mem_cons_of_mem _ hf)
    · cases h
  · cases h

/-- **One token** keeps the reader sound. -/
theorem sound_step? (hs : s.Sound) (ht : t.Sound) (h : s.step? t = some s') : s'.Sound := by
  have hframes := hs.frames
  unfold step? at h
  split at h
  · exact sound_value? hframes ht h
  · rcases Option.or_eq_some_iff.1 h with h | ⟨-, h⟩
    · exact sound_close? hframes h
    · exact sound_value? hframes ht h
  · exact sound_name? hframes h
  · rcases Option.or_eq_some_iff.1 h with h | ⟨-, h⟩
    · exact sound_close? hframes h
    · exact sound_name? hframes h
  · split at h <;> cases h
    exact ⟨hframes, nofun⟩
  · split at h
    · cases h
      exact ⟨hframes, nofun⟩
    · cases h
      exact ⟨hframes, nofun⟩
    · exact sound_close? hframes h
  · cases h

/-- Any tokens keep the reader sound. -/
theorem sound_foldlM {ts : List Token} (hts : ∀ t ∈ ts, t.Sound) (hs : s.Sound)
    (h : ts.foldlM step? s = some s') : s'.Sound := by
  induction ts generalizing s with
  | nil =>
      cases h
      exact hs
  | cons t ts ih =>
      rw [List.foldlM_cons, Option.bind_eq_bind, Option.bind_eq_some_iff] at h
      obtain ⟨middle, hstep, h⟩ := h
      exact ih (fun u hu => hts u (List.mem_cons_of_mem t hu))
        (sound_step? hs (hts t List.mem_cons_self) hstep) h

end ReaderState

/-- **What is read is sound.** -/
theorem sound_of_read? {s : String} {j : Json} (h : read? s = some j) : j.Sound := by
  obtain ⟨ts, hts, h⟩ := Option.bind_eq_some_iff.1 h
  have htokens := sound_of_tokensWithin? hts
  unfold ofTokens? at h
  split at h
  · rename_i frames j' hrun
    cases h
    have hstart : ReaderState.start.Sound := ⟨nofun, nofun⟩
    exact (ReaderState.sound_foldlM htokens hstart hrun).document j rfl
  · cases h

end Json

end SqlAccess
