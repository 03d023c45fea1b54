/-
**Code read byte by byte.**

Whether a character is code depends on ASCII characters only: quotes, the marks of comments and
parentheses.  A text read byte by byte, each byte as the character with its number, is therefore
read as it is character by character, and what is offered as code are the bytes of the characters
that are.  Places count in bytes here.

Main definitions:

* `SqlAccess.Sql.Offer` — a byte of code, where it stands, and how many parentheses are open there;
* `SqlAccess.Sql.offered` — **the bytes of code**, found in one pass by the place of each;
* `SqlAccess.Sql.scanned` — those that the characters of code consist of;
* `SqlAccess.Sql.StandsAt` — a keyword stands at a byte.

Main results:

* `SqlAccess.Sql.Place.past_raw` — bytes lead where their text leads;
* `SqlAccess.Sql.scanned_eq_offered` — both ways find the same bytes;
* `SqlAccess.Sql.standsAt_iff` — keywords stand where what comes before leads to code;
* `SqlAccess.Sql.scan_reads_code` — **the scan finds the bytes of code**, its count the markers
  among them, and its search the first keyword there.
-/

import Mathlib.Order.Bounds.Basic
import SqlAccess.Proofs.Sql.Keyword
import SqlAccess.Proofs.Text.Bytes

set_option autoImplicit false

namespace SqlAccess.Sql

open Text (Beyond Alike raw ofBytes bytesOf)

variable {p q : Place} {c d : Char} {cs ds : List Char} {ahead other : Option Char}

/-! ### Characters outside the ASCII range -/

theorem not_mem_stirring_of_beyond (h : Beyond c) : c ∉ stirring :=
  not_mem_stirring (f := fun c => decide (Beyond c)) rfl (decide_eq_true h)

theorem Place.settles_of_beyond (h : Beyond c) : Place.Settles (some c) := by
  refine ⟨?_, ?_, ?_⟩ <;> rintro ⟨⟩ <;> exact absurd h (by decide)

/-- Of two next characters that are alike, either may follow. -/
theorem Place.next_of_alike (h : Alike ahead other) (p : Place) (c : Char) :
    p.next c ahead = p.next c other := by
  rcases h with rfl | ⟨⟨a, rfl, ha⟩, b, rfl, hb⟩
  · rfl
  · exact next_congr (settles_of_beyond ha) (settles_of_beyond hb) p c

theorem Place.offers_of_alike (h : Alike ahead other) (p : Place) (c : Char) :
    p.Offers c ahead ↔ p.Offers c other := by
  have hmode := congrArg Place.mode (next_of_alike h p c)
  simp only [Place.next] at hmode
  rw [Place.Offers, Place.Offers, hmode]

/-- Nothing begins and nothing ends there. -/
theorem Place.Fits.next_of_beyond (h : p.Fits (some c)) (hc : Beyond c) (ahead : Option Char) :
    p.next c ahead = p := by
  have hstir := not_mem_stirring_of_beyond hc
  have hne {d : Char} (hd : ¬ Beyond d) : c ≠ d := by
    rintro rfl
    exact hd hc
  obtain ⟨m, depth⟩ := p
  cases m with
  | code => exact Calm.next_eq hstir depth ahead
  | quoted q =>
      have hq : ¬ Beyond q := by
        simp only [Place.Fits, isQuote, Bool.or_eq_true, beq_iff_eq] at h
        rcases h with (rfl | rfl) | rfl <;> decide
      simp [Place.next, Mode.next, hne hq]
  | line => simp [Place.next, Mode.next, hne (d := '\n') (by decide)]
  | opening =>
      obtain rfl : c = '*' := Option.some.inj h
      exact absurd hc (by decide)
  | block => simp [Place.next, Mode.next, hne (d := '*') (by decide)]
  | closing =>
      obtain rfl : c = '/' := Option.some.inj h
      exact absurd hc (by decide)

/-- Such a character completes no mark, so that anything may come in its place. -/
theorem Place.Fits.of_beyond (h : p.Fits (some c)) (hc : Beyond c) (ahead : Option Char) :
    p.Fits ahead := by
  obtain ⟨m, depth⟩ := p
  cases m with
  | opening =>
      obtain rfl : c = '*' := Option.some.inj h
      exact absurd hc (by decide)
  | closing =>
      obtain rfl : c = '/' := Option.some.inj h
      exact absurd hc (by decide)
  | _ => exact h

theorem Place.Fits.past_of_beyond (h : p.Fits cs.head?) (hcs : ∀ c ∈ cs, Beyond c)
    (ahead : Option Char) : p.past ahead cs = p := by
  induction cs with
  | nil => rfl
  | cons c cs ih =>
      rw [List.forall_mem_cons] at hcs
      rw [Place.past, h.next_of_beyond hcs.1, ih (h.of_beyond hcs.1 _) hcs.2]

theorem Place.Fits.offers_iff_of_beyond (h : p.Fits (some c)) (hc : Beyond c)
    (ahead : Option Char) : p.Offers c ahead ↔ p.mode = .code := by
  refine ⟨fun hoffers => hoffers.1, fun hmode => ?_⟩
  obtain ⟨m, depth⟩ := p
  obtain rfl : m = .code := hmode
  exact Calm.offers (not_mem_stirring_of_beyond hc) depth ahead

/-! ### Where bytes lead -/

theorem alike_or (h : Alike ahead other) (cs : List Char) :
    Alike ((raw cs).head?.or ahead) (cs.head?.or other) := by
  cases cs with
  | nil => exact h
  | cons c cs =>
      rcases Text.alike_head?_raw (c :: cs) with heq | ⟨⟨d, hd, hbeyond⟩, e, he, hbeyond'⟩
      · rw [heq]
        exact .inl rfl
      · rw [hd, he]
        exact .inr ⟨⟨d, rfl, hbeyond⟩, e, rfl, hbeyond'⟩

/-- **Bytes lead where their text leads.** -/
theorem Place.past_raw (hfits : p.Fits (cs.head?.or other)) (h : Alike ahead other) :
    p.past ahead (raw cs) = p.past other cs := by
  induction cs generalizing p with
  | nil => rfl
  | cons c cs ih =>
      have hfits : p.Fits (some c) := hfits
      by_cases hc : Beyond c
      · obtain ⟨d, ds, hbeyond, -, heq⟩ := Text.exists_raw_cons_of_beyond hc cs
        have hsame : p.past ((raw cs).head?.or ahead) (d :: ds) = p :=
          (hfits.of_beyond hc _).past_of_beyond hbeyond _
        rw [heq, past_append, hsame, past, hfits.next_of_beyond hc]
        exact ih (hfits.of_beyond hc _)
      · rw [Text.raw_cons_of_ascii hc, past, past, next_of_alike (alike_or h cs)]
        exact ih (hfits.next _)

/-! ### The bytes of code -/

/-- A byte of code, where it stands, and how many parentheses are open there. -/
structure Offer where
  offset : Nat
  byte : UInt8
  depth : Nat
  deriving DecidableEq, Repr, Inhabited

/-- The bytes of code among some bytes, the first of which stands at an offset and in a place. -/
def offeredFrom (p : Place) (offset : Nat) : List UInt8 → List Offer
  | [] => []
  | b :: bs =>
    let c := Char.ofUInt8 b
    let ahead := (ofBytes bs).head?
    (if p.Offers c ahead then [⟨offset, b, p.depth⟩] else []) ++
      offeredFrom (p.next c ahead) (offset + 1) bs

/-- **The bytes of code**: those that stand in code and are neither quotes nor parentheses and begin
no comment. -/
def offered (bytes : List UInt8) : List Offer := offeredFrom .start 0 bytes

/-- Bytes that are all offered. -/
def offersOf (offset depth : Nat) : List UInt8 → List Offer
  | [] => []
  | b :: bs => ⟨offset, b, depth⟩ :: offersOf (offset + 1) depth bs

/-- The bytes of a character of code in a text of so many bytes. -/
def Spot.offers (length : Nat) (s : Spot) : List Offer :=
  offersOf (length - (bytesOf s.text).length) s.depth (String.utf8EncodeChar s.char)

/-- The bytes of the characters of code in a text. -/
def scanned (cs : List Char) : List Offer := (spots cs).flatMap (Spot.offers (bytesOf cs).length)

theorem offeredFrom_of_beyond {bs rest : List UInt8} (h : p.Fits (ofBytes bs).head?)
    (hbs : ∀ b ∈ bs, 128 ≤ b.toNat) (offset : Nat) :
    offeredFrom p offset (bs ++ rest) =
      (if p.mode = .code then offersOf offset p.depth bs else []) ++
        offeredFrom p (offset + bs.length) rest := by
  induction bs generalizing offset with
  | nil => simp [offersOf]
  | cons b bs ih =>
      rw [List.forall_mem_cons] at hbs
      have hb : Beyond (Char.ofUInt8 b) := by
        rw [Beyond, Text.toNat_ofUInt8]
        exact hbs.1
      have hfits : p.Fits (some (Char.ofUInt8 b)) := h
      rw [List.cons_append, offeredFrom, hfits.next_of_beyond hb,
        ih (hfits.of_beyond hb _) hbs.2, List.length_cons, Nat.add_right_comm, ← Nat.add_assoc]
      by_cases hmode : p.mode = .code
      · rw [if_pos ((hfits.offers_iff_of_beyond hb _).2 hmode), if_pos hmode, if_pos hmode]
        rfl
      · rw [if_neg fun ho => hmode ((hfits.offers_iff_of_beyond hb _).1 ho), if_neg hmode,
          if_neg hmode]
        rfl

/-- The bytes of code of a text are those of its characters of code. -/
theorem flatMap_spotsIn_eq_offeredFrom (hfits : p.Fits cs.head?) (before : Option Char)
    (offset : Nat) {length : Nat} (hlength : length = offset + (bytesOf cs).length) :
    (spotsIn p.mode before p.depth cs).flatMap (Spot.offers length) =
      offeredFrom p offset (bytesOf cs) := by
  induction cs generalizing p before offset with
  | nil => rfl
  | cons c cs ih =>
      have hfits : p.Fits (some c) := hfits
      rw [Text.bytesOf_cons, List.length_append] at hlength
      have hoffset : length - (bytesOf (c :: cs)).length = offset := by
        rw [Text.bytesOf_cons, List.length_append]
        omega
      have hrest := ih (hfits.next cs.head?) (some c) (offset + (String.utf8EncodeChar c).length)
        (by omega)
      have hhere : (if p.Offers c cs.head? then [(⟨c, p.depth, before, c :: cs⟩ : Spot)]
          else []).flatMap (Spot.offers length) =
            if p.Offers c cs.head? then offersOf offset p.depth (String.utf8EncodeChar c)
            else [] := by
        split
        · rw [List.flatMap_singleton, Spot.offers, hoffset]
        · rfl
      rw [spotsIn_cons, List.flatMap_append, hrest, hhere, Text.bytesOf_cons]
      by_cases hc : Beyond c
      · obtain ⟨d, ds, hbeyond, heq, -⟩ := Text.exists_raw_cons_of_beyond hc cs
        rw [offeredFrom_of_beyond (heq ▸ hfits.of_beyond hc _) (Text.le_toNat_of_mem_encode hc),
          hfits.next_of_beyond hc]
        by_cases hmode : p.mode = .code
        · rw [if_pos ((hfits.offers_iff_of_beyond hc _).2 hmode), if_pos hmode]
        · rw [if_neg fun ho => hmode ((hfits.offers_iff_of_beyond hc _).1 ho), if_neg hmode]
      · rw [Text.utf8EncodeChar_of_not_beyond hc, List.singleton_append, offeredFrom,
          Text.ofUInt8_toUInt8 hc]
        have halike := Text.alike_head?_raw cs
        change Alike (ofBytes (bytesOf cs)).head? cs.head? at halike
        simp only [Place.offers_of_alike halike, Place.next_of_alike halike]
        rfl

/-- **Both ways find the same bytes.** -/
theorem scanned_eq_offered (cs : List Char) : scanned cs = offered (bytesOf cs) := by
  rw [scanned, spots, spotsFrom_eq_spotsIn]
  exact flatMap_spotsIn_eq_offeredFrom (Place.fits_start _) none 0 (Nat.zero_add _).symm

/-- A byte that is a character of code when each byte is one. -/
def Spot.offer (length : Nat) (s : Spot) : Offer :=
  ⟨length - s.text.length, s.char.toUInt8, s.depth⟩

theorem map_spotsIn_eq_offeredFrom (p : Place) (before : Option Char) (offset : Nat)
    (bytes : List UInt8) {length : Nat} (hlength : length = offset + bytes.length) :
    (spotsIn p.mode before p.depth (ofBytes bytes)).map (Spot.offer length) =
      offeredFrom p offset bytes := by
  induction bytes generalizing p before offset with
  | nil => rfl
  | cons b bs ih =>
      rw [List.length_cons] at hlength
      have hbytes : ofBytes (b :: bs) = Char.ofUInt8 b :: ofBytes bs := rfl
      have hoffset : length - (Char.ofUInt8 b :: ofBytes bs).length = offset := by
        rw [List.length_cons, Text.length_ofBytes]
        omega
      rw [hbytes, spotsIn_cons, List.map_append, offeredFrom,
        ih _ (some (Char.ofUInt8 b)) (offset + 1) (by omega)]
      congr 1
      split
      · rw [List.map_singleton, Spot.offer, hoffset, Text.toUInt8_ofUInt8]
      · rfl

/-- **In any bytes** the characters of code are the bytes of code. -/
theorem map_spots_ofBytes (bytes : List UInt8) :
    (spots (ofBytes bytes)).map (Spot.offer bytes.length) = offered bytes := by
  rw [spots, spotsFrom_eq_spotsIn]
  exact map_spotsIn_eq_offeredFrom .start none 0 bytes (Nat.zero_add _).symm

/-! ### Markers -/

theorem countP_offersOf (offset depth : Nat) (b : UInt8) (bytes : List UInt8) :
    (offersOf offset depth bytes).countP (fun o => o.byte == b) = bytes.countP (· == b) := by
  induction bytes generalizing offset with
  | nil => rfl
  | cons d bytes ih => rw [offersOf, List.countP_cons, List.countP_cons, ih]

/-- Of all characters, only the marker has its byte. -/
theorem countP_utf8EncodeChar (c : Char) :
    (String.utf8EncodeChar c).countP (· == '?'.toUInt8) = if c = '?' then 1 else 0 := by
  by_cases hc : Beyond c
  · have hne : c ≠ '?' := by
      rintro rfl
      exact absurd hc (by decide)
    rw [if_neg hne, List.countP_eq_zero]
    intro b hb hmark
    have hle := Text.le_toNat_of_mem_encode hc b hb
    rw [eq_of_beq hmark] at hle
    exact absurd hle (by decide)
  · have hiff : c.toUInt8 = '?'.toUInt8 ↔ c = '?' := by
      refine ⟨fun h => ?_, fun h => h ▸ rfl⟩
      rw [← Text.ofUInt8_toUInt8 hc, h]
      rfl
    rw [Text.utf8EncodeChar_of_not_beyond hc, List.countP_singleton]
    simp only [beq_iff_eq, hiff]

/-- **The count is that of the markers in code.** -/
theorem markerCount_eq_countP (cs : List Char) :
    markerCount cs = (offered (bytesOf cs)).countP (fun o => o.byte == '?'.toUInt8) := by
  have hspot (s : Spot) : (s.offers (bytesOf cs).length).countP (fun o => o.byte == '?'.toUInt8) =
      if s.char = '?' then 1 else 0 := by
    rw [Spot.offers, countP_offersOf, countP_utf8EncodeChar]
  have hspots (ss : List Spot) :
      (ss.flatMap (Spot.offers (bytesOf cs).length)).countP (fun o => o.byte == '?'.toUInt8) =
        ss.countP fun s => s.char == '?' := by
    induction ss with
    | nil => rfl
    | cons s ss ih =>
        rw [List.flatMap_cons, List.countP_append, hspot, ih, List.countP_cons, Nat.add_comm]
        simp only [beq_iff_eq]
  rw [← scanned_eq_offered, scanned, hspots, markerCount]

/-! ### Keywords -/

/-- **A keyword stands at a byte**: in code, outside parentheses, and as a whole word. -/
def StandsAt (keywords : List (List Char)) (bytes : List UInt8) (i : Nat) : Prop :=
  (∃ o ∈ offered bytes, o.offset = i ∧ o.depth = 0) ∧
    (ofBytes (bytes.take i)).getLast?.any Text.isWordChar = false ∧
    keywords.any (fun keyword => Text.beginsWithKeyword keyword (ofBytes (bytes.drop i))) = true

section Offered

variable {offset : Nat} {b : UInt8} {bs : List UInt8} {o : Offer}

theorem mem_offeredFrom_cons :
    o ∈ offeredFrom p offset (b :: bs) ↔
      (p.Offers (Char.ofUInt8 b) (ofBytes bs).head? ∧ o = ⟨offset, b, p.depth⟩) ∨
        o ∈ offeredFrom (p.next (Char.ofUInt8 b) (ofBytes bs).head?) (offset + 1) bs := by
  rw [offeredFrom, List.mem_append]
  refine or_congr_left ?_
  split <;> rename_i hoffers <;> simp [hoffers]

theorem le_offset_of_mem_offeredFrom (h : o ∈ offeredFrom p offset bs) : offset ≤ o.offset := by
  induction bs generalizing p offset with
  | nil => cases h
  | cons b bs ih =>
      rcases mem_offeredFrom_cons.1 h with ⟨-, rfl⟩ | h
      · exact Nat.le_refl _
      · exact Nat.le_of_succ_le (ih h)

/-- The first byte is offered if it is one of code. -/
theorem exists_offer_here_iff (p : Place) (offset depth : Nat) (b : UInt8) (bs : List UInt8) :
    (∃ o ∈ offeredFrom p offset (b :: bs), o.offset = offset ∧ o.depth = depth) ↔
      p.Offers (Char.ofUInt8 b) (ofBytes bs).head? ∧ p.depth = depth := by
  constructor
  · rintro ⟨o, ho, hoffset, rfl⟩
    rcases mem_offeredFrom_cons.1 ho with ⟨hoffers, rfl⟩ | ho
    · exact ⟨hoffers, rfl⟩
    · have hle := le_offset_of_mem_offeredFrom ho
      omega
  · rintro ⟨hoffers, hdepth⟩
    exact ⟨⟨offset, b, p.depth⟩, mem_offeredFrom_cons.2 (.inl ⟨hoffers, rfl⟩), rfl, hdepth⟩

/-- A byte behind the first is offered if it is one of the rest that is. -/
theorem exists_offer_behind_iff (p : Place) (offset depth i : Nat) (b : UInt8) (bs : List UInt8) :
    (∃ o ∈ offeredFrom p offset (b :: bs), o.offset = offset + (i + 1) ∧ o.depth = depth) ↔
      ∃ o ∈ offeredFrom (p.next (Char.ofUInt8 b) (ofBytes bs).head?) (offset + 1) bs,
        o.offset = offset + 1 + i ∧ o.depth = depth := by
  refine exists_congr fun o => ⟨?_, ?_⟩
  · rintro ⟨ho, hoffset, hdepth⟩
    rcases mem_offeredFrom_cons.1 ho with ⟨-, rfl⟩ | ho
    · simp only at hoffset
      omega
    · exact ⟨ho, by omega, hdepth⟩
  · rintro ⟨ho, hoffset, hdepth⟩
    exact ⟨mem_offeredFrom_cons.2 (.inr ho), by omega, hdepth⟩

end Offered

/-- A byte is offered if the bytes before it lead to code where it is one. -/
theorem exists_offer_iff (p : Place) (offset depth i : Nat) (bytes : List UInt8) :
    (∃ o ∈ offeredFrom p offset bytes, o.offset = offset + i ∧ o.depth = depth) ↔
      ∃ c cs, ofBytes (bytes.drop i) = c :: cs ∧
        (p.past (some c) (ofBytes (bytes.take i))).Offers c cs.head? ∧
        (p.past (some c) (ofBytes (bytes.take i))).depth = depth := by
  induction bytes generalizing p offset i with
  | nil => simp [offeredFrom, ofBytes]
  | cons b bs ih =>
      cases i with
      | zero =>
          rw [Nat.add_zero, exists_offer_here_iff]
          constructor
          · rintro ⟨hoffers, hdepth⟩
            exact ⟨_, _, rfl, hoffers, hdepth⟩
          · rintro ⟨c, cs, heq, hoffers, hdepth⟩
            obtain ⟨rfl, rfl⟩ := List.cons.inj heq
            exact ⟨hoffers, hdepth⟩
      | succ i =>
          rw [exists_offer_behind_iff, ih, List.drop_succ_cons, List.take_succ_cons]
          refine exists_congr fun c => exists_congr fun cs => and_congr_right fun heq => ?_
          have hahead : (ofBytes bs).head? = (ofBytes (bs.take i)).head?.or (some c) := by
            rw [← Text.ofBytes_take_append_drop bs i, heq, List.head?_append, List.head?_cons]
          rw [hahead]
          rfl

/-- **Keywords stand where what comes before leads to code.** -/
theorem standsAt_iff {keywords : List (List Char)} (hkeywords : Lettered keywords)
    (bytes : List UInt8) (i : Nat) :
    StandsAt keywords bytes i ↔
      KeywordAt keywords (ofBytes (bytes.take i)) (ofBytes (bytes.drop i)) := by
  have hoffers := exists_offer_iff .start 0 0 i bytes
  rw [Nat.zero_add] at hoffers
  rw [StandsAt, offered, hoffers, KeywordAt, KeywordFrom, Option.or_none]
  constructor
  · rintro ⟨⟨c, cs, hcut, hoffers, hdepth⟩, hlast, hbegins⟩
    refine ⟨?_, hlast, hbegins⟩
    rw [hcut, List.head?_cons]
    exact congrArg₂ Place.mk hoffers.1 hdepth
  · rintro ⟨hstart, hlast, hbegins⟩
    obtain ⟨c, cs, hcut, halpha⟩ := exists_alpha_of_beginsWithKeyword hkeywords hbegins
    rw [hcut, List.head?_cons] at hstart
    refine ⟨⟨c, cs, hcut, ?_, ?_⟩, hlast, hbegins⟩
    · rw [hstart]
      exact Calm.offers (not_mem_stirring (f := Char.isAlpha) rfl halpha) 0 _
    · rw [hstart]
      rfl

/-- A keyword stands between two texts if it stands between their bytes. -/
theorem keywordAt_raw {keywords : List (List Char)} (hkeywords : Worded keywords)
    (before after : List Char) :
    KeywordAt keywords (raw before) (raw after) ↔ KeywordAt keywords before after :=
  keywordAt_congr (Place.past_raw (Place.fits_start _) (Text.alike_head?_raw after))
    (Text.any_isWordChar_of_alike (Text.alike_getLast?_raw before))
    fun keyword hkeyword => Text.beginsWithKeyword_raw (hkeywords keyword hkeyword).chars after

/-- Where a keyword stands the text may be cut. -/
theorem exists_cut_of_standsAt {keywords : List (List Char)} (hkeywords : Worded keywords) {i : Nat}
    (h : StandsAt keywords (bytesOf cs) i) :
    ∃ before after, cs = before ++ after ∧ (bytesOf before).length ≤ i ∧
      KeywordAt keywords before after := by
  have hkeyword := (standsAt_iff hkeywords.lettered _ _).1 h
  obtain ⟨c, rest, hafter, halpha⟩ :=
    exists_alpha_of_beginsWithKeyword hkeywords.lettered hkeyword.2.2
  have hascii := Text.not_beyond_of_isWordChar (Text.isWordChar_of_isAlpha halpha)
  have hraw : raw cs = ofBytes ((bytesOf cs).take i) ++ c :: rest := by
    rw [← hafter, Text.ofBytes_take_append_drop, raw]
  obtain ⟨before, after, rfl, hb, ha⟩ := Text.exists_cut_of_raw hascii hraw
  refine ⟨before, after, rfl, ?_, ?_⟩
  · rw [← Text.length_ofBytes, ← raw, hb, Text.length_ofBytes, List.length_take]
    exact Nat.min_le_left _ _
  · rw [← keywordAt_raw hkeywords, hb, ha, ← hafter]
    exact hkeyword

theorem standsAt_of_keywordAt {keywords : List (List Char)} (hkeywords : Worded keywords)
    {before after : List Char} (h : KeywordAt keywords before after) :
    StandsAt keywords (bytesOf (before ++ after)) (bytesOf before).length := by
  rw [standsAt_iff hkeywords.lettered, Text.bytesOf_append, List.take_left, List.drop_left]
  exact (keywordAt_raw hkeywords before after).2 h

/-- **The search finds the first byte at which a keyword stands.** -/
theorem isLeast_of_findKeyword? {keywords : List (List Char)} (hkeywords : Worded keywords)
    {before after : List Char} (h : findKeyword? keywords cs = some (before, after)) :
    IsLeast {i | StandsAt keywords (bytesOf cs) i} (bytesOf before).length := by
  obtain ⟨rfl, hkeyword, hleast⟩ := firstCut_of_findKeyword? hkeywords.lettered h
  refine ⟨standsAt_of_keywordAt hkeywords hkeyword, fun i hi => ?_⟩
  obtain ⟨b, a, hcut, hlength, hother⟩ := exists_cut_of_standsAt hkeywords hi
  have hprefix : before <+: b :=
    List.prefix_of_prefix_length_le (List.prefix_append before after)
      (hcut ▸ List.prefix_append b a) (hleast b a hcut hother)
  obtain ⟨more, rfl⟩ := hprefix
  rw [Text.bytesOf_append, List.length_append] at hlength
  exact Nat.le_of_add_right_le hlength

/-- **The scan finds the bytes of code**: in any bytes, and in a text those of its characters of
code.  Its count is that of the markers among them, and its search finds the first byte of code at
which a keyword stands outside parentheses, and nothing only where there is none. -/
theorem scan_reads_code :
    (∀ bytes : List UInt8, (spots (ofBytes bytes)).map (Spot.offer bytes.length) = offered bytes) ∧
    ∀ sql : String,
      scanned sql.toList = offered (Postgres.ofText sql) ∧
      markerCount sql.toList =
        (offered (Postgres.ofText sql)).countP (fun o => o.byte == '?'.toUInt8) ∧
      ∀ keywords, Worded keywords →
        (∀ before after, findKeyword? keywords sql.toList = some (before, after) →
          sql.toList = before ++ after ∧
          IsLeast {i | StandsAt keywords (Postgres.ofText sql) i} (bytesOf before).length) ∧
        (findKeyword? keywords sql.toList = none →
          ∀ i, ¬ StandsAt keywords (Postgres.ofText sql) i) := by
  refine ⟨map_spots_ofBytes, fun sql => ?_⟩
  rw [← Text.bytesOf_toList]
  refine ⟨scanned_eq_offered _, markerCount_eq_countP _, fun keywords hkeywords => ⟨?_, ?_⟩⟩
  · intro before after h
    exact ⟨(firstCut_of_findKeyword? hkeywords.lettered h).eq, isLeast_of_findKeyword? hkeywords h⟩
  · intro h i hi
    obtain ⟨before, after, hcut, -, hkeyword⟩ := exists_cut_of_standsAt hkeywords hi
    exact (findKeyword?_eq_none_iff hkeywords.lettered).1 h before after hcut hkeyword

/-- A quoted and a commented `FROM`, one in parentheses, and one that is the end of a word, before
the one that is found. -/
def mixedSql : String := "SELECT 'é FROM ?' AS ü_from /*/ FROM ? */, (SELECT ? FROM u) from t -- ?"

theorem scan_reads_code_of_mixed :
    Worded ["FROM".toList] ∧
      IsLeast {i | StandsAt ["FROM".toList] (Postgres.ofText mixedSql) i} 63 := by
  have hworded : Worded ["FROM".toList] := by decide
  have hfind : findKeyword? ["FROM".toList] mixedSql.toList =
      some ("SELECT 'é FROM ?' AS ü_from /*/ FROM ? */, (SELECT ? FROM u) ".toList,
        "from t -- ?".toList) := by
    decide +kernel
  obtain ⟨-, hleast⟩ := ((scan_reads_code.2 mixedSql).2.2 _ hworded).1 _ _ hfind
  exact ⟨hworded, hleast⟩

end SqlAccess.Sql
