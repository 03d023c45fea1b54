/-
**Texts read byte by byte.**

A text is stored as bytes: an ASCII character is one byte with its number, and every other character
is several bytes, all of them above the ASCII range.  Whoever looks for ASCII characters only may
therefore read the bytes one by one, each as the character with its number, and finds the same.

Main definitions:

* `SqlAccess.Text.bytesOf` — the bytes of a text;
* `SqlAccess.Text.ofBytes`, `SqlAccess.Text.raw` — bytes as characters, and a text as the characters
  of its bytes;
* `SqlAccess.Text.Beyond` — a character outside the ASCII range.

Main results:

* `SqlAccess.Text.raw_cons_of_ascii`, `SqlAccess.Text.exists_raw_cons_of_beyond` — the bytes of a
  text, character by character;
* `SqlAccess.Text.exists_cut_of_raw` — an ASCII byte begins a character;
* `SqlAccess.Text.beginsWithKeyword_raw` — what begins with a keyword does so in bytes.
-/

import SqlAccess.Proofs.Postgres.Bytes
import SqlAccess.Proofs.Text.Word

set_option autoImplicit false

namespace SqlAccess.Text

variable {c d : Char} {cs ds rest keyword : List Char}

/-! ### Bytes -/

/-- The bytes of a text. -/
def bytesOf (cs : List Char) : List UInt8 := cs.flatMap String.utf8EncodeChar

/-- Bytes as the characters with their numbers. -/
def ofBytes (bs : List UInt8) : List Char := bs.map Char.ofUInt8

/-- A text as the characters of its bytes. -/
def raw (cs : List Char) : List Char := ofBytes (bytesOf cs)

@[simp] theorem bytesOf_nil : bytesOf [] = [] := rfl

theorem bytesOf_cons (c : Char) (cs : List Char) :
    bytesOf (c :: cs) = String.utf8EncodeChar c ++ bytesOf cs :=
  List.flatMap_cons

theorem bytesOf_append (cs ds : List Char) : bytesOf (cs ++ ds) = bytesOf cs ++ bytesOf ds :=
  List.flatMap_append

theorem bytesOf_toList (s : String) : bytesOf s.toList = Postgres.ofText s := by
  have hbytes : s.toByteArray = (bytesOf s.toList).toByteArray := by
    rw [← String.utf8Encode_toList]
    rfl
  rw [Postgres.ofText_eq, hbytes, List.data_toByteArray]

@[simp] theorem length_ofBytes (bs : List UInt8) : (ofBytes bs).length = bs.length :=
  List.length_map _

theorem ofBytes_take_append_drop (bs : List UInt8) (i : Nat) :
    ofBytes (bs.take i) ++ ofBytes (bs.drop i) = ofBytes bs := by
  rw [ofBytes, ofBytes, ← List.map_append, List.take_append_drop]
  rfl

theorem raw_append (cs ds : List Char) : raw (cs ++ ds) = raw cs ++ raw ds := by
  rw [raw, bytesOf_append, ofBytes, List.map_append]
  rfl

/-! ### ASCII and beyond -/

/-- A character outside the ASCII range. -/
def Beyond (c : Char) : Prop := 128 ≤ c.toNat

instance (c : Char) : Decidable (Beyond c) := inferInstanceAs (Decidable (_ ≤ _))

theorem utf8EncodeChar_of_not_beyond (h : ¬ Beyond c) : String.utf8EncodeChar c = [c.toUInt8] := by
  refine String.utf8EncodeChar_eq_singleton (Char.utf8Size_eq_one_iff.2 ?_)
  exact UInt32.le_iff_toNat_le.2 (Nat.le_of_lt_succ (Nat.lt_of_not_le h))

theorem toNat_ofUInt8 (b : UInt8) : (Char.ofUInt8 b).toNat = b.toNat := UInt8.toNat_toUInt32 b

theorem ofUInt8_toUInt8 (h : ¬ Beyond c) : Char.ofUInt8 c.toUInt8 = c := by
  have hlt : c.toNat < 128 := Nat.lt_of_not_le h
  have hbyte : c.toUInt8.toNat = c.toNat := by
    have hmod : c.toUInt8.toNat = c.toNat % 256 := UInt32.toNat_toUInt8 c.val
    omega
  exact Char.toNat_inj.1 ((toNat_ofUInt8 _).trans hbyte)

theorem toUInt8_ofUInt8 (b : UInt8) : (Char.ofUInt8 b).toUInt8 = b := by
  refine UInt8.toNat_inj.1 ?_
  have hmod : (Char.ofUInt8 b).toUInt8.toNat = (Char.ofUInt8 b).toNat % 256 :=
    UInt32.toNat_toUInt8 _
  have hlt := UInt8.toNat_lt b
  rw [toNat_ofUInt8] at hmod
  omega

/-- The bytes of all other characters are above the ASCII range. -/
theorem le_toNat_of_mem_encode (h : Beyond c) : ∀ b ∈ String.utf8EncodeChar c, 128 ≤ b.toNat := by
  have hbyte (n : Nat) {k base : Nat} (hk : 0 < k) (hbase : 128 ≤ base) (hsum : k + base ≤ 256) :
      128 ≤ (UInt8.ofNat (n % k + base)).toNat := by
    have hmod := Nat.mod_lt n hk
    rw [UInt8.toNat_ofNat', Nat.mod_eq_of_lt (by omega)]
    omega
  have hlarge : ¬ c.val.toNat ≤ 0x7f := Nat.not_le.2 h
  rw [String.utf8EncodeChar, if_neg hlarge]
  split
  · simp only [List.forall_mem_cons]
    exact ⟨hbyte _ (by decide) (by decide) (by decide), hbyte _ (by decide) (by decide) (by decide),
      nofun⟩
  · split
    · simp only [List.forall_mem_cons]
      exact ⟨hbyte _ (by decide) (by decide) (by decide),
        hbyte _ (by decide) (by decide) (by decide), hbyte _ (by decide) (by decide) (by decide),
        nofun⟩
    · simp only [List.forall_mem_cons]
      exact ⟨hbyte _ (by decide) (by decide) (by decide),
        hbyte _ (by decide) (by decide) (by decide), hbyte _ (by decide) (by decide) (by decide),
        hbyte _ (by decide) (by decide) (by decide), nofun⟩

theorem beyond_of_mem_ofBytes (h : Beyond c) (hd : d ∈ ofBytes (String.utf8EncodeChar c)) :
    Beyond d := by
  obtain ⟨b, hb, rfl⟩ := List.mem_map.1 hd
  rw [Beyond, toNat_ofUInt8]
  exact le_toNat_of_mem_encode h b hb

/-! ### Character by character -/

theorem raw_cons (c : Char) (cs : List Char) :
    raw (c :: cs) = ofBytes (String.utf8EncodeChar c) ++ raw cs := by
  rw [raw, bytesOf_cons, ofBytes, List.map_append]
  rfl

/-- An ASCII character is one byte. -/
theorem raw_cons_of_ascii (h : ¬ Beyond c) (cs : List Char) : raw (c :: cs) = c :: raw cs := by
  rw [raw_cons, utf8EncodeChar_of_not_beyond h, ofBytes, List.map_singleton, ofUInt8_toUInt8 h,
    List.singleton_append]

/-- Any other character is one byte or more, and all of them are outside the ASCII range. -/
theorem exists_raw_cons_of_beyond (h : Beyond c) (cs : List Char) :
    ∃ d ds, (∀ e ∈ d :: ds, Beyond e) ∧ ofBytes (String.utf8EncodeChar c) = d :: ds ∧
      raw (c :: cs) = d :: ds ++ raw cs := by
  have hne : ofBytes (String.utf8EncodeChar c) ≠ [] := by simp [ofBytes]
  obtain ⟨d, ds, heq⟩ := List.exists_cons_of_ne_nil hne
  refine ⟨d, ds, fun e he => beyond_of_mem_ofBytes h (heq ▸ he), heq, ?_⟩
  rw [raw_cons, heq]

/-- Two next characters that are the same or both outside the ASCII range. -/
def Alike (a b : Option Char) : Prop :=
  a = b ∨ (∃ c, a = some c ∧ Beyond c) ∧ ∃ d, b = some d ∧ Beyond d

theorem alike_head?_raw (cs : List Char) : Alike (raw cs).head? cs.head? := by
  cases cs with
  | nil => exact .inl rfl
  | cons c cs =>
      by_cases hc : Beyond c
      · obtain ⟨d, ds, hbeyond, -, heq⟩ := exists_raw_cons_of_beyond hc cs
        rw [heq]
        exact .inr ⟨⟨d, rfl, hbeyond d List.mem_cons_self⟩, c, rfl, hc⟩
      · rw [raw_cons_of_ascii hc]
        exact .inl rfl

theorem alike_getLast?_raw (cs : List Char) : Alike (raw cs).getLast? cs.getLast? := by
  rcases List.eq_nil_or_concat cs with rfl | ⟨cs, c, rfl⟩
  · exact .inl rfl
  · rw [List.concat_eq_append, raw_append, List.getLast?_concat]
    by_cases hc : Beyond c
    · obtain ⟨d, ds, hbeyond, -, heq⟩ := exists_raw_cons_of_beyond hc []
      have hne : d :: ds ≠ [] := List.cons_ne_nil d ds
      have hlast : (d :: ds ++ raw []).getLast? = some ((d :: ds).getLast hne) := by
        rw [← List.getLast?_eq_some_getLast hne]
        exact congrArg List.getLast? (List.append_nil _)
      rw [heq, List.getLast?_append, hlast, Option.some_or]
      exact .inr ⟨⟨_, rfl, hbeyond _ (List.getLast_mem hne)⟩, c, rfl, hc⟩
    · rw [raw_cons_of_ascii hc]
      exact .inl (List.getLast?_concat ..)

/-- **An ASCII byte begins a character**: a text may be cut before it. -/
theorem exists_cut_of_raw (hd : ¬ Beyond d) (h : raw cs = ds ++ d :: rest) :
    ∃ before after, cs = before ++ after ∧ raw before = ds ∧ raw after = d :: rest := by
  induction cs generalizing ds with
  | nil => exact absurd h.symm (by simp [raw, ofBytes])
  | cons c cs ih =>
      rw [raw_cons] at h
      rcases List.append_eq_append_iff.1 h with ⟨a, rfl, ha⟩ | ⟨a, hc, ha⟩
      · obtain ⟨before, after, rfl, rfl, hafter⟩ := ih ha
        exact ⟨c :: before, after, rfl, raw_cons c before, hafter⟩
      · cases a with
        | nil =>
            refine ⟨[c], cs, rfl, ?_, ha.symm⟩
            rw [raw_cons, hc, List.append_nil]
            exact List.append_nil ds
        | cons e a =>
            -- the byte is one of this character, which is then an ASCII character
            obtain ⟨rfl, -⟩ := List.cons.inj ha
            have hascii : ¬ Beyond c :=
              fun hbeyond => hd (beyond_of_mem_ofBytes hbeyond (by rw [hc]; simp))
            have hnil : ds = [] := by
              have hlength := congrArg List.length hc
              rw [utf8EncodeChar_of_not_beyond hascii] at hlength
              simp only [length_ofBytes, List.length_append, List.length_cons, List.length_nil]
                at hlength
              exact List.eq_nil_of_length_eq_zero (by omega)
            subst hnil
            exact ⟨[], c :: cs, rfl, rfl, by rw [raw_cons, h, List.nil_append]⟩

/-! ### Words -/

theorem not_beyond_of_isWordChar (h : isWordChar c = true) : ¬ Beyond c := by
  have hrange := isWordChar_iff.1 h
  exact Nat.not_le.2 (by omega)

theorem any_isWordChar_of_alike {a b : Option Char} (h : Alike a b) :
    a.any isWordChar = b.any isWordChar := by
  rcases h with rfl | ⟨⟨c, rfl, hc⟩, d, rfl, hd⟩
  · rfl
  · have hnot {c : Char} (hc : Beyond c) : isWordChar c = false :=
      Bool.eq_false_iff.2 fun h => not_beyond_of_isWordChar h hc
    rw [Option.any_some, Option.any_some, hnot hc, hnot hd]

/-- **A keyword begins a text if it begins its bytes.** -/
theorem beginsWithKeyword_raw (hchars : ∀ k ∈ keyword, isWordChar k = true) (cs : List Char) :
    beginsWithKeyword keyword (raw cs) = beginsWithKeyword keyword cs := by
  induction keyword generalizing cs with
  | nil =>
      simp only [beginsWithKeyword, sameIgnoringCase, List.length_nil, List.take_zero,
        List.drop_zero, any_isWordChar_of_alike (alike_head?_raw cs)]
  | cons k keyword ih =>
      rw [List.forall_mem_cons] at hchars
      -- no character outside the ASCII range is one of the keyword
      have hdiffers {c : Char} (hc : Beyond c) : (c.toLower == k.toLower) = false := by
        refine beq_false_of_ne fun heq => not_beyond_of_isWordChar ?_ hc
        rw [← isWordChar_toLower, heq, isWordChar_toLower, hchars.1]
      cases cs with
      | nil => rfl
      | cons c cs =>
          by_cases hc : Beyond c
          · obtain ⟨d, ds, hbeyond, -, heq⟩ := exists_raw_cons_of_beyond hc cs
            rw [heq, List.cons_append, beginsWithKeyword_cons_cons, beginsWithKeyword_cons_cons,
              hdiffers hc, hdiffers (hbeyond d List.mem_cons_self), Bool.false_and, Bool.false_and]
          · rw [raw_cons_of_ascii hc, beginsWithKeyword_cons_cons, beginsWithKeyword_cons_cons,
              ih hchars.2]

end SqlAccess.Text
