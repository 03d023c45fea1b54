/-
**The tokens of a written document.**

What is written for a scalar is read as one token, whatever may follow it in a document, and the
brackets, commas and colons between the scalars are tokens of their own.  Only a float may be read
as another float, or not at all, since what is read from its text is not always the nearest number.

Main definitions:

* `SqlAccess.Json.reread?` — a document, each float as it is read from its own text;
* `SqlAccess.Json.written` — the tokens of a document;
* `SqlAccess.Json.Spells` — a chunk that has certain tokens before all that may come next.

Main results:

* `SqlAccess.Json.spells_quoted` — **texts are read as they are**, with all their escapes;
* `SqlAccess.Json.spells_render` — **the text of a document** has the tokens of what is reread.
-/

import Mathlib.Tactic.SplitIfs
import SqlAccess.Proofs.Json.Sound

set_option autoImplicit false

namespace SqlAccess.Json

variable {c : Char} {cs rest : List Char} {t : Token} {us : Option (List Token)}

/-! ### Tokens -/

/-- The tokens of a text, if it has any, for all fuel that is enough. -/
def Lexes (cs : List Char) (ts : Option (List Token)) : Prop :=
  ∀ fuel, cs.length < fuel → tokensWithin? fuel cs = ts

theorem Lexes.tokens? {ts : Option (List Token)} (h : Lexes cs ts) : tokens? cs = ts :=
  h _ (Nat.lt_succ_self _)

theorem lexes_nil : Lexes [] (some []) := by
  intro fuel hfuel
  obtain ⟨fuel, rfl⟩ := Nat.exists_eq_succ_of_ne_zero (Nat.ne_of_gt hfuel)
  rfl

/-- Tokens after tokens, if there are both. -/
def followed (ts us : Option (List Token)) : Option (List Token) :=
  ts.bind fun ts => us.map (ts ++ ·)

@[simp] theorem followed_nil : followed (some []) us = us := by
  cases us <;> rfl

/-- A chunk that has these tokens before all that may come next. -/
def Spells (chunk : List Char) (ts : Option (List Token)) : Prop :=
  ∀ rest us, Stops rest → Lexes rest us → Lexes (chunk ++ rest) (followed ts us)

theorem Lexes.cons (h : Lexes rest us) (next : Option Token) (hgap : isGap c = false)
    (hnext : next? (c :: cs) = next.map fun t => (t, rest)) (hlength : rest.length ≤ cs.length) :
    Lexes (c :: cs) (followed (next.map fun t => [t]) us) := by
  intro fuel hfuel
  obtain ⟨fuel, rfl⟩ := Nat.exists_eq_succ_of_ne_zero (Nat.ne_of_gt (Nat.zero_lt_of_lt hfuel))
  rw [List.length_cons] at hfuel
  rw [tokensWithin?, List.dropWhile_cons_of_neg (by simp [hgap])]
  cases next with
  | none => simp [hnext, followed]
  | some t =>
      simp only [hnext, Option.map_some, Option.bind_eq_bind, Option.bind_some, followed,
        h fuel (by omega)]
      cases us <;> rfl

theorem spells_scalar (scalar : Option Json) (hgap : isGap c = false)
    (h : ∀ rest, Stops rest →
      next? (c :: cs ++ rest) = scalar.map fun j => (.scalar j, rest)) :
    Spells (c :: cs) (scalar.map fun j => [.scalar j]) := by
  intro rest us hstops hlexes
  have hlength : rest.length ≤ (cs ++ rest).length := by
    rw [List.length_append]
    omega
  have hnext : next? (c :: (cs ++ rest)) =
      (scalar.map Token.scalar).map fun t => (t, rest) := by
    rw [Option.map_map]
    exact h rest hstops
  have hcons := hlexes.cons _ hgap hnext hlength
  rw [Option.map_map] at hcons
  exact hcons

/-! ### Texts -/

theorem hexFour?_append {ds : List Char} {n : Nat} (h : hexFour? ds = some (n, []))
    (rest : List Char) : hexFour? (ds ++ rest) = some (n, rest) := by
  unfold hexFour? at h
  split at h
  · rename_i a b c d more
    simp only [Option.bind_eq_bind, Option.bind_eq_some_iff, Option.pure_def, Option.some.injEq,
      Prod.mk.injEq] at h
    obtain ⟨values, hvalues, hn, rfl⟩ := h
    simp only [List.cons_append, List.nil_append, hexFour?, hvalues, Option.bind_eq_bind,
      Option.bind_some, Option.pure_def, hn]
  · cases h

/-- Four digits for each control character. -/
theorem hexFour?_control (n : Nat) (h : n < 0x20) :
    hexFour? (List.replicate (4 - (Nat.toDigits 16 n).length) '0' ++ Nat.toDigits 16 n) =
      some (n, []) := by
  have hall : ∀ n < 0x20, hexFour? (List.replicate (4 - (Nat.toDigits 16 n).length) '0' ++
      Nat.toDigits 16 n) = some (n, []) := by decide
  exact hall n h

theorem unescape?_control (h : c.toNat < 0x20) (rest : List Char) :
    unescape? ('u' :: (List.replicate (4 - (Nat.toDigits 16 c.toNat).length) '0' ++
      Nat.toDigits 16 c.toNat) ++ rest) = some (c, rest) := by
  have hdigits := hexFour?_append (hexFour?_control c.toNat h) rest
  have hhigh : ¬ (0xD800 ≤ c.toNat ∧ c.toNat ≤ 0xDBFF) := by omega
  have hlow : ¬ (0xDC00 ≤ c.toNat ∧ c.toNat ≤ 0xDFFF) := by omega
  rw [List.cons_append, unescape?, hdigits]
  simp only [Option.bind_eq_bind, Option.bind_some, hhigh, hlow, if_false, Char.ofNat_toNat]

/-- A character that is escaped or stands for itself is read as itself. -/
theorem textBody?_escaped (fuel : Nat) (c : Char) (rest : List Char) :
    textBody? (fuel + 1) (escaped c ++ rest) =
      (textBody? fuel rest).map fun p => (c :: p.1, p.2) := by
  have hescape (cs : List Char) (h : unescape? (cs ++ rest) = some (c, rest)) :
      textBody? (fuel + 1) ('\\' :: cs ++ rest) =
        (textBody? fuel rest).map fun p => (c :: p.1, p.2) := by
    rw [List.cons_append, textBody?, h]
    cases hbody : textBody? fuel rest <;> simp [hbody]
  unfold escaped
  -- the characters with a letter of their own, then the other control characters, then all others
  by_cases hquote : c = '"'
  · subst hquote; exact hescape ['"'] rfl
  by_cases hbackslash : c = '\\'
  · subst hbackslash; exact hescape ['\\'] rfl
  by_cases hnewline : c = '\n'
  · subst hnewline; exact hescape ['n'] rfl
  by_cases hreturn : c = '\r'
  · subst hreturn; exact hescape ['r'] rfl
  by_cases htab : c = '\t'
  · subst htab; exact hescape ['t'] rfl
  by_cases hback : c = '\x08'
  · subst hback; exact hescape ['b'] rfl
  by_cases hfeed : c = '\x0c'
  · subst hfeed; exact hescape ['f'] rfl
  simp only [hquote, hbackslash, hnewline, hreturn, htab, hback, hfeed, if_false]
  by_cases hcontrol : c.toNat < 0x20
  · rw [if_pos hcontrol]
    exact hescape _ (unescape?_control hcontrol rest)
  · rw [if_neg hcontrol]
    simp [textBody?, hcontrol]

theorem textBody?_flatMap_escaped {fuel : Nat} (h : cs.length < fuel) (rest : List Char) :
    textBody? fuel (cs.flatMap escaped ++ '"' :: rest) = some (cs, rest) := by
  induction cs generalizing fuel with
  | nil =>
      obtain ⟨fuel, rfl⟩ := Nat.exists_eq_succ_of_ne_zero (Nat.ne_of_gt h)
      rfl
  | cons c cs ih =>
      obtain ⟨fuel, rfl⟩ := Nat.exists_eq_succ_of_ne_zero (Nat.ne_of_gt (Nat.zero_lt_of_lt h))
      rw [List.flatMap_cons, List.append_assoc, textBody?_escaped, ih (Nat.lt_of_succ_lt_succ h),
        Option.map_some]

theorem length_le_flatMap_escaped (cs : List Char) : cs.length ≤ (cs.flatMap escaped).length := by
  have hpos (c : Char) : 1 ≤ (escaped c).length := by
    unfold escaped
    split_ifs <;> simp
  induction cs with
  | nil => exact Nat.zero_le _
  | cons c cs ih =>
      have := hpos c
      rw [List.flatMap_cons, List.length_append, List.length_cons]
      omega

/-- **A text between quotes** is read as it is. -/
theorem spells_quoted (s : String) : Spells (quoted s).toList (some [.scalar (.text s)]) := by
  rw [quoted, String.toList_ofList]
  refine spells_scalar (some (.text s)) (by decide) fun rest _ => ?_
  have hfuel : s.toList.length < (s.toList.flatMap escaped ++ '"' :: rest).length + 1 := by
    have := length_le_flatMap_escaped s.toList
    rw [List.length_append]
    omega
  have hbody := textBody?_flatMap_escaped hfuel rest
  have happend : s.toList.flatMap escaped ++ ['"'] ++ rest =
      s.toList.flatMap escaped ++ '"' :: rest := by
    rw [List.append_assoc, List.singleton_append]
  show next? ('"' :: (s.toList.flatMap escaped ++ ['"'] ++ rest)) = _
  rw [happend, next?, hbody, Option.map_some, String.ofList_toList]
  rfl

/-! ### Numbers and words -/

/-- What the text of a number starts with, be it a float that is infinite or no number. -/
def StartsNumber (c : Char) : Prop := c.isDigit = true ∨ c ∈ ['-', 'i', 'N']

theorem StartsNumber.next? (hc : StartsNumber c) (cs : List Char) :
    next? (c :: cs) = (number? (c :: cs)).map fun p => (.scalar p.1, p.2) := by
  unfold StartsNumber at hc
  unfold Json.next?
  split <;> simp_all

theorem StartsNumber.isGap (hc : StartsNumber c) : isGap c = false := by
  by_contra hgap
  simp only [Json.isGap, Bool.not_eq_false, Bool.or_eq_true, beq_iff_eq] at hgap
  rcases hgap with ((rfl | rfl) | rfl) | rfl <;> simp [StartsNumber] at hc

/-- A text that is read as a number, whatever may follow, is one token. -/
theorem spells_number (scalar : Option Json) (hc : StartsNumber c)
    (h : ∀ rest, Stops rest →
      number? (c :: cs ++ rest) = scalar.map fun j => (j, rest)) :
    Spells (c :: cs) (scalar.map fun j => [.scalar j]) := by
  refine spells_scalar scalar hc.isGap fun rest hrest => ?_
  rw [List.cons_append, hc.next?, ← List.cons_append, h rest hrest, Option.map_map]
  rfl

theorem Numeral.text_eq_cons (n : Numeral) :
    ∃ c cs, n.text = c :: cs ∧ StartsNumber c := by
  obtain ⟨c, ds, hwhole, hdigit⟩ := n.whole_eq_cons
  unfold text magnitudeText
  rw [hwhole]
  cases n.negative with
  | true => exact ⟨'-', _, rfl, .inr (by simp)⟩
  | false => exact ⟨c, _, rfl, .inl hdigit⟩

theorem spells_intText {n : Int} (hlow : -Int.pow 2 63 ≤ n) (hhigh : n < Int.pow 2 64) :
    Spells (Value.intText n).toList (some [.scalar (.int n)]) := by
  obtain ⟨c, cs, htext, hc⟩ := (Numeral.ofInt n).text_eq_cons
  have hread := Numeral.read?_ofInt hlow hhigh
  rw [← Numeral.text_ofInt, htext]
  refine spells_number (some (.int n)) hc fun rest hrest => ?_
  rw [← htext, Numeral.number?_text _ hrest, hread]

theorem spells_float (x : Float) :
    Spells (Decimal.FloatStyle.json.render x).toList
      ((floatAgain? x).map fun j => [.scalar j]) := by
  obtain ⟨c, cs, htext, hc⟩ : ∃ c cs,
      (Decimal.FloatStyle.json.render x).toList = c :: cs ∧ StartsNumber c := by
    rcases render_cases x with ⟨n, -, htext⟩ | hword
    · rw [htext]
      exact n.text_eq_cons
    · simp only [List.mem_cons, List.not_mem_nil, or_false] at hword
      rcases hword with hword | hword | hword <;> exact ⟨_, _, hword, .inr (by simp)⟩
  rw [htext]
  refine spells_number _ hc fun rest hrest => ?_
  rw [← htext, number?_render_append hrest]

theorem spells_null : Spells "null".toList (some [.scalar .null]) :=
  spells_scalar (some .null) (by decide) fun _ _ => rfl

theorem spells_boolText (b : Bool) :
    Spells (Value.boolText b).toList (some [.scalar (.bool b)]) := by
  cases b with
  | true => exact spells_scalar (some (.bool true)) (by decide) fun _ _ => rfl
  | false => exact spells_scalar (some (.bool false)) (by decide) fun _ _ => rfl

/-! ### Documents -/

mutual

/-- A document, each float as it is read from its own text, if they all denote numbers. -/
def reread? : Json → Option Json
  | float x => floatAgain? x
  | array items => (rereadItems? items).map array
  | object members => (rereadMembers? members).map object
  | j => some j

/-- Several documents, each float as it is read from its own text. -/
def rereadItems? : List Json → Option (List Json)
  | [] => some []
  | j :: rest => do return (← reread? j) :: (← rereadItems? rest)

/-- Members, each float as it is read from its own text. -/
def rereadMembers? : List (String × Json) → Option (List (String × Json))
  | [] => some []
  | (k, j) :: rest => do return (k, ← reread? j) :: (← rereadMembers? rest)

end

mutual

/-- The tokens of a document. -/
def written : Json → List Token
  | array [] => [.openArray, .closeArray]
  | array (j :: rest) => .openArray :: (written j ++ (moreItems rest ++ [.closeArray]))
  | object [] => [.openObject, .closeObject]
  | object ((k, j) :: rest) =>
    .openObject :: .scalar (text k) :: .colon :: (written j ++ (moreMembers rest ++ [.closeObject]))
  | j => [.scalar j]

/-- The tokens of further items, each after a comma. -/
def moreItems : List Json → List Token
  | [] => []
  | j :: rest => .comma :: (written j ++ moreItems rest)

/-- The tokens of further members, each after a comma. -/
def moreMembers : List (String × Json) → List Token
  | [] => []
  | (k, j) :: rest => .comma :: .scalar (text k) :: .colon :: (written j ++ moreMembers rest)

end

/-- Texts, each after a comma. -/
def moreText (texts : List String) : List Char := texts.flatMap fun s => ',' :: s.toList

theorem toList_intercalate_cons (s : String) (texts : List String) :
    (String.intercalate "," (s :: texts)).toList = s.toList ++ moreText texts := by
  rw [String.toList_intercalate]
  induction texts generalizing s with
  | nil => simp [moreText]
  | cons t texts ih =>
      have ih := ih t
      rw [List.map_cons] at ih
      rw [List.map_cons, List.map_cons, List.intercalate_cons_cons, ih]
      simp [moreText]

theorem stops_moreText {texts : List String} (h : Stops rest) : Stops (moreText texts ++ rest) := by
  cases texts with
  | nil => exact h
  | cons s texts => simp [moreText, Stops]

theorem Lexes.punctuation (h : Lexes rest us) (hgap : isGap c = false)
    (hnext : next? (c :: rest) = some (t, rest)) :
    Lexes (c :: rest) (followed (some [t]) us) :=
  h.cons (some t) hgap hnext (Nat.le_refl _)

/-- A member is its name, a colon and its document. -/
theorem Spells.member {ts : Option (List Token)} (h : Spells cs ts) (name : String) :
    Spells ((quoted name).toList ++ ':' :: cs)
      (ts.map fun ts => .scalar (.text name) :: .colon :: ts) := by
  intro rest us hstops hlexes
  have hcolon := (h rest us hstops hlexes).punctuation (c := ':') (by decide) rfl
  have hname := spells_quoted name _ _ (by simp [Stops]) hcolon
  rw [List.append_assoc, List.cons_append]
  cases ts <;> cases us <;> exact hname

mutual

/-- **The text of a document** has the tokens of what is reread. -/
theorem spells_render : ∀ {j : Json}, j.Sound → Spells j.render.toList (j.reread?.map written)
  | .null, _ => spells_null
  | .bool b, _ => spells_boolText b
  | .int n, h => spells_intText h.1 h.2
  | .float x, _ => by
      have hfloat := spells_float x
      have hwritten : (floatAgain? x).map written = (floatAgain? x).map fun j => [.scalar j] := by
        refine Option.map_congr fun j hj => ?_
        obtain ⟨y, rfl⟩ := exists_float_of_floatAgain? hj
        rfl
      rw [render, reread?, hwritten]
      exact hfloat
  | .text s, _ => spells_quoted s
  | .array [], _ => by
      intro rest us _ hlexes
      have hclose := hlexes.punctuation (c := ']') (by decide) rfl
      have hopen := hclose.punctuation (c := '[') (by decide) rfl
      cases us <;> exact hopen
  | .array (j :: items), h => by
      intro rest us _ hlexes
      have hclose := hlexes.punctuation (c := ']') (by decide) rfl
      have hmore := spells_moreItems h.2 _ _ (by simp [Stops]) hclose
      have hitem := spells_render h.1 _ _ (stops_moreText (by simp [Stops])) hmore
      have hopen := hitem.punctuation (c := '[') (by decide) rfl
      have htext : (render (.array (j :: items))).toList ++ rest = '[' :: (j.render.toList ++
          (moreText (renderItems items) ++ ']' :: rest)) := by
        simp [render, renderItems, toList_intercalate_cons, -String.toList_intercalate]
      rw [htext, reread?, rereadItems?]
      cases hj : j.reread? <;> cases hitems : rereadItems? items <;> cases us <;>
        simpa [hj, hitems, followed, written] using hopen
  | .object [], _ => by
      intro rest us _ hlexes
      have hclose := hlexes.punctuation (c := '}') (by decide) rfl
      have hopen := hclose.punctuation (c := '{') (by decide) rfl
      cases us <;> exact hopen
  | .object ((k, j) :: members), h => by
      intro rest us _ hlexes
      have hclose := hlexes.punctuation (c := '}') (by decide) rfl
      have hmore := spells_moreMembers h.2.2 _ _ (by simp [Stops]) hclose
      have hmember := (spells_render h.2.1).member k _ _ (stops_moreText (by simp [Stops])) hmore
      have hopen := hmember.punctuation (c := '{') (by decide) rfl
      have htext : (render (.object ((k, j) :: members))).toList ++ rest =
          '{' :: ((quoted k).toList ++ ':' :: j.render.toList ++
            (moreText (renderMembers members) ++ '}' :: rest)) := by
        simp [render, renderMembers, toList_intercalate_cons, -String.toList_intercalate]
      rw [htext, reread?, rereadMembers?]
      cases hj : j.reread? <;> cases hmembers : rereadMembers? members <;> cases us <;>
        simpa [hj, hmembers, followed, written] using hopen

theorem spells_moreItems : ∀ {items : List Json}, SoundItems items →
    Spells (moreText (renderItems items)) ((rereadItems? items).map moreItems)
  | [], _ => fun rest us _ hlexes => by
      simpa [rereadItems?, moreItems, renderItems, moreText] using hlexes
  | j :: items, h => by
      intro rest us hstops hlexes
      have hmore := spells_moreItems h.2 rest us hstops hlexes
      have hitem := spells_render h.1 _ _ (stops_moreText hstops) hmore
      have hcomma := hitem.punctuation (c := ',') (by decide) rfl
      have htext : moreText (renderItems (j :: items)) ++ rest =
          ',' :: (j.render.toList ++ (moreText (renderItems items) ++ rest)) := by
        simp [renderItems, moreText]
      rw [htext, rereadItems?]
      cases hj : j.reread? <;> cases hitems : rereadItems? items <;>
        simpa [hj, hitems, followed, moreItems, Function.comp_def] using hcomma

theorem spells_moreMembers : ∀ {members : List (String × Json)}, SoundMembers members →
    Spells (moreText (renderMembers members)) ((rereadMembers? members).map moreMembers)
  | [], _ => fun rest us _ hlexes => by
      simpa [rereadMembers?, moreMembers, renderMembers, moreText] using hlexes
  | (k, j) :: members, h => by
      intro rest us hstops hlexes
      have hmore := spells_moreMembers h.2.2 rest us hstops hlexes
      have hmember := (spells_render h.2.1).member k _ _ (stops_moreText hstops) hmore
      have hcomma := hmember.punctuation (c := ',') (by decide) rfl
      have htext : moreText (renderMembers ((k, j) :: members)) ++ rest =
          ',' :: ((quoted k).toList ++ ':' :: j.render.toList ++
            (moreText (renderMembers members) ++ rest)) := by
        simp [renderMembers, moreText]
      rw [htext, rereadMembers?]
      cases hj : j.reread? <;> cases hmembers : rereadMembers? members <;> cases us <;>
        simpa [hj, hmembers, followed, moreMembers] using hcomma

end

/-- The tokens of the text of a document. -/
theorem tokens?_render {j : Json} (h : j.Sound) :
    tokens? j.render.toList = j.reread?.map written := by
  have hall := (spells_render h [] (some []) stops_nil lexes_nil).tokens?
  rw [List.append_nil] at hall
  rw [hall]
  cases j.reread? <;> simp [followed]

end SqlAccess.Json
