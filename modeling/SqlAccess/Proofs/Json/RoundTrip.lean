/-
**Documents read back.**

The tokens of a document open, fill and close its arrays and objects one inside the other, so that
the reader, wherever it expects a value, ends up with that document, unless more of them are open at
once than it allows.  Together with the tokens of a text this says what is read from the text of a
document.

Main definitions:

* `SqlAccess.Json.depth` — how many arrays and objects are open at once.

Main results:

* `SqlAccess.Json.foldlM_written` — the reader on the tokens of a document;
* `SqlAccess.Json.read?_render` — **what is read from the text of a sound document** is the document
  itself, but for its floats;
* `SqlAccess.Value.ofJson_ofValue` — a value built from nulls, Booleans, integers and texts is the
  value of its document.
-/

import SqlAccess.Proofs.Json.Tokens

set_option autoImplicit false

namespace SqlAccess.Json

open ReaderState

mutual

/-- How many arrays and objects of a document are open at once. -/
def depth : Json → Nat
  | array items => itemsDepth items + 1
  | object members => membersDepth members + 1
  | _ => 0

/-- The largest depth of several documents. -/
def itemsDepth : List Json → Nat
  | [] => 0
  | j :: rest => max j.depth (itemsDepth rest)

/-- The largest depth of the documents of members. -/
def membersDepth : List (String × Json) → Nat
  | [] => 0
  | (_, j) :: rest => max j.depth (membersDepth rest)

end

/-! ### The reader on tokens -/

variable {frames : List Frame} {us : List Token}

/-- Where an array may close, a document is read like any other. -/
theorem foldlM_valueOrClose (j : Json) (us : List Token) :
    (written j ++ us).foldlM step? ⟨frames, .valueOrClose⟩ =
      (written j ++ us).foldlM step? ⟨frames, .value⟩ := by
  cases j with
  | array items => cases items <;> rfl
  | object members => cases members <;> rfl
  | _ => rfl

/-- A token that opens an array or object, with what comes after it. -/
theorem foldlM_opening (frames : List Frame) {t : Token} (frame : Frame) (expecting : Expecting)
    (us : List Token) (h : value? frames t = opened? frames frame expecting) :
    (t :: us).foldlM step? ⟨frames, .value⟩ =
      if frames.length < maxDepth then us.foldlM step? ⟨frame :: frames, expecting⟩ else none := by
  rw [List.foldlM_cons]
  change (value? frames t).bind (fun s => us.foldlM step? s) = _
  rw [h, opened?]
  split <;> rfl

theorem foldlM_scalar {j : Json} (hwritten : written j = [.scalar j]) (hdepth : j.depth = 0)
    (us : List Token) (hframes : frames.length ≤ maxDepth) :
    (written j ++ us).foldlM step? ⟨frames, .value⟩ =
      if frames.length + j.depth ≤ maxDepth then us.foldlM step? (complete frames j) else none := by
  rw [hwritten, hdepth, Nat.add_zero, if_pos hframes]
  rfl

/-- The depth of several documents is the largest of them. -/
theorem ite_depth {α : Type} (n a b : Nat) (x : Option α) :
    (if n + a ≤ maxDepth then if n + b ≤ maxDepth then x else none else none) =
      if n + max a b ≤ maxDepth then x else none := by
  split_ifs <;> first | rfl | omega

mutual

/-- **The tokens of a document** make up that document, unless too many arrays and objects are open
at once. -/
theorem foldlM_written : ∀ {j : Json}, j.Sound → ∀ {frames : List Frame} (us : List Token),
    frames.length ≤ maxDepth →
    (written j ++ us).foldlM step? ⟨frames, .value⟩ =
      if frames.length + j.depth ≤ maxDepth then us.foldlM step? (complete frames j) else none
  | .null, _, _, us, hframes => foldlM_scalar rfl rfl us hframes
  | .bool _, _, _, us, hframes => foldlM_scalar rfl rfl us hframes
  | .int _, _, _, us, hframes => foldlM_scalar rfl rfl us hframes
  | .float _, _, _, us, hframes => foldlM_scalar rfl rfl us hframes
  | .text _, _, _, us, hframes => foldlM_scalar rfl rfl us hframes
  | .array [], _, frames, us, _ =>
      foldlM_opening frames (.array []) .valueOrClose (.closeArray :: us) rfl
  | .object [], _, frames, us, _ =>
      foldlM_opening frames (.object [] "") .nameOrClose (.closeObject :: us) rfl
  | .array (j :: items), h, frames, us, _ => by
      have hwritten : written (.array (j :: items)) ++ us =
          .openArray :: (written j ++ (moreItems items ++ .closeArray :: us)) := by
        simp [written]
      rw [hwritten, foldlM_opening frames (.array []) .valueOrClose _ rfl]
      by_cases hframes : frames.length < maxDepth
      · -- the first item is read as if it came after a comma
        rw [if_pos hframes, foldlM_valueOrClose]
        have hmore := foldlM_moreItems (show SoundItems (j :: items) from h) [] us hframes
        rw [moreItems, List.cons_append, List.append_assoc] at hmore
        rw [depth, Nat.add_comm (itemsDepth _), ← Nat.add_assoc]
        exact hmore
      · rw [if_neg hframes, if_neg (by simp only [depth]; omega)]
  | .object ((k, j) :: members), h, frames, us, _ => by
      have hwritten : written (.object ((k, j) :: members)) ++ us =
          .openObject :: .scalar (.text k) :: .colon ::
            (written j ++ (moreMembers members ++ .closeObject :: us)) := by
        simp [written]
      rw [hwritten, foldlM_opening frames (.object [] "") .nameOrClose _ rfl]
      by_cases hframes : frames.length < maxDepth
      · rw [if_pos hframes]
        have hmore := foldlM_moreMembers (show SoundMembers ((k, j) :: members) from h) [] "" us
          nofun hframes
        rw [moreMembers, List.cons_append, List.cons_append, List.cons_append,
          List.append_assoc] at hmore
        rw [depth, Nat.add_comm (membersDepth _), ← Nat.add_assoc]
        exact hmore
      · rw [if_neg hframes, if_neg (by simp only [depth]; omega)]

/-- **Further items** are put after those that are read. -/
theorem foldlM_moreItems : ∀ {items : List Json}, SoundItems items →
    ∀ {frames : List Frame} (acc : List Json) (us : List Token), frames.length < maxDepth →
    (moreItems items ++ .closeArray :: us).foldlM step? ⟨.array acc :: frames, .commaOrClose⟩ =
      if frames.length + 1 + itemsDepth items ≤ maxDepth then
        us.foldlM step? (complete frames (.array (acc.reverse ++ items)))
      else none
  | [], _, frames, acc, us, hframes => by
      have hdepth : frames.length + 1 + itemsDepth [] ≤ maxDepth := hframes
      rw [if_pos hdepth, List.append_nil]
      rfl
  | j :: items, h, frames, acc, us, hframes => by
      have hitem : (written j ++ (moreItems items ++ .closeArray :: us)).foldlM step?
          ⟨.array acc :: frames, .value⟩ =
          if frames.length + 1 + j.depth ≤ maxDepth then
            (moreItems items ++ .closeArray :: us).foldlM step?
              ⟨.array (j :: acc) :: frames, .commaOrClose⟩
          else none :=
        foldlM_written h.1 _ hframes
      have hmore := foldlM_moreItems h.2 (j :: acc) us hframes
      rw [hmore, ite_depth, List.reverse_cons, List.append_assoc] at hitem
      rw [moreItems, List.cons_append, List.append_assoc]
      exact hitem

/-- **Further members** are put after those that are read. -/
theorem foldlM_moreMembers : ∀ {members : List (String × Json)}, SoundMembers members →
    ∀ {frames : List Frame} (acc : List (String × Json)) (name : String) (us : List Token),
    (∀ f ∈ acc, ∀ g ∈ members, f.1 < g.1) → frames.length < maxDepth →
    (moreMembers members ++ .closeObject :: us).foldlM step?
        ⟨.object acc name :: frames, .commaOrClose⟩ =
      if frames.length + 1 + membersDepth members ≤ maxDepth then
        us.foldlM step? (complete frames (.object (acc ++ members)))
      else none
  | [], _, frames, acc, name, us, _, hframes => by
      have hdepth : frames.length + 1 + membersDepth [] ≤ maxDepth := hframes
      rw [if_pos hdepth, List.append_nil]
      rfl
  | (k, j) :: members, h, frames, acc, name, us, hafter, hframes => by
      have hlast : insertField k j acc = acc ++ [(k, j)] :=
        insertField_of_lt (fun f hf => hafter f hf (k, j) List.mem_cons_self) j
      have hmember : (written j ++ (moreMembers members ++ .closeObject :: us)).foldlM step?
          ⟨.object acc k :: frames, .value⟩ =
          if frames.length + 1 + j.depth ≤ maxDepth then
            (moreMembers members ++ .closeObject :: us).foldlM step?
              ⟨.object (insertField k j acc) k :: frames, .commaOrClose⟩
          else none :=
        foldlM_written h.2.1 _ hframes
      have hnext : ∀ f ∈ acc ++ [(k, j)], ∀ g ∈ members, f.1 < g.1 := by
        intro f hf g hg
        rcases List.mem_append.1 hf with hf | hf
        · exact hafter f hf g (List.mem_cons_of_mem _ hg)
        · obtain rfl := List.mem_singleton.1 hf
          exact h.1 g hg
      have hmore := foldlM_moreMembers h.2.2 (acc ++ [(k, j)]) k us hnext hframes
      rw [hlast, hmore, ite_depth, List.append_assoc] at hmember
      rw [moreMembers, List.cons_append, List.cons_append, List.cons_append, List.append_assoc]
      exact hmember

end

/-! ### Documents -/

mutual

/-- Reading floats again leaves a document sound and as deep as it was. -/
theorem sound_of_reread? : ∀ {j j' : Json}, j.Sound → j.reread? = some j' →
    j'.Sound ∧ j'.depth = j.depth
  | .null, _, h, hj | .bool _, _, h, hj | .int _, _, h, hj | .text _, _, h, hj => by
      cases hj
      exact ⟨h, rfl⟩
  | .float x, _, _, hj => by
      obtain ⟨y, rfl⟩ := exists_float_of_floatAgain? hj
      exact ⟨trivial, rfl⟩
  | .array items, _, h, hj => by
      obtain ⟨items', hitems, rfl⟩ := Option.map_eq_some_iff.1 hj
      obtain ⟨hsound, hdepth⟩ := soundItems_of_rereadItems? h hitems
      exact ⟨hsound, congrArg (· + 1) hdepth⟩
  | .object members, _, h, hj => by
      obtain ⟨members', hmembers, rfl⟩ := Option.map_eq_some_iff.1 hj
      obtain ⟨hsound, hdepth, -⟩ := soundMembers_of_rereadMembers? h hmembers
      exact ⟨hsound, congrArg (· + 1) hdepth⟩

theorem soundItems_of_rereadItems? : ∀ {items items' : List Json}, SoundItems items →
    rereadItems? items = some items' →
    SoundItems items' ∧ itemsDepth items' = itemsDepth items
  | [], _, h, hj => by
      cases hj
      exact ⟨h, rfl⟩
  | j :: items, _, h, hj => by
      simp only [rereadItems?, Option.bind_eq_bind, Option.bind_eq_some_iff] at hj
      obtain ⟨j', hj', items', hitems', hcons⟩ := hj
      obtain rfl := Option.some.inj hcons
      obtain ⟨hsound, hdepth⟩ := sound_of_reread? h.1 hj'
      obtain ⟨hsounds, hdepths⟩ := soundItems_of_rereadItems? h.2 hitems'
      exact ⟨⟨hsound, hsounds⟩, by rw [itemsDepth, itemsDepth, hdepth, hdepths]⟩

theorem soundMembers_of_rereadMembers? : ∀ {members members' : List (String × Json)},
    SoundMembers members → rereadMembers? members = some members' →
    SoundMembers members' ∧ membersDepth members' = membersDepth members ∧
      members'.map Prod.fst = members.map Prod.fst
  | [], _, h, hj => by
      cases hj
      exact ⟨h, rfl, rfl⟩
  | (k, j) :: members, _, h, hj => by
      simp only [rereadMembers?, Option.bind_eq_bind, Option.bind_eq_some_iff] at hj
      obtain ⟨j', hj', members', hmembers', hcons⟩ := hj
      obtain rfl := Option.some.inj hcons
      obtain ⟨hfirst, hj, hmembers⟩ := h
      obtain ⟨hsound, hdepth⟩ := sound_of_reread? hj hj'
      obtain ⟨hsounds, hdepths, hnames⟩ := soundMembers_of_rereadMembers? hmembers hmembers'
      refine ⟨⟨fun f hf => ?_, hsound, hsounds⟩, ?_, ?_⟩
      · have hname : f.1 ∈ members.map Prod.fst := hnames ▸ List.mem_map_of_mem hf
        obtain ⟨g, hg, hfg⟩ := List.mem_map.1 hname
        exact hfg ▸ hfirst g hg
      · rw [membersDepth, membersDepth, hdepth, hdepths]
      · rw [List.map_cons, List.map_cons, hnames]

end

theorem ofTokens?_written {j : Json} (h : j.Sound) :
    ofTokens? (written j) = if j.depth ≤ maxDepth then some j else none := by
  have hrun : (written j ++ []).foldlM step? ⟨[], .value⟩ =
      if 0 + j.depth ≤ maxDepth then some ⟨[], .nothing j⟩ else none :=
    foldlM_written h [] (Nat.zero_le _)
  rw [List.append_nil, Nat.zero_add] at hrun
  unfold ofTokens? start
  rw [hrun]
  by_cases hdepth : j.depth ≤ maxDepth
  · simp only [if_pos hdepth]
  · simp only [if_neg hdepth]

/-- **What is read from the text of a document** is the document itself, each float as it is read
from its own text, unless too many arrays and objects are open at once. -/
theorem read?_render {j : Json} (h : j.Sound) :
    read? j.render = if j.depth ≤ maxDepth then j.reread? else none := by
  unfold read?
  rw [tokens?_render h]
  cases hj : j.reread? with
  | none =>
      split <;> rfl
  | some j' =>
      obtain ⟨hsound, hdepth⟩ := sound_of_reread? h hj
      rw [← hdepth, ← ofTokens?_written hsound]
      rfl

/-! ### Documents and values that stay as they are -/

mutual

/-- No number with a point or an exponent. -/
def Floatless : Json → Prop
  | float _ => False
  | array items => FloatlessItems items
  | object members => FloatlessMembers members
  | _ => True

/-- Documents without floats. -/
def FloatlessItems : List Json → Prop
  | [] => True
  | j :: rest => j.Floatless ∧ FloatlessItems rest

/-- Documents without floats, under any names. -/
def FloatlessMembers : List (String × Json) → Prop
  | [] => True
  | (_, j) :: rest => j.Floatless ∧ FloatlessMembers rest

end

mutual

/-- A document without floats is itself when it is read again. -/
theorem reread?_of_floatless : ∀ {j : Json}, j.Floatless → j.reread? = some j
  | .null, _ | .bool _, _ | .int _, _ | .text _, _ => rfl
  | .array items, h => by rw [reread?, rereadItems?_of_floatless h, Option.map_some]
  | .object members, h => by rw [reread?, rereadMembers?_of_floatless h, Option.map_some]

theorem rereadItems?_of_floatless : ∀ {items : List Json}, FloatlessItems items →
    rereadItems? items = some items
  | [], _ => rfl
  | j :: items, h => by
      rw [rereadItems?, reread?_of_floatless h.1, rereadItems?_of_floatless h.2]
      rfl

theorem rereadMembers?_of_floatless : ∀ {members : List (String × Json)},
    FloatlessMembers members → rereadMembers? members = some members
  | [], _ => rfl
  | (k, j) :: members, h => by
      rw [rereadMembers?, reread?_of_floatless h.1, rereadMembers?_of_floatless h.2]
      rfl

end

end SqlAccess.Json

namespace SqlAccess.Value

mutual

/-- Built from nulls, Booleans, integers and texts. -/
def Plain : Value → Prop
  | null | bool _ | int _ | text _ => True
  | list items => PlainItems items
  | map fields => PlainFields fields
  | _ => False

/-- Plain values. -/
def PlainItems : List Value → Prop
  | [] => True
  | v :: rest => v.Plain ∧ PlainItems rest

/-- Plain values, under any keys. -/
def PlainFields : List (String × Value) → Prop
  | [] => True
  | (_, v) :: rest => v.Plain ∧ PlainFields rest

end

theorem ofInteger_toInt (n : Int64) : ofInteger n.toInt = int n := by
  have hrange : -Int.pow 2 63 ≤ n.toInt ∧ n.toInt < Int.pow 2 63 := ⟨n.le_toInt, n.toInt_lt⟩
  rw [ofInteger, if_pos hrange, Int64.ofInt_toInt]

mutual

/-- **A plain value** is the value of its document, which has no floats. -/
theorem ofJson_ofValue : ∀ {v : Value}, v.Plain →
    (Json.ofValue v).Floatless ∧ ofJson (Json.ofValue v) = v
  | .null, _ | .bool _, _ | .text _, _ => ⟨trivial, rfl⟩
  | .int n, _ => ⟨trivial, ofInteger_toInt n⟩
  | .list items, h => by
      obtain ⟨hfloatless, hitems⟩ := ofJsonItems_ofItems h
      exact ⟨hfloatless, congrArg list hitems⟩
  | .map fields, h => by
      obtain ⟨hfloatless, hfields⟩ := ofJsonMembers_ofFields h
      exact ⟨hfloatless, congrArg map hfields⟩

theorem ofJsonItems_ofItems : ∀ {items : List Value}, PlainItems items →
    Json.FloatlessItems (Json.ofItems items) ∧ ofJsonItems (Json.ofItems items) = items
  | [], _ => ⟨trivial, rfl⟩
  | v :: items, h => by
      obtain ⟨hfloatless, hv⟩ := ofJson_ofValue h.1
      obtain ⟨hfloatlesses, hitems⟩ := ofJsonItems_ofItems h.2
      exact ⟨⟨hfloatless, hfloatlesses⟩, by rw [Json.ofItems, ofJsonItems, hv, hitems]⟩

theorem ofJsonMembers_ofFields : ∀ {fields : List (String × Value)}, PlainFields fields →
    Json.FloatlessMembers (Json.ofFields fields) ∧ ofJsonMembers (Json.ofFields fields) = fields
  | [], _ => ⟨trivial, rfl⟩
  | (k, v) :: fields, h => by
      obtain ⟨hfloatless, hv⟩ := ofJson_ofValue h.1
      obtain ⟨hfloatlesses, hfields⟩ := ofJsonMembers_ofFields h.2
      exact ⟨⟨hfloatless, hfloatlesses⟩, by rw [Json.ofFields, ofJsonMembers, hv, hfields]⟩

end

end SqlAccess.Value
