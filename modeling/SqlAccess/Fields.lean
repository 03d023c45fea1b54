/-
**Named fields.**

The fields of a map and the names of a scope are lists of pairs in ascending order of their keys,
each key once.

Main definitions:

* `SqlAccess.insertField` — the fields with one more, at its place in the order;
* `SqlAccess.findField?` — the value of a field;
* `SqlAccess.orderFields` — any fields put in order.

Main results:

* `SqlAccess.insertField_of_lt` — a field after all others is put at the end;
* `SqlAccess.findField?_insertField_self`, `SqlAccess.findField?_insertField_of_ne` — an insertion
  is seen under its own key and under no other.
-/

set_option autoImplicit false

namespace SqlAccess

/-- The fields with one more: put at its place in the order of keys, or in place of the field that
had its key. -/
def insertField {α : Type} (key : String) (value : α) : List (String × α) → List (String × α)
  | [] => [(key, value)]
  | (k, v) :: rest =>
    if key < k then (key, value) :: (k, v) :: rest
    else if key = k then (key, value) :: rest
    else (k, v) :: insertField key value rest

/-- The value of a field. -/
def findField? {α : Type} (key : String) (fields : List (String × α)) : Option α :=
  (fields.find? fun f => f.1 = key).map Prod.snd

/-- Fields in the order of their keys; of fields with one key the last stays. -/
def orderFields {α : Type} (fields : List (String × α)) : List (String × α) :=
  fields.foldl (fun kept f => insertField f.1 f.2 kept) []

theorem insertField_of_lt {α : Type} {key : String} {fields : List (String × α)}
    (h : ∀ f ∈ fields, f.1 < key) (value : α) :
    insertField key value fields = fields ++ [(key, value)] := by
  induction fields with
  | nil => rfl
  | cons f fields ih =>
    have hf := h f List.mem_cons_self
    have hne : ¬ key = f.1 := fun heq => String.lt_irrefl key (heq ▸ hf)
    have hafter : ¬ key < f.1 := String.lt_asymm hf
    rw [insertField, if_neg hafter, if_neg hne,
      ih fun g hg => h g (List.mem_cons_of_mem f hg), List.cons_append]

theorem mem_insertField {α : Type} {key : String} {value : α} {fields : List (String × α)}
    {f : String × α} (h : f ∈ insertField key value fields) : f = (key, value) ∨ f ∈ fields := by
  induction fields with
  | nil => exact .inl (List.mem_singleton.1 h)
  | cons g fields ih =>
    unfold insertField at h
    split at h
    · exact List.mem_cons.1 h
    · split at h
      · exact (List.mem_cons.1 h).imp_right (List.mem_cons_of_mem g)
      · rcases List.mem_cons.1 h with rfl | h
        · exact .inr List.mem_cons_self
        · exact (ih h).imp_right (List.mem_cons_of_mem g)

theorem findField?_insertField_self {α : Type} (key : String) (value : α)
    (fields : List (String × α)) : findField? key (insertField key value fields) = some value := by
  induction fields with
  | nil => simp [insertField, findField?]
  | cons f fields ih =>
    unfold insertField
    split
    · simp [findField?]
    · split
      · simp [findField?]
      · rename_i hne
        have hne : ¬ f.1 = key := fun h => hne h.symm
        simpa [findField?, hne] using ih

theorem findField?_insertField_of_ne {α : Type} {key other : String} (h : other ≠ key) (value : α)
    (fields : List (String × α)) :
    findField? other (insertField key value fields) = findField? other fields := by
  have hk : ¬ key = other := fun e => h e.symm
  induction fields with
  | nil => simp [insertField, findField?, hk]
  | cons f fields ih =>
    unfold insertField
    split
    · simp [findField?, hk]
    · split
      · rename_i he
        have hf : ¬ f.1 = other := fun e => hk (he.trans e)
        simp [findField?, hk, hf]
      · unfold findField? at ih ⊢
        by_cases hf : f.1 = other <;> simp [hf, ih]

end SqlAccess
