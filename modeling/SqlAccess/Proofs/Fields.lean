/-
**Keys of fields.**

Fields stand in the order of their keys, each key once, and it is seen from the keys alone where a
look-up succeeds.

Main results:

* `SqlAccess.isSome_findField?_iff` — what is found under a key;
* `SqlAccess.mem_map_fst_insertField`, `SqlAccess.pairwise_insertField` — an insertion adds its key
  in its place;
* `SqlAccess.findField?_filter` — what is left of fields chosen by their keys;
* `SqlAccess.orderFields_of_pairwise` — fields in order stay as they are.
-/

import Mathlib.Data.List.Nodup
import Mathlib.Data.String.Basic
import SqlAccess.Fields

set_option autoImplicit false

namespace SqlAccess

variable {β : Type} {key other : String} {value : β} {fields : List (String × β)}

theorem isSome_findField?_iff :
    (findField? key fields).isSome = true ↔ key ∈ fields.map Prod.fst := by
  simp [findField?]

theorem mem_map_fst_insertField (value : β) (fields : List (String × β)) :
    other ∈ (insertField key value fields).map Prod.fst ↔
      other = key ∨ other ∈ fields.map Prod.fst := by
  rw [← isSome_findField?_iff, ← isSome_findField?_iff]
  by_cases h : other = key
  · subst h
    simp [findField?_insertField_self]
  · simp [findField?_insertField_of_ne h, h]

/-- An insertion keeps the keys in order. -/
theorem pairwise_insertField (h : (fields.map Prod.fst).Pairwise (· < ·)) (key : String)
    (value : β) : ((insertField key value fields).map Prod.fst).Pairwise (· < ·) := by
  induction fields with
  | nil => simp [insertField]
  | cons f fields ih =>
      rw [List.map_cons, List.pairwise_cons] at h
      obtain ⟨hfirst, hrest⟩ := h
      unfold insertField
      split
      · rename_i hlt
        rw [List.map_cons, List.map_cons, List.pairwise_cons, List.pairwise_cons]
        refine ⟨?_, hfirst, hrest⟩
        intro k hk
        rcases List.mem_cons.1 hk with rfl | hk
        · exact hlt
        · exact hlt.trans (hfirst k hk)
      · rename_i hnlt
        split
        · rename_i heq
          rw [List.map_cons, List.pairwise_cons]
          exact ⟨fun k hk => heq ▸ hfirst k hk, hrest⟩
        · rename_i hne
          rw [List.map_cons, List.pairwise_cons]
          refine ⟨?_, ih hrest⟩
          intro k hk
          rcases (mem_map_fst_insertField value fields).1 hk with rfl | hk
          · exact lt_of_le_of_ne (not_lt.1 hnlt) (Ne.symm hne)
          · exact hfirst k hk

/-- Of the fields whose keys are kept all are left, and no others. -/
theorem findField?_filter (keep : String → Bool) (key : String) (fields : List (String × β)) :
    findField? key (fields.filter fun f => keep f.1) =
      if keep key = true then findField? key fields else none := by
  unfold findField?
  rw [List.find?_filter]
  split
  · rename_i hkey
    congr 2
    funext f
    by_cases hf : f.1 = key
    · simp [hf, hkey]
    · simp [hf]
  · rename_i hkey
    rw [Option.map_eq_none_iff, List.find?_eq_none]
    intro f _ hf
    simp only [decide_eq_true_eq] at hf
    exact hkey (hf.2 ▸ hf.1)

theorem foldl_insertField {kept : List (String × β)}
    (hkept : ∀ f ∈ kept, ∀ g ∈ fields, f.1 < g.1)
    (h : (fields.map Prod.fst).Pairwise (· < ·)) :
    fields.foldl (fun kept f => insertField f.1 f.2 kept) kept = kept ++ fields := by
  induction fields generalizing kept with
  | nil => exact (List.append_nil kept).symm
  | cons f fields ih =>
      rw [List.map_cons, List.pairwise_cons] at h
      rw [List.foldl_cons, insertField_of_lt fun g hg => hkept g hg f List.mem_cons_self,
        ih ?_ h.2, List.append_assoc, List.singleton_append]
      intro g hg e he
      rcases List.mem_append.1 hg with hg | hg
      · exact hkept g hg e (List.mem_cons_of_mem f he)
      · obtain rfl := List.mem_singleton.1 hg
        exact h.1 e.1 (List.mem_map_of_mem he)

/-- **Fields in order stay as they are.** -/
theorem orderFields_of_pairwise (h : (fields.map Prod.fst).Pairwise (· < ·)) :
    orderFields fields = fields :=
  foldl_insertField nofun h

end SqlAccess
