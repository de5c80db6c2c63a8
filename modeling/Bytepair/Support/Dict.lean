import Mathlib.Data.List.Basic

/-!
# Dicts

The dict of a program as the list of its items in order. A list may hold items of one key more than once, as the pairs
of an object read from a file do: what is found is the first of them.
-/

namespace Support

section Dict

variable {κ β : Type} [BEq κ] [LawfulBEq κ] {items : List (κ × β)} {k : κ} {b : β}

/-- What is found is an item. -/
theorem mem_of_lookup (h : items.lookup k = some b) : (k, b) ∈ items := by
  obtain ⟨front, back, rfl, -⟩ := List.lookup_eq_some_iff.1 h
  exact List.mem_append_right _ List.mem_cons_self

theorem key_mem (h : items.lookup k = some b) : k ∈ items.map Prod.fst := List.mem_map.2 ⟨(k, b), mem_of_lookup h, rfl⟩

theorem lookup_eq_none : items.lookup k = none ↔ k ∉ items.map Prod.fst := by
  rw [List.lookup_eq_none_iff]
  constructor
  · intro hno hk
    obtain ⟨item, hitem, rfl⟩ := List.mem_map.1 hk
    simpa using hno item hitem
  · intro hno item hitem
    rw [bne_iff_ne]
    rintro rfl
    exact hno (List.mem_map.2 ⟨item, hitem, rfl⟩)

/-- An item is found under its key, where no key comes twice. -/
theorem lookup_of_mem (hkeys : (items.map Prod.fst).Nodup) (h : (k, b) ∈ items) : items.lookup k = some b := by
  induction items with
  | nil => cases h
  | cons item items ih =>
    rw [List.map_cons, List.nodup_cons] at hkeys
    rcases List.mem_cons.1 h with rfl | hmem
    · rw [List.lookup_cons, beq_self_eq_true]
    · rw [List.lookup_cons, beq_false_of_ne]
      · exact ih hkeys.2 hmem
      · rintro rfl
        exact hkeys.1 (List.mem_map.2 ⟨_, hmem, rfl⟩)

end Dict

end Support
