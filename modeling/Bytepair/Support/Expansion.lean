import Mathlib.Data.List.Basic
import Mathlib.Logic.Relation
import Mathlib.Order.WellFounded

/-!
# Full expansion

A map that takes some symbols to sequences of symbols, and what a sequence comes to when every symbol is replaced
until none is left to replace. There is at most one such expansion; where there is one, following the map from its
symbols ends.
-/

namespace Support

variable {α : Type} {step : α → Option (List α)}

/-- The sequence comes to the other one when all its symbols are replaced, again and again. -/
inductive Expands (step : α → Option (List α)) : List α → List α → Prop where
  | nil : Expands step [] []
  | leaf {x : α} {xs out : List α} : step x = none → Expands step xs out → Expands step (x :: xs) (x :: out)
  | node {x : α} {parts mid xs out : List α} : step x = some parts → Expands step parts mid → Expands step xs out →
      Expands step (x :: xs) (mid ++ out)

/-- `x` is one of the symbols that replace `y`. -/
def IsPart (step : α → Option (List α)) (x y : α) : Prop := ∃ parts, step y = some parts ∧ x ∈ parts

namespace Expands

theorem append {xs ys out out' : List α} (hx : Expands step xs out) (hy : Expands step ys out') :
    Expands step (xs ++ ys) (out ++ out') := by
  induction hx with
  | nil => exact hy
  | leaf hnone _ ih => exact .leaf hnone ih
  | node hsome hparts _ _ ih =>
    rw [List.cons_append, List.append_assoc]
    exact .node hsome hparts ih

theorem single_leaf {x : α} (h : step x = none) : Expands step [x] [x] := .leaf h .nil

theorem single_node {x : α} {parts out : List α} (h : step x = some parts) (hparts : Expands step parts out) :
    Expands step [x] out := by
  have hnode := Expands.node h hparts .nil
  rwa [List.append_nil] at hnode

/-- The expansion of a symbol that is replaced is that of its parts. -/
theorem of_node {x : α} {parts out : List α} (h : step x = some parts) (hx : Expands step [x] out) :
    Expands step parts out := by
  cases hx with
  | leaf hnone =>
    rw [h] at hnone
    cases hnone
  | node hsome hparts hrest =>
    cases hrest
    rw [h] at hsome
    cases hsome
    rwa [List.append_nil]

theorem unique {xs out out' : List α} (h : Expands step xs out) (h' : Expands step xs out') : out = out' := by
  induction h generalizing out' with
  | nil =>
    cases h'
    rfl
  | leaf hnone _ ih =>
    cases h' with
    | leaf _ hrest => rw [ih hrest]
    | node hsome =>
      rw [hnone] at hsome
      cases hsome
  | node hsome _ _ ihparts ih =>
    cases h' with
    | leaf hnone =>
      rw [hsome] at hnone
      cases hnone
    | node hsome' hparts' hrest =>
      rw [hsome] at hsome'
      cases hsome'
      rw [ihparts hparts', ih hrest]

/-- The expansion of a sequence is that of its front followed by that of its back. -/
theorem split {x : α} {xs out : List α} (h : Expands step (x :: xs) out) :
    ∃ mid rest, Expands step [x] mid ∧ Expands step xs rest ∧ out = mid ++ rest := by
  cases h with
  | leaf hnone hrest => exact ⟨[x], _, single_leaf hnone, hrest, rfl⟩
  | node hsome hparts hrest => exact ⟨_, _, single_node hsome hparts, hrest, rfl⟩

/-- Nothing is left to replace. -/
theorem normal {xs out : List α} (h : Expands step xs out) : ∀ x ∈ out, step x = none := by
  induction h with
  | nil => exact nofun
  | leaf hnone _ ih => exact List.forall_mem_cons.2 ⟨hnone, ih⟩
  | node _ _ _ ihparts ih =>
    intro x hx
    rcases List.mem_append.1 hx with hx | hx
    · exact ihparts x hx
    · exact ih x hx

/-- Following the map from a symbol that has an expansion ends. -/
theorem acc {xs out : List α} (h : Expands step xs out) : ∀ x ∈ xs, Acc (IsPart step) x := by
  induction h with
  | nil => exact nofun
  | leaf hnone _ ih =>
    refine List.forall_mem_cons.2 ⟨⟨_, ?_⟩, ih⟩
    rintro y ⟨parts, hsome, -⟩
    rw [hnone] at hsome
    cases hsome
  | node hsome _ _ ihparts ih =>
    refine List.forall_mem_cons.2 ⟨⟨_, ?_⟩, ih⟩
    rintro y ⟨parts, hsome', hy⟩
    rw [hsome] at hsome'
    cases hsome'
    exact ihparts y hy

end Expands

/-- Where every symbol has an expansion, no symbol is reached from itself. -/
theorem acyclic_of_expands (h : ∀ x, ∃ out, Expands step [x] out) : ¬∃ x, Relation.TransGen (IsPart step) x x := by
  rintro ⟨x, hx⟩
  have hwf : WellFounded (IsPart step) := ⟨fun y => by
    obtain ⟨out, hy⟩ := h y
    exact hy.acc y List.mem_cons_self⟩
  exact hwf.transGen.irrefl.irrefl x hx

end Support
