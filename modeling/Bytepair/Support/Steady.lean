import Bytepair.Support.Run

/-!
# Steady computations

A computation that goes through a state it only keeps its work in: on every state that is in order it comes to the same
value, and leaves the state in order.
-/

namespace Support

variable {σ α β : Type}

/-- The same value on every state in order, which stays in order. -/
def Steady (P : σ → Prop) (f : σ → Run (α × σ)) : Prop := ∃ a, ∀ s, P s → ∃ s', f s = .ok (a, s') ∧ P s'

variable {P : σ → Prop}

theorem steady_pure (a : α) : Steady P fun s => .ok (a, s) := ⟨a, fun s hs => ⟨s, rfl, hs⟩⟩

/-- A computation is known by what it is on the states in order. -/
theorem Steady.congr {f g : σ → Run (α × σ)} (hg : Steady P g) (h : ∀ s, P s → f s = g s) : Steady P f := by
  obtain ⟨a, ha⟩ := hg
  refine ⟨a, fun s hs => ?_⟩
  rw [h s hs]
  exact ha s hs

/-- One computation behind another. -/
theorem Steady.bind {f : σ → Run (α × σ)} {k : α × σ → Run (β × σ)} (hf : Steady P f)
    (hk : ∀ a, Steady P fun s => k (a, s)) : Steady P fun s => f s >>= k := by
  obtain ⟨a, ha⟩ := hf
  obtain ⟨b, hb⟩ := hk a
  refine ⟨b, fun s hs => ?_⟩
  obtain ⟨s₁, hrun, hs₁⟩ := ha s hs
  dsimp only
  rw [hrun]
  exact hb s₁ hs₁

/-- Either way. -/
theorem steady_ite {p : Prop} [Decidable p] {f g : σ → Run (α × σ)} (hf : p → Steady P f) (hg : ¬p → Steady P g) :
    Steady P fun s => if p then f s else g s := by
  by_cases hp : p
  · simp only [if_pos hp]
    exact hf hp
  · simp only [if_neg hp]
    exact hg hp

/-- Two runs of it come to the same. -/
theorem Steady.unique {f : σ → Run (α × σ)} (hf : Steady P f) {s s₁ : σ} {a : α} (hs : P s) (h : f s = .ok (a, s₁)) {s' : σ}
    (hs' : P s') : ∃ s₂, f s' = .ok (a, s₂) ∧ P s₂ := by
  obtain ⟨b, hb⟩ := hf
  obtain ⟨s₃, hrun, -⟩ := hb s hs
  obtain ⟨rfl, -⟩ := Prod.mk.inj (Except.ok.inj (h.symm.trans hrun))
  exact hb s' hs'

end Support
