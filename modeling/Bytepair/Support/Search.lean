import Mathlib.Tactic.Common
import Mathlib.Algebra.Group.Nat.Defs

/-!
# Binary search

The search loop over a window `[lo, hi)` of indices, with the two tests of its round as
parameters: the wanted index is before the middle, or after it. `search_hit` needs no
order at all; `search_miss` and `search_find` are for a window the tests split.
-/

namespace Support

/-- The index neither test moves away from, if the window has one. A round at least
halves the window, so a window of `fuel` indices needs at most `fuel` rounds. -/
def search (before after : Nat → Bool) : Nat → Nat → Nat → Option Nat
  | 0, _, _ => none
  | fuel + 1, lo, hi =>
    if lo < hi then
      let mid := lo + (hi - lo) / 2
      if before mid then search before after fuel lo mid
      else if after mid then search before after fuel (mid + 1) hi
      else some mid
    else none

variable {before after : Nat → Bool}

/-- What is found is in the window and stops both tests. -/
theorem search_hit {fuel lo hi i : Nat} (h : search before after fuel lo hi = some i) :
    lo ≤ i ∧ i < hi ∧ before i = false ∧ after i = false := by
  induction fuel generalizing lo hi with
  | zero => simp [search] at h
  | succ fuel ih =>
    simp only [search] at h
    split at h
    · split at h
      · obtain ⟨h₁, h₂, h₃⟩ := ih h
        exact ⟨h₁, by omega, h₃⟩
      · split at h
        · obtain ⟨h₁, h₂, h₃⟩ := ih h
          exact ⟨by omega, h₂, h₃⟩
        · simp only [Option.some.injEq] at h
          subst h
          exact ⟨by omega, by omega, by simp_all, by simp_all⟩
    · cases h

/-- An index that the tests point to from every other index is found. -/
theorem search_find {fuel lo hi i : Nat} (hfuel : hi ≤ lo + fuel) (hlo : lo ≤ i) (hhi : i < hi)
    (hstop : before i = false ∧ after i = false)
    (hbefore : ∀ j, i < j → j < hi → before j = true)
    (hafter : ∀ j, lo ≤ j → j < i → before j = false ∧ after j = true) :
    search before after fuel lo hi = some i := by
  induction fuel generalizing lo hi with
  | zero => omega
  | succ fuel ih =>
    simp only [search]
    rw [if_pos (by omega)]
    rcases Nat.lt_trichotomy (lo + (hi - lo) / 2) i with hlt | heq | hgt
    · obtain ⟨hb, ha⟩ := hafter _ (by omega) hlt
      rw [hb, ha, if_neg Bool.false_ne_true, if_pos rfl]
      exact ih (by omega) (by omega) hhi hbefore fun j hj => hafter j (by omega)
    · rw [heq, hstop.1, hstop.2]
      simp
    · rw [hbefore _ hgt (by omega), if_pos rfl]
      exact ih (by omega) hlo hgt (fun j hj hj' => hbefore j hj (by omega)) hafter

/-- Nothing is found in a window where every index fails a test. -/
theorem search_miss {fuel lo hi : Nat}
    (h : ∀ j, lo ≤ j → j < hi → before j = true ∨ after j = true) :
    search before after fuel lo hi = none := by
  rcases hs : search before after fuel lo hi with _ | i
  · rfl
  · obtain ⟨h₁, h₂, h₃, h₄⟩ := search_hit hs
    rcases h i h₁ h₂ with hb | ha
    · simp [h₃] at hb
    · simp [h₄] at ha

section Keys

variable {key : Nat → Nat} {n k : Nat}

/-- What is found has the key. -/
theorem search_has_key {i : Nat} (h : search (fun mid => k < key mid) (fun mid => key mid < k) n 0 n = some i) :
    i < n ∧ key i = k := by
  obtain ⟨-, hlt, hbefore, hafter⟩ := search_hit h
  simp only [decide_eq_false_iff_not] at hbefore hafter
  exact ⟨hlt, by omega⟩

/-- A key of an increasing table is found where it is. -/
theorem search_key (hmono : ∀ i j, i < j → j < n → key i < key j) {i : Nat} (hi : i < n) (hk : key i = k) :
    search (fun mid => k < key mid) (fun mid => key mid < k) n 0 n = some i := by
  apply search_find (by omega) (Nat.zero_le i) hi
  · simp [hk]
  · intro j hij hj
    have := hmono i j hij hj
    simpa [hk] using this
  · intro j _ hji
    have := hmono j i hji hi
    simp only [decide_eq_false_iff_not, decide_eq_true_eq]
    omega

/-- What is no key of a table is not found in it. -/
theorem search_no_key (h : ∀ i < n, key i ≠ k) :
    search (fun mid => k < key mid) (fun mid => key mid < k) n 0 n = none := by
  apply search_miss
  intro j _ hj
  have := h j hj
  simp only [decide_eq_true_eq]
  omega

end Keys

end Support
