import Mathlib.Tactic.Common
import Mathlib.Logic.Function.Basic
import Mathlib.Data.Nat.Find

/-!
# Linear probing

An open-addressing table of `n` slots as a function from slots to keys, one key marking
an empty slot. `probe` walks from a slot, with wrap-around, to the first slot where it
may stop. `Reachable` is the invariant insertion keeps: a stored key is where the walk
from its hash first meets it. From it a stored key is found at its own slot:
`probe_present`.
-/

namespace Support.Probing

/-- The first slot at which `stop` holds among the `k` slots from `s` on. -/
def probe (stop : Nat → Bool) (n : Nat) : Nat → Nat → Option Nat
  | 0, _ => none
  | k + 1, s => if stop s then some s else probe stop n k ((s + 1) % n)

attribute [grind =] probe

theorem probe_some_iff {stop : Nat → Bool} {n k s t : Nat} (hs : s < n) :
    probe stop n k s = some t ↔
      ∃ j < k, t = (s + j) % n ∧ stop t = true ∧ ∀ i < j, stop ((s + i) % n) = false := by
  induction k generalizing s with
  | zero => simp [probe]
  | succ k ih =>
    have hs0 : (s + 0) % n = s := Nat.mod_eq_of_lt hs
    by_cases h : stop s = true
    · simp only [probe, h, if_true, Option.some.injEq]
      constructor
      · rintro rfl
        exact ⟨0, by omega, hs0.symm, h, fun i hi => absurd hi (Nat.not_lt_zero i)⟩
      · rintro ⟨j, -, rfl, -, hbefore⟩
        rcases Nat.eq_zero_or_pos j with rfl | hj
        · exact hs0.symm
        · have := hbefore 0 hj
          rw [hs0, h] at this
          cases this
    · have hstep : ∀ i, ((s + 1) % n + i) % n = (s + (i + 1)) % n := fun i => by
        rw [Nat.mod_add_mod, Nat.add_assoc, Nat.add_comm 1]
      simp only [probe, h]
      rw [if_neg Bool.false_ne_true, ih (Nat.mod_lt _ (by omega))]
      constructor
      · rintro ⟨j, hj, ht, hstop, hbefore⟩
        refine ⟨j + 1, by omega, ht.trans (hstep j), hstop, fun i hi => ?_⟩
        cases i with
        | zero => rw [hs0]; simpa using h
        | succ i => rw [← hstep]; exact hbefore i (by omega)
      · rintro ⟨j, hj, ht, hstop, hbefore⟩
        cases j with
        | zero => rw [ht, hs0] at hstop; exact absurd hstop h
        | succ j =>
          exact ⟨j, by omega, ht.trans (hstep j).symm, hstop, fun i hi => by
            rw [hstep]; exact hbefore (i + 1) (by omega)⟩

/-- Every slot is on the walk from every slot. -/
theorem exists_walk {n s t : Nat} (hs : s < n) (ht : t < n) : ∃ j < n, (s + j) % n = t := by
  by_cases h : s ≤ t
  · exact ⟨t - s, by omega, by rw [Nat.add_sub_cancel' h, Nat.mod_eq_of_lt ht]⟩
  · refine ⟨t + n - s, by omega, ?_⟩
    rw [show s + (t + n - s) = t + n by omega, Nat.add_mod_right, Nat.mod_eq_of_lt ht]

/-- A walk over all slots stops if it may stop anywhere. -/
theorem exists_probe {stop : Nat → Bool} {n s t : Nat} (hs : s < n) (ht : t < n)
    (hstop : stop t = true) : ∃ t', probe stop n n s = some t' := by
  obtain ⟨j, hj, rfl⟩ := exists_walk hs ht
  have hex : ∃ j, stop ((s + j) % n) = true := ⟨j, hstop⟩
  have hmin : Nat.find hex ≤ j := Nat.find_min' hex hstop
  refine ⟨_, (probe_some_iff hs).2 ⟨Nat.find hex, by omega, rfl, Nat.find_spec hex, fun i hi => ?_⟩⟩
  simpa using Nat.find_min hex hi

theorem probe_lt {stop : Nat → Bool} {n k s t : Nat} (hs : s < n) (h : probe stop n k s = some t) :
    t < n := by
  obtain ⟨j, -, rfl, -⟩ := (probe_some_iff hs).1 h
  exact Nat.mod_lt _ (by omega)

theorem probe_stop {stop : Nat → Bool} {n k s t : Nat} (hs : s < n) (h : probe stop n k s = some t) :
    stop t = true := by
  obtain ⟨j, -, -, hstop, -⟩ := (probe_some_iff hs).1 h
  exact hstop

section Table

variable {κ : Type} [DecidableEq κ] (key : Nat → κ) (empty : κ) (hash : κ → Nat) (n : Nat)

/-- The walk for `k` stops at `k` or at an empty slot. -/
def stops (k : κ) (s : Nat) : Bool := key s = k || key s = empty

/-- Every stored key is first met at its own slot by the walk from its hash. -/
def Reachable : Prop :=
  ∀ s < n, key s ≠ empty → ∃ j < n, (hash (key s) + j) % n = s ∧
    ∀ i < j, key ((hash (key s) + i) % n) ≠ empty ∧ key ((hash (key s) + i) % n) ≠ key s

variable {key empty hash n}

omit [DecidableEq κ] in
theorem reachable_empty : Reachable (fun _ => empty) empty hash n :=
  fun _ _ h => absurd rfl h

/-- Writing a key where its walk met an empty slot keeps every key reachable. -/
theorem Reachable.insert (hr : Reachable key empty hash n) {k : κ} {t : Nat} (hk : hash k < n)
    (hp : probe (stops key empty k) n n (hash k) = some t) (ht : key t = empty) :
    Reachable (Function.update key t k) empty hash n := by
  intro s hs hne
  by_cases hst : s = t
  · subst hst
    obtain ⟨j, hj, hsj, -, hbefore⟩ := (probe_some_iff hk).1 hp
    rw [Function.update_self]
    refine ⟨j, hj, hsj.symm, fun i hi => ?_⟩
    have hb := hbefore i hi
    simp only [stops, Bool.or_eq_false_iff, decide_eq_false_iff_not] at hb
    have hne' : (hash k + i) % n ≠ s := fun e => hb.2 (by rw [e]; exact ht)
    rw [Function.update_of_ne hne']
    exact ⟨hb.2, hb.1⟩
  · rw [Function.update_of_ne hst] at hne ⊢
    obtain ⟨j, hj, hsj, hbefore⟩ := hr s hs hne
    refine ⟨j, hj, hsj, fun i hi => ?_⟩
    obtain ⟨h₁, h₂⟩ := hbefore i hi
    have hne' : (hash (key s) + i) % n ≠ t := fun e => h₁ (by rw [e]; exact ht)
    rw [Function.update_of_ne hne']
    exact ⟨h₁, h₂⟩

/-- A stored key is found at its slot. -/
theorem probe_present (hr : Reachable key empty hash n) {s : Nat} (hs : s < n)
    (hne : key s ≠ empty) (hk : hash (key s) < n) :
    probe (stops key empty (key s)) n n (hash (key s)) = some s := by
  obtain ⟨j, hj, hsj, hbefore⟩ := hr s hs hne
  refine (probe_some_iff hk).2 ⟨j, hj, hsj.symm, by simp [stops], fun i hi => ?_⟩
  obtain ⟨h₁, h₂⟩ := hbefore i hi
  simp [stops, h₁, h₂]

end Table

end Support.Probing
