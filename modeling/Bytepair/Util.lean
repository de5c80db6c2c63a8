import Bytepair.Support.Run
import Mathlib.Tactic.Common

/-!
# Shared helpers

The growable buffers of a context and the helpers of `src/bp_util.c` that grow them. A
buffer is its capacity: every function below writes a buffer before it reads it, and what
it writes is the list it computes. Whether a `realloc` succeeds is up to the allocator,
whose answers to come are part of the state.
-/

namespace Bytepair
open Support

/-- The error codes `BP_E_*`. -/
inductive Err where
  | io
  | format
  | range
  | nomem
  | arg
  deriving DecidableEq, Repr

/-- A little-endian load of the bytes. -/
def littleEndian : List UInt8 → Nat
  | [] => 0
  | b :: bs => b.toNat + 256 * littleEndian bs

/-- The growable parts of `bp_ctx`: the capacities of `norm` and `work` in bytes and of
`ids` in entries, and the allocator's answers to the next calls. -/
structure Scratch where
  norm : Nat
  work : Nat
  ids : Nat
  answers : Nat → Bool

/-- The allocator grants every call to come. -/
def Scratch.Granted (m : Scratch) : Prop := ∀ k, m.answers k = true

/-- One `realloc`: its answer, and the state after it. -/
def Scratch.realloc (m : Scratch) : Bool × Scratch :=
  (m.answers 0, { m with answers := fun k => m.answers (k + 1) })

/-- The doubling loop of `bp_buf_reserve` and `bp_ids_reserve`. -/
def grow (first cap need : Nat) : Run Nat :=
  loop (fun cap => .ok (if cap < need then .next (cap * 2) else .done cap)) (need + 1)
    (if cap = 0 then first else cap)

/-- Make room for `need` cells in a buffer of `cap`: `none` when the allocator refuses,
else the capacity from now on. -/
def reserve (first : Nat) (m : Scratch) (cap need : Nat) : Run (Option Nat × Scratch) :=
  if need ≤ cap then .ok (some cap, m)
  else do
    let cap' ← grow first cap need
    let (granted, m') := m.realloc
    pure (if granted then some cap' else none, m')

/-- `bp_buf_reserve`. -/
def bpBufReserve (m : Scratch) (cap need : Nat) : Run (Option Nat × Scratch) :=
  reserve 4096 m cap need

/-- `bp_ids_reserve`. -/
def bpIdsReserve (m : Scratch) (need : Nat) : Run (Option Nat × Scratch) :=
  reserve 1024 m m.ids need

/-- The doubling loop exits, with enough room. -/
theorem grow_eq_ok {first : Nat} (hfirst : 0 < first) (cap need : Nat) :
    ∃ cap', grow first cap need = .ok cap' ∧ need ≤ cap' := by
  refine loop_rule (fun c => 0 < c) (fun c => need - c) (fun c => need ≤ c) ?_ _ _ ?_ ?_
  · intro c hc
    by_cases hlt : c < need
    · exact .inl ⟨c * 2, by simp [hlt], by omega, by omega⟩
    · exact .inr ⟨c, by simp [hlt], by omega⟩
  · split <;> omega
  · split <;> omega

/-- A reservation returns. It fails only when the allocator refuses, and otherwise there is
room. -/
theorem reserve_eq_ok {first : Nat} (hfirst : 0 < first) (m : Scratch) (cap need : Nat) :
    ∃ r m', reserve first m cap need = .ok (r, m') ∧ (∀ c ∈ r, need ≤ c) ∧
      (m.Granted → r.isSome ∧ m'.Granted) ∧
      m'.norm = m.norm ∧ m'.work = m.work ∧ m'.ids = m.ids := by
  unfold reserve
  split
  · next h => exact ⟨some cap, m, rfl, by simpa using h, fun hg => ⟨rfl, hg⟩, rfl, rfl, rfl⟩
  · obtain ⟨cap', hgrow, hle⟩ := grow_eq_ok hfirst cap need
    refine ⟨if m.answers 0 then some cap' else none, m.realloc.2, by rw [hgrow]; rfl, ?_, ?_,
      rfl, rfl, rfl⟩
    · cases m.answers 0 <;> simp [hle]
    · intro hg
      exact ⟨by simp [hg 0], fun k => hg (k + 1)⟩

end Bytepair
