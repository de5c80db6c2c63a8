import Bytepair.Support.Search

/-!
# The Unicode lookups

The lookup functions of `src/tables/bp_uctables.{h,c}` over their constant arrays. The
arrays are a parameter: `shipped` (`Bytepair.Tables.Shipped`) has the ones in the
repository, and `tools/gen_tables.py` emits others from other data.
-/

namespace Bytepair
open Support

/-- The constant arrays of `bp_uctables.c`, by index, and the lengths of the searched ones. -/
structure Tables where
  ccIndex : Nat → Nat
  ccBlocks : Nat → Nat
  cccIndex : Nat → Nat
  cccBlocks : Nat → Nat
  qcCount : Nat
  qcLo : Nat → Nat
  qcHi : Nat → Nat
  qcVal : Nat → Nat
  decompCount : Nat
  decompCp : Nat → Nat
  decompOff : Nat → Nat
  decompLen : Nat → Nat
  decompPool : Nat → Nat
  composeCount : Nat
  composeKey : Nat → Nat
  composeVal : Nat → Nat

/-! The class bits `BP_CC_*`. -/

def BP_CC_L : Nat := 1
def BP_CC_N : Nat := 2
def BP_CC_S : Nat := 4
def BP_CC_NL : Nat := 8

namespace Tables

variable (T : Tables)

/-- Class bits of a code point; 0 above U+10FFFF. -/
def bpCharClass (cp : Nat) : Nat :=
  if 0x10FFFF < cp then 0
  else T.ccBlocks (T.ccIndex (cp >>> 8) <<< 8 ||| cp &&& 0xFF)

/-- Canonical combining class; 0 for starters and above U+10FFFF. -/
def bpCcc (cp : Nat) : Nat :=
  if 0x10FFFF < cp then 0
  else T.cccBlocks (T.cccIndex (cp >>> 8) <<< 8 ||| cp &&& 0xFF)

/-- NFC quick check: 0 = No, 1 = Yes, 2 = Maybe. -/
def bpNfcQc (cp : Nat) : Nat :=
  match search (fun mid => cp < T.qcLo mid) (fun mid => T.qcHi mid < cp) T.qcCount 0 T.qcCount with
  | some mid => T.qcVal mid
  | none => 1

/-- The full canonical decomposition, or nothing if there is none. -/
def bpDecomp (cp : Nat) : List Nat :=
  match search (fun mid => cp < T.decompCp mid) (fun mid => T.decompCp mid < cp)
      T.decompCount 0 T.decompCount with
  | some mid => (List.range (T.decompLen mid)).map fun i => T.decompPool (T.decompOff mid + i)
  | none => []

/-- The primary composite of a pair, or 0. -/
def bpCompose (a b : Nat) : Nat :=
  let key := a <<< 32 ||| b
  match search (fun mid => key < T.composeKey mid) (fun mid => T.composeKey mid < key)
      T.composeCount 0 T.composeCount with
  | some mid => T.composeVal mid
  | none => 0

/-- Entry `mid` of the decomposition table. -/
def decompEntry (mid : Nat) : List Nat :=
  (List.range (T.decompLen mid)).map fun i => T.decompPool (T.decompOff mid + i)

variable {T}

/-- A decomposition comes from an entry of the table. -/
theorem bpDecomp_cases (cp : Nat) :
    T.bpDecomp cp = [] ∨
    ∃ mid < T.decompCount, T.decompCp mid = cp ∧ T.bpDecomp cp = T.decompEntry mid := by
  unfold bpDecomp
  split
  · next mid h =>
    obtain ⟨hlt, hkey⟩ := search_has_key h
    exact .inr ⟨mid, hlt, hkey, rfl⟩
  · exact .inl rfl

/-- A composite comes from an entry of the table. -/
theorem bpCompose_cases (a b : Nat) :
    T.bpCompose a b = 0 ∨
    ∃ mid < T.composeCount, T.composeKey mid = (a <<< 32 ||| b) ∧ T.bpCompose a b = T.composeVal mid := by
  unfold bpCompose
  dsimp only
  split
  · next mid h =>
    obtain ⟨hlt, hkey⟩ := search_has_key h
    exact .inr ⟨mid, hlt, hkey, rfl⟩
  · exact .inl rfl

/-- A quick-check value other than Yes comes from a range of the table. -/
theorem bpNfcQc_cases (cp : Nat) :
    T.bpNfcQc cp = 1 ∨
    ∃ mid < T.qcCount, T.qcLo mid ≤ cp ∧ cp ≤ T.qcHi mid ∧ T.bpNfcQc cp = T.qcVal mid := by
  unfold bpNfcQc
  split
  · next mid h =>
    obtain ⟨-, hlt, hb, ha⟩ := search_hit h
    simp only [decide_eq_false_iff_not] at hb ha
    exact .inr ⟨mid, hlt, by omega, by omega, rfl⟩
  · exact .inl rfl

end Tables

end Bytepair
