import Bytepair.Tables.Shipped
import Bytepair.Nfc.Coherent

/-!
# The shipped tables are coherent

`Tables.Coherent` speaks of every code point; `Tables.Checked` asks for the same of the
entries of the tables, of the jamo and of the Hangul syllables, which is decidable.
-/

namespace Bytepair
open Support

/-- `p` holds below `n`. -/
def allBelow (p : Nat → Bool) : Nat → Bool
  | 0 => true
  | n + 1 => p n && allBelow p n

theorem allBelow_iff {p : Nat → Bool} {n : Nat} : allBelow p n = true ↔ ∀ i < n, p i = true := by
  induction n with
  | zero => simp [allBelow]
  | succ n ih =>
    rw [allBelow, Bool.and_eq_true, ih]
    constructor
    · rintro ⟨hn, h⟩ i hi
      rcases Nat.lt_succ_iff_lt_or_eq.1 hi with hlt | rfl
      · exact h i hlt
      · exact hn
    · exact fun h => ⟨h n (Nat.lt_succ_self n), fun i hi => h i (by omega)⟩

/-- A check below `n`, as the statement it decides. -/
theorem of_allBelow {P : Nat → Prop} [DecidablePred P] {n : Nat}
    (h : allBelow (fun i => decide (P i)) n = true) : ∀ i < n, P i :=
  fun i hi => of_decide_eq_true (allBelow_iff.1 h i hi)

/-- A quick-check range lies clear of the tagged bytes and of the Hangul syllables, and each of
its code points decomposes if its value is No. -/
def RangeOk (T : Tables) (mid : Nat) : Prop :=
  T.qcHi mid < tagBase ∧ (T.qcHi mid < SBASE ∨ SBASE + SCOUNT ≤ T.qcLo mid) ∧
    (T.qcVal mid = 0 →
      allBelow (fun k => !(T.bpDecomp (T.qcLo mid + k)).isEmpty) (T.qcHi mid - T.qcLo mid + 1) = true)

instance (T : Tables) (mid : Nat) : Decidable (RangeOk T mid) := inferInstanceAs (Decidable (_ ∧ _))

/-- The checks on the entries of the tables. -/
structure Tables.Checked (T : Tables) : Prop where
  ascii : ∀ cp < 0x80, T.bpCcc cp = 0 ∧ T.bpNfcQc cp = 1
  jamoL : ∀ i < LCOUNT, JamoOk T (LBASE + i) ∧ T.bpNfcQc (LBASE + i) = 1
  jamoV : ∀ i < VCOUNT, JamoOk T (VBASE + i) ∧ T.bpNfcQc (VBASE + i) ≠ 1
  jamoT : ∀ i < TCOUNT, 0 < i → JamoOk T (TBASE + i) ∧ T.bpNfcQc (TBASE + i) ≠ 1
  syllable : ∀ i < SCOUNT, T.bpCcc (SBASE + i) = 0
  range : ∀ mid < T.qcCount, RangeOk T mid
  decomp : ∀ mid < T.decompCount, DecompOk T (T.decompCp mid) (T.decompEntry mid)
  compose : ∀ mid < T.composeCount,
    ComposeOk T (T.composeKey mid >>> 32) (T.composeKey mid % 2 ^ 32) (T.composeVal mid)

/-- What holds of the entries holds of every code point. -/
theorem Tables.Checked.coherent {T : Tables} (h : T.Checked) : T.Coherent where
  ascii := h.ascii
  jamoL := h.jamoL
  jamoV := h.jamoV
  jamoT := h.jamoT
  syllable i hi := by
    refine ⟨h.syllable i hi, ?_⟩
    rcases T.bpNfcQc_cases (SBASE + i) with hyes | ⟨mid, hmid, hlo, hhi, -⟩
    · exact hyes
    · have := (h.range mid hmid).2.1
      omega
  tagged cp hcp := by
    rcases T.bpNfcQc_cases cp with hyes | ⟨mid, hmid, -, hhi, -⟩
    · exact hyes
    · have := (h.range mid hmid).1
      omega
  decomp cp hne := by
    rcases T.bpDecomp_cases cp with hnil | ⟨mid, hmid, rfl, heq⟩
    · exact absurd hnil hne
    · rw [heq]
      exact h.decomp mid hmid
  excluded cp hcp := by
    rcases T.bpNfcQc_cases cp with hyes | ⟨mid, hmid, hlo, hhi, hval⟩
    · omega
    · have hall := (h.range mid hmid).2.2 (by omega)
      have hcp' := allBelow_iff.1 hall (cp - T.qcLo mid) (by omega)
      rw [Nat.add_sub_cancel' hlo] at hcp'
      simpa using hcp'
  compose a b ha hb hne := by
    rcases T.bpCompose_cases a b with hzero | ⟨mid, hmid, hkey, hval⟩
    · exact absurd hzero hne
    · have hb32 : b < 2 ^ 32 := by unfold tagBase at hb; omega
      rw [← Nat.shiftLeft_add_eq_or_of_lt hb32, Nat.shiftLeft_eq] at hkey
      have hok := h.compose mid hmid
      rw [hkey, Nat.shiftRight_eq_div_pow, Nat.mul_comm a, Nat.mul_add_div (by decide),
        Nat.div_eq_of_lt hb32, Nat.mul_add_mod, Nat.mod_eq_of_lt hb32, Nat.add_zero] at hok
      rwa [hval]

theorem shipped_checked : shipped.Checked where
  ascii := of_allBelow (by decide +kernel)
  jamoL := of_allBelow (by decide +kernel)
  jamoV := of_allBelow (by decide +kernel)
  jamoT := of_allBelow (by decide +kernel)
  syllable := of_allBelow (by decide +kernel)
  range := of_allBelow (by decide +kernel)
  decomp := of_allBelow (by decide +kernel)
  compose := of_allBelow (by decide +kernel)

theorem shipped_coherent : shipped.Coherent := shipped_checked.coherent

example : Recomposes shipped 0x1E69 (shipped.bpDecomp 0x1E69) := by decide +kernel

end Bytepair
