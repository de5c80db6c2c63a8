import Bytepair.Nfc.Normal
import Bytepair.Tables.Facts

/-!
# Normalization with the shipped tables

What `bp_nfc` promises its callers: the fast paths change nothing, and its output is a
normal form of the canonically ordered decomposition.
-/

namespace Bytepair
open Support Support.Canonical

/-- The canonically ordered full decomposition of a text over the shipped tables; a malformed
byte is a unit of its own, that nothing moves or composes across. -/
def canonicalDecomposition (s : List UInt8) : List Nat := (alphabet shipped).decomposed (units s)

/-- **Fast paths change nothing.** On a segment that is pure ASCII or passes the quick check,
the full path gives the segment back. -/
theorem bpNfcFull_of_fast (m : Scratch) (s : List UInt8)
    (h : allAscii s = true ∨ nfcQuick shipped s = .ok true) :
    ∃ r m', bpNfcFull shipped m s = .ok (r, m') ∧ (r = .ok s ∨ r = .error .nomem) ∧
      (m.Granted → r = .ok s) := by
  have hfast : nfcFast shipped s = true := by
    rw [nfcQuick_eq] at h
    rcases h with hascii | hquick
    · simp [nfcFast, hascii]
    · simp [nfcFast, Except.ok.inj hquick]
  obtain ⟨r, m', hrun, hr, hgranted, -⟩ := bpNfcFull_eq shipped_coherent.sized m s
  rw [shipped_coherent.nfcFull_of_fast hfast] at hr hgranted
  exact ⟨r, m', hrun, hr, fun hg => (hgranted hg).1⟩

/-- The letter a, a mark, and a malformed byte that ends the text. -/
theorem bpNfcFull_of_fast_mark :
    ∃ r m', bpNfcFull shipped ⟨0, 0, 0, fun _ => true⟩ [0x61, 0xCC, 0xA1, 0xC3] = .ok (r, m') ∧
      (r = .ok [0x61, 0xCC, 0xA1, 0xC3] ∨ r = .error .nomem) ∧
      (Scratch.Granted ⟨0, 0, 0, fun _ => true⟩ → r = .ok [0x61, 0xCC, 0xA1, 0xC3]) :=
  bpNfcFull_of_fast _ _ (.inr (by rw [nfcQuick_eq]; exact congrArg _ (by decide +kernel)))

/-- **Normal forms.** With the NFC flag set and memory granted, `bp_nfc` gives two texts the
same output exactly when their ordered decompositions agree; the output has the ordered
decomposition of the text, is its own output, and has no code point of quick-check value No. -/
theorem bpNfc_normal_form (m n : Scratch) (hm : m.Granted) (hn : n.Granted) (x y : List UInt8) :
    ∃ nx ny mx ny', bpNfc shipped true m x = .ok (.ok nx, mx) ∧
      bpNfc shipped true n y = .ok (.ok ny, ny') ∧
      (nx = ny ↔ canonicalDecomposition x = canonicalDecomposition y) ∧
      canonicalDecomposition nx = canonicalDecomposition x ∧
      (∃ mx', bpNfc shipped true mx nx = .ok (.ok nx, mx')) ∧
      ∀ u ∈ units nx, shipped.bpNfcQc u ≠ 0 := by
  have hT := shipped_coherent
  have run : ∀ (k : Scratch) (s : List UInt8), k.Granted →
      ∃ k', bpNfc shipped true k s = .ok (.ok (nfcText shipped true s), k') ∧ k'.Granted := by
    intro k s hk
    obtain ⟨r, k', hrun, -, hgranted, -⟩ := bpNfc_eq hT.sized true k s
    obtain ⟨rfl, hk'⟩ := hgranted hk
    exact ⟨k', hrun, hk'⟩
  obtain ⟨mx, hx, hmx⟩ := run m x hm
  obtain ⟨ny, hy, -⟩ := run n y hn
  obtain ⟨mx', hxx, -⟩ := run mx (nfcText shipped true x) hmx
  rw [hT.nfcText_nfcText] at hxx
  exact ⟨_, _, mx, ny, hx, hy, hT.nfcText_eq_iff x y, hT.decomposed_nfcText x, ⟨mx', hxx⟩,
    hT.nfcText_qc x⟩

/-- E with acute written as a letter and a mark, and as one character. -/
theorem bpNfc_normal_form_acute :
    ∃ nx ny mx ny', bpNfc shipped true ⟨0, 0, 0, fun _ => true⟩ [0x65, 0xCC, 0x81] = .ok (.ok nx, mx) ∧
      bpNfc shipped true ⟨0, 0, 0, fun _ => true⟩ [0xC3, 0xA9] = .ok (.ok ny, ny') ∧
      (nx = ny ↔ canonicalDecomposition [0x65, 0xCC, 0x81] = canonicalDecomposition [0xC3, 0xA9]) ∧
      canonicalDecomposition nx = canonicalDecomposition [0x65, 0xCC, 0x81] ∧
      (∃ mx', bpNfc shipped true mx nx = .ok (.ok nx, mx')) ∧
      ∀ u ∈ units nx, shipped.bpNfcQc u ≠ 0 :=
  bpNfc_normal_form _ _ (fun _ => rfl) (fun _ => rfl) _ _

end Bytepair
