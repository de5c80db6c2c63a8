import Bytepair.Scan.Refine
import Bytepair.Tables.Facts

/-!
# The scanner over the shipped classes

The character classes of `src/tables/bp_uctables.c` are what the scanner assumes of them, so
what it hands over for a text are the matches of the split regex.
-/

namespace Bytepair
open Support

/-- Cell `i` of the class blocks holds a single class, or that of CR and LF where these are. -/
def cellOk (i c : Nat) : Bool :=
  if i == 0x0D || i == 0x0A then c == (BP_CC_S ||| BP_CC_NL)
  else c == 0 || c == BP_CC_L || c == BP_CC_N || c == BP_CC_S

/-- The checks on the class table: the cells of its blocks, the first of which is for the
first 256 code points only, and the classes of ASCII. -/
structure Tables.ClassesChecked (T : Tables) (blocks : Nat) : Prop where
  index : ∀ k < 0x1100, T.ccIndex k < blocks ∧ (T.ccIndex k = 0 → k = 0)
  first : T.ccIndex 0 = 0
  cell : ∀ i < blocks * 256, cellOk i (T.ccBlocks i) = true
  ascii : ∀ n < 256, (letterTail (UInt8.ofNat n) = true ↔ n < 0x80 ∧ isL T n = true) ∧
    (symbolTail (UInt8.ofNat n) = true ↔ n < 0x80 ∧ isOther T n = true)
  space : isS T 0x20 = true

/-- The cell of a code point. -/
theorem Tables.ClassesChecked.cell_of {T : Tables} {blocks : Nat} (h : T.ClassesChecked blocks) {u : Nat}
    (hu : u ≤ 0x10FFFF) :
    T.bpCharClass u = T.ccBlocks (T.ccIndex (u / 256) * 256 + u % 256) ∧
      T.ccIndex (u / 256) * 256 + u % 256 < blocks * 256 := by
  have hlt := (h.index (u / 256) (by omega)).1
  have hmod : u &&& 0xFF = u % 256 := Nat.and_two_pow_sub_one_eq_mod u 8
  refine ⟨?_, by omega⟩
  unfold Tables.bpCharClass
  rw [if_neg (by omega), hmod, Nat.shiftRight_eq_div_pow,
    ← Nat.shiftLeft_add_eq_or_of_lt (Nat.mod_lt u (by decide : 0 < 2 ^ 8)), Nat.shiftLeft_eq]

/-- Line breaks are white space, and every other code point is of one class at most. -/
theorem Tables.ClassesChecked.class_cases {T : Tables} {blocks : Nat} (h : T.ClassesChecked blocks) (u : Nat) :
    (u = 0x0D ∨ u = 0x0A) ∧ T.bpCharClass u = BP_CC_S ||| BP_CC_NL ∨
      ¬(u = 0x0D ∨ u = 0x0A) ∧ T.bpCharClass u ∈ [0, BP_CC_L, BP_CC_N, BP_CC_S] := by
  by_cases hu : u ≤ 0x10FFFF
  · obtain ⟨heq, hlt⟩ := h.cell_of hu
    have hcell := h.cell _ hlt
    have hfirst := (h.index (u / 256) (by omega)).2
    rw [← heq, cellOk] at hcell
    split at hcell
    · next hi =>
      simp only [Bool.or_eq_true, beq_iff_eq] at hi
      have hzero : u / 256 = 0 := hfirst (by omega)
      rw [hzero, h.first] at hi
      exact .inl ⟨by omega, by simpa using hcell⟩
    · next hi =>
      simp only [Bool.or_eq_true, beq_iff_eq] at hi
      refine .inr ⟨fun hcr => hi ?_, by simpa [or_assoc] using hcell⟩
      have hzero : u / 256 = 0 := by omega
      rw [hzero, h.first]
      omega
  · rw [bpCharClass_of_gt (by omega)]
    exact .inr ⟨by omega, List.mem_cons_self⟩

/-- Checked classes can be scanned. -/
theorem Tables.ClassesChecked.scannable {T : Tables} {blocks : Nat} (h : T.ClassesChecked blocks) :
    T.Scannable where
  letter u := by
    have all : ∀ c ∈ [0, BP_CC_L, BP_CC_N, BP_CC_S], decide (c &&& BP_CC_L ≠ 0) = true →
        decide (c &&& BP_CC_N ≠ 0) = false ∧ decide (c &&& BP_CC_S ≠ 0) = false := by decide
    rcases h.class_cases u with ⟨-, hc⟩ | ⟨-, hc⟩
    · simp [isL, hc, BP_CC_L, BP_CC_S, BP_CC_NL]
    · exact all _ hc
  number u := by
    have all : ∀ c ∈ [0, BP_CC_L, BP_CC_N, BP_CC_S], decide (c &&& BP_CC_N ≠ 0) = true →
        decide (c &&& BP_CC_S ≠ 0) = false := by decide
    rcases h.class_cases u with ⟨-, hc⟩ | ⟨-, hc⟩
    · simp [isN, hc, BP_CC_N, BP_CC_S, BP_CC_NL]
    · exact all _ hc
  newline u := by
    have all : ∀ c ∈ [0, BP_CC_L, BP_CC_N, BP_CC_S], ¬c &&& BP_CC_NL ≠ 0 := by decide
    rcases h.class_cases u with ⟨hu, hc⟩ | ⟨hu, hc⟩
    · simp [hc, hu, BP_CC_S, BP_CC_NL]
    · exact iff_of_false (all _ hc) hu
  newline_space u hu := by
    rcases h.class_cases u with ⟨-, hc⟩ | ⟨hne, -⟩
    · simp [isS, hc, BP_CC_S, BP_CC_NL]
    · exact absurd (by simpa [isCrLf] using hu) hne
  space := h.space
  asciiLetter b := by
    have := (h.ascii b.toNat b.toNat_lt).1
    rwa [UInt8.ofNat_toNat] at this
  asciiSymbol b := by
    have := (h.ascii b.toNat b.toNat_lt).2
    rwa [UInt8.ofNat_toNat] at this

theorem shipped_classesChecked : shipped.ClassesChecked 133 where
  index := of_allBelow (by decide +kernel)
  first := by decide +kernel
  cell := allBelow_iff.1 (by decide +kernel)
  ascii := of_allBelow (by decide +kernel)
  space := by decide +kernel

theorem shipped_scannable : shipped.Scannable := shipped_classesChecked.scannable

example : shipped.bpCharClass 0x3B1 = BP_CC_L := by decide +kernel

/-- **The split.** For every text and whatever is done with a span, with the kernels or
without: the scanner hands over the successive matches of the split regex over the units of
the text, one after the other up to the first error. The classes of the regex exclude each
other and CR and LF are whitespace; the spans are not empty and cut the text up. -/
theorem bpScanGpt4_spans {σ : Type} (emit : σ → List UInt8 → Run (Except Err Unit × σ)) (simd : Bool) (s : σ)
    (t : List UInt8) :
    bpScanGpt4 shipped emit simd s t = feed emit s (((splitRegex shipped).spans (units t)).map encodeUnits) ∧
    bpScanGpt4 shipped (fun spans p => .ok (.ok (), spans ++ [p])) simd [] t =
      .ok (.ok (), ((splitRegex shipped).spans (units t)).map encodeUnits) ∧
    (((splitRegex shipped).spans (units t)).map encodeUnits).flatten = t ∧
    (∀ p ∈ ((splitRegex shipped).spans (units t)).map encodeUnits, p ≠ []) ∧
    shipped.Splits := by
  have hT := shipped_scannable
  obtain ⟨hcat, hne⟩ := splitSpans_flatten hT.toSplits t
  refine ⟨bpScanGpt4_eq hT emit simd s t, ?_, hcat, hne, hT.toSplits⟩
  rw [bpScanGpt4_eq hT, feed_record, List.nil_append]
  rfl

end Bytepair
