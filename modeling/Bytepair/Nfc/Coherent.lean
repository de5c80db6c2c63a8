import Bytepair.Nfc.Refine

/-!
# Coherent tables

What has to hold between the decompositions, the composition pairs, the classes and the
quick-check values for `bp_nfc` to be a normal form. `Tables.Coherent` collects it; from it
come the `Lawful` and `Quick` facts of the library, for units in place of entries.
-/

namespace Bytepair
open Support Support.Canonical

/-- The code points a unit decomposes to. -/
def unitDecomposition (T : Tables) (u : Nat) : List Nat := (unitEntries T u).map Cpe.cp

/-- The composite of two units. -/
def composeUnits (T : Tables) (a b : Nat) : Option Nat :=
  if tagBase ≤ a ∨ tagBase ≤ b ∨ composePair T a b = 0 then none else some (composePair T a b)

/-- Units as the library normalizes them. -/
def alphabet (T : Tables) : Alphabet Nat where
  weight := T.bpCcc
  decompose := unitDecomposition T
  compose := composeUnits T

/-- A conjoining jamo: a starter without a decomposition. -/
def JamoOk (T : Tables) (cp : Nat) : Prop := T.bpCcc cp = 0 ∧ T.bpDecomp cp = []

/-- An element of a decomposition: a scalar value without a decomposition of its own. -/
def PartOk (T : Tables) (d : Nat) : Prop := IsScalar d ∧ isHangulS d = false ∧ T.bpDecomp d = []

/-- A decomposition whose code point passes the quick check composes back to it. -/
def Recomposes (T : Tables) (cp : Nat) (ds : List Nat) : Prop :=
  T.bpCcc cp = 0 ∧
  match ds with
  | [] => False
  | d :: tail => T.bpCcc d = 0 ∧ T.bpNfcQc d = 1 ∧ tail.foldlM (composeUnits T) d = some cp ∧
      tail.Pairwise fun x y => T.bpCcc x ≤ T.bpCcc y

/-- The decomposition `ds` of `cp`. -/
def DecompOk (T : Tables) (cp : Nat) (ds : List Nat) : Prop :=
  ds.length ≤ 4 ∧ (∀ d ∈ ds, PartOk T d) ∧ unitBytes ds ≤ 3 * unitBytes [cp] ∧
    (T.bpNfcQc cp = 1 → Recomposes T cp ds)

/-- The composite `c` of `a` and `b`. -/
def ComposeOk (T : Tables) (a b c : Nat) : Prop :=
  IsScalar c ∧ T.bpCcc a = 0 ∧ T.bpCcc c = 0 ∧ T.bpNfcQc c ≠ 0 ∧ T.bpNfcQc b ≠ 1 ∧
    unitBytes [c] ≤ unitBytes [a, b] ∧ unitDecomposition T b = [b] ∧
    unitDecomposition T c = unitDecomposition T a ++ [b]

attribute [grind =] unitDecomposition composeUnits

instance (T : Tables) (cp : Nat) : Decidable (JamoOk T cp) := inferInstanceAs (Decidable (_ ∧ _))

instance (T : Tables) (d : Nat) : Decidable (PartOk T d) := inferInstanceAs (Decidable (_ ∧ _))

instance (T : Tables) (cp : Nat) : ∀ ds, Decidable (Recomposes T cp ds)
  | [] => isFalse fun h => h.2
  | _ :: _ => inferInstanceAs (Decidable (_ ∧ _))

instance (T : Tables) (cp : Nat) (ds : List Nat) : Decidable (DecompOk T cp ds) :=
  inferInstanceAs (Decidable (_ ∧ _))

instance (T : Tables) (a b c : Nat) : Decidable (ComposeOk T a b c) :=
  inferInstanceAs (Decidable (_ ∧ _))

/-- Tables that `bp_nfc` normalizes with. -/
structure Tables.Coherent (T : Tables) : Prop where
  ascii : ∀ cp < 0x80, T.bpCcc cp = 0 ∧ T.bpNfcQc cp = 1
  jamoL : ∀ i < LCOUNT, JamoOk T (LBASE + i) ∧ T.bpNfcQc (LBASE + i) = 1
  jamoV : ∀ i < VCOUNT, JamoOk T (VBASE + i) ∧ T.bpNfcQc (VBASE + i) ≠ 1
  jamoT : ∀ i < TCOUNT, 0 < i → JamoOk T (TBASE + i) ∧ T.bpNfcQc (TBASE + i) ≠ 1
  syllable : ∀ i < SCOUNT, T.bpCcc (SBASE + i) = 0 ∧ T.bpNfcQc (SBASE + i) = 1
  tagged : ∀ cp, tagBase ≤ cp → T.bpNfcQc cp = 1
  decomp : ∀ cp, T.bpDecomp cp ≠ [] → DecompOk T cp (T.bpDecomp cp)
  excluded : ∀ cp, T.bpNfcQc cp = 0 → T.bpDecomp cp ≠ []
  compose : ∀ a b, a < tagBase → b < tagBase → T.bpCompose a b ≠ 0 →
    ComposeOk T a b (T.bpCompose a b)

variable {T : Tables}

section Hangul

theorem isHangulS_iff (cp : Nat) : isHangulS cp = true ↔ SBASE ≤ cp ∧ cp < SBASE + SCOUNT := by
  simp [isHangulS]

theorem unitDecomposition_self {u : Nat} (h : tagBase ≤ u ∨ isHangulS u = false ∧ T.bpDecomp u = []) :
    unitDecomposition T u = [u] := by
  unfold unitDecomposition unitEntries
  rcases h with htag | ⟨hS, hd⟩
  · rw [if_pos htag]
    rfl
  · split
    · rfl
    · simp [decomposition, hS, hd]

theorem unitDecomposition_table {u : Nat} (hu : u < tagBase) (hS : isHangulS u = false)
    (hd : T.bpDecomp u ≠ []) : unitDecomposition T u = T.bpDecomp u := by
  unfold unitDecomposition unitEntries
  rw [if_neg (by omega)]
  simp [decomposition, hS, hd, Function.comp_def]

/-- A unit that does not decompose, a Hangul syllable, or a unit with a table entry. -/
theorem unit_cases (T : Tables) (u : Nat) :
    (unitDecomposition T u = [u] ∧ (tagBase ≤ u ∨ T.bpDecomp u = [])) ∨
    (∃ i < SCOUNT, u = SBASE + i) ∨
    (u < tagBase ∧ isHangulS u = false ∧ T.bpDecomp u ≠ [] ∧ unitDecomposition T u = T.bpDecomp u) := by
  by_cases htag : tagBase ≤ u
  · exact .inl ⟨unitDecomposition_self (.inl htag), .inl htag⟩
  by_cases hS : isHangulS u = true
  · obtain ⟨hlo, hhi⟩ := (isHangulS_iff u).1 hS
    exact .inr (.inl ⟨u - SBASE, by omega, by omega⟩)
  rw [Bool.not_eq_true] at hS
  by_cases hd : T.bpDecomp u = []
  · exact .inl ⟨unitDecomposition_self (.inr ⟨hS, hd⟩), .inr hd⟩
  · exact .inr (.inr ⟨by omega, hS, hd, unitDecomposition_table (by omega) hS hd⟩)

/-- Syllable number `i` of the Hangul block. -/
theorem unitDecomposition_syllable {i : Nat} (hi : i < SCOUNT) :
    unitDecomposition T (SBASE + i) =
      [LBASE + i / NCOUNT, VBASE + i % NCOUNT / TCOUNT] ++
        (if i % TCOUNT ≠ 0 then [TBASE + i % TCOUNT] else []) := by
  have hS : isHangulS (SBASE + i) = true := (isHangulS_iff _).2 ⟨by omega, by omega⟩
  have htag : ¬tagBase ≤ SBASE + i := by
    unfold SCOUNT LCOUNT NCOUNT VCOUNT TCOUNT at hi
    unfold tagBase SBASE
    omega
  unfold unitDecomposition unitEntries decomposition
  rw [if_neg htag, if_pos hS, Nat.add_sub_cancel_left]
  by_cases ht : i % TCOUNT = 0 <;> simp [ht]

theorem length_encodeUnit_eq_three {u : Nat} (hlo : 0x800 ≤ u) (hhi : u < 0x10000) :
    (encodeUnit u).length = 3 := by
  unfold encodeUnit
  rw [if_neg (by omega), if_neg (by omega), if_neg (by omega), if_pos hhi]
  rfl

theorem length_encodeUnit_syllable {i : Nat} (hi : i < SCOUNT) : (encodeUnit (SBASE + i)).length = 3 := by
  unfold SCOUNT NCOUNT LCOUNT VCOUNT TCOUNT at hi
  unfold SBASE
  exact length_encodeUnit_eq_three (by omega) (by omega)

/-- How two code points compose: leading and vowel jamo, syllable and trailing jamo, or by
the table. -/
theorem composePair_cases (T : Tables) (a b : Nat) :
    (∃ l < LCOUNT, ∃ v < VCOUNT, a = LBASE + l ∧ b = VBASE + v ∧
      composePair T a b = SBASE + (l * VCOUNT + v) * TCOUNT) ∨
    (∃ i < LCOUNT * VCOUNT, ∃ t < TCOUNT, 0 < t ∧ a = SBASE + i * TCOUNT ∧ b = TBASE + t ∧
      composePair T a b = SBASE + (i * TCOUNT + t)) ∨
    composePair T a b = T.bpCompose a b := by
  unfold composePair
  split
  · next h =>
    obtain ⟨ha, ha', hb, hb'⟩ := h
    exact .inl ⟨a - LBASE, by omega, b - VBASE, by omega, by omega, by omega, rfl⟩
  split
  · next h =>
    obtain ⟨hS, hmod, hb, hb'⟩ := h
    obtain ⟨ha, ha'⟩ := (isHangulS_iff a).1 hS
    have hdiv : (a - SBASE) / TCOUNT * TCOUNT = a - SBASE := Nat.div_mul_cancel (Nat.dvd_of_mod_eq_zero hmod)
    refine .inr (.inl ⟨(a - SBASE) / TCOUNT, ?_, b - TBASE, by omega, by omega, by omega, by omega, by omega⟩)
    unfold SCOUNT NCOUNT at ha'
    unfold LCOUNT VCOUNT TCOUNT SBASE at *
    omega
  · exact .inr (.inr rfl)

/-- A jamo decomposes to itself. -/
theorem jamo_self {cp : Nat} (hcp : cp < TBASE + TCOUNT) (h : JamoOk T cp) :
    unitDecomposition T cp = [cp] := by
  refine unitDecomposition_self (.inr ⟨?_, h.2⟩)
  rw [Bool.eq_false_iff, Ne, isHangulS_iff]
  unfold TBASE TCOUNT SBASE at *
  omega

theorem composePair_leading_vowel (T : Tables) {l v : Nat} (hl : l < LCOUNT) (hv : v < VCOUNT) :
    composePair T (LBASE + l) (VBASE + v) = SBASE + (l * VCOUNT + v) * TCOUNT := by
  unfold composePair
  rw [if_pos ⟨by omega, by omega, by omega, by omega⟩, Nat.add_sub_cancel_left, Nat.add_sub_cancel_left]

theorem composePair_trailing (T : Tables) {i t : Nat} (hi : i < LCOUNT * VCOUNT) (ht : t < TCOUNT)
    (ht0 : 0 < t) :
    composePair T (SBASE + i * TCOUNT) (TBASE + t) = SBASE + (i * TCOUNT + t) := by
  have hS : isHangulS (SBASE + i * TCOUNT) = true := by
    refine (isHangulS_iff _).2 ⟨by omega, ?_⟩
    unfold SCOUNT NCOUNT LCOUNT VCOUNT TCOUNT at *
    omega
  unfold composePair
  have hmod : (SBASE + i * TCOUNT - SBASE) % TCOUNT = 0 := by
    rw [Nat.add_sub_cancel_left, Nat.mul_mod_left]
  rw [if_neg (by unfold SBASE LBASE LCOUNT; omega), if_pos ⟨hS, hmod, by omega, by omega⟩]
  omega

theorem composeUnits_leading_vowel (T : Tables) {l v : Nat} (hl : l < LCOUNT) (hv : v < VCOUNT) :
    composeUnits T (LBASE + l) (VBASE + v) = some (SBASE + (l * VCOUNT + v) * TCOUNT) := by
  unfold composeUnits
  rw [composePair_leading_vowel T hl hv, if_neg]
  simp only [LCOUNT, VCOUNT, TCOUNT, LBASE, VBASE, SBASE, tagBase] at *
  omega

theorem composeUnits_trailing (T : Tables) {i t : Nat} (hi : i < LCOUNT * VCOUNT) (ht : t < TCOUNT)
    (ht0 : 0 < t) :
    composeUnits T (SBASE + i * TCOUNT) (TBASE + t) = some (SBASE + (i * TCOUNT + t)) := by
  unfold composeUnits
  rw [composePair_trailing T hi ht ht0, if_neg]
  simp only [LCOUNT, VCOUNT, TCOUNT, TBASE, SBASE, tagBase] at *
  omega

end Hangul

namespace Tables.Coherent

variable (hT : T.Coherent)
include hT

theorem compose_leading_vowel {l v : Nat} (hl : l < LCOUNT) (hv : v < VCOUNT) :
    ComposeOk T (LBASE + l) (VBASE + v) (SBASE + (l * VCOUNT + v) * TCOUNT) := by
  obtain ⟨hL, -⟩ := hT.jamoL l hl
  obtain ⟨hV, hqc⟩ := hT.jamoV v hv
  have hL' : unitDecomposition T (LBASE + l) = [LBASE + l] :=
    jamo_self (by unfold LCOUNT LBASE TBASE TCOUNT at *; omega) hL
  have hV' : unitDecomposition T (VBASE + v) = [VBASE + v] :=
    jamo_self (by unfold VCOUNT VBASE TBASE TCOUNT at *; omega) hV
  have hi : (l * VCOUNT + v) * TCOUNT < SCOUNT := by
    unfold SCOUNT NCOUNT LCOUNT VCOUNT TCOUNT at *
    omega
  obtain ⟨hccc, hS⟩ := hT.syllable _ hi
  refine ⟨.inl ?_, hL.1, hccc, by omega, hqc, ?_, hV', ?_⟩
  · unfold SCOUNT NCOUNT LCOUNT VCOUNT TCOUNT SBASE at *
    omega
  · have hc := length_encodeUnit_syllable hi
    have ha : (encodeUnit (LBASE + l)).length = 3 := by
      unfold LCOUNT LBASE at *
      exact length_encodeUnit_eq_three (by omega) (by omega)
    simp only [unitBytes_cons]
    omega
  · have h₁ : (l * VCOUNT + v) * TCOUNT / NCOUNT = l := by
      unfold NCOUNT VCOUNT TCOUNT at *
      omega
    have h₂ : (l * VCOUNT + v) * TCOUNT % NCOUNT / TCOUNT = v := by
      unfold NCOUNT VCOUNT TCOUNT at *
      omega
    rw [unitDecomposition_syllable hi, h₁, h₂, hL', Nat.mul_mod_left]
    rfl

theorem compose_trailing {i t : Nat} (hi : i < LCOUNT * VCOUNT) (ht : t < TCOUNT) (ht0 : 0 < t) :
    ComposeOk T (SBASE + i * TCOUNT) (TBASE + t) (SBASE + (i * TCOUNT + t)) := by
  obtain ⟨hJ, hqc⟩ := hT.jamoT t ht ht0
  have hJ' : unitDecomposition T (TBASE + t) = [TBASE + t] :=
    jamo_self (by omega) hJ
  have ha : i * TCOUNT < SCOUNT := by
    unfold SCOUNT NCOUNT LCOUNT VCOUNT TCOUNT at *
    omega
  have hc : i * TCOUNT + t < SCOUNT := by
    unfold SCOUNT NCOUNT LCOUNT VCOUNT TCOUNT at *
    omega
  obtain ⟨hccc, hS⟩ := hT.syllable _ hc
  refine ⟨.inl ?_, (hT.syllable _ ha).1, hccc, by omega, hqc, ?_, hJ', ?_⟩
  · unfold SCOUNT NCOUNT LCOUNT VCOUNT TCOUNT SBASE at *
    omega
  · have hlenc := length_encodeUnit_syllable hc
    have hlena := length_encodeUnit_syllable ha
    simp only [unitBytes_cons]
    omega
  · have h₁ : (i * TCOUNT + t) / NCOUNT = i * TCOUNT / NCOUNT := by
      unfold NCOUNT VCOUNT TCOUNT at *
      omega
    have h₂ : (i * TCOUNT + t) % NCOUNT / TCOUNT = i * TCOUNT % NCOUNT / TCOUNT := by
      unfold NCOUNT VCOUNT TCOUNT at *
      omega
    have h₃ : (i * TCOUNT + t) % TCOUNT = t := by rw [Nat.mul_add_mod', Nat.mod_eq_of_lt ht]
    rw [unitDecomposition_syllable hc, unitDecomposition_syllable ha, h₁, h₂, h₃, Nat.mul_mod_left,
      if_pos (by omega)]
    rfl

/-- Every pair that composes does so as the table's entries do. -/
theorem composePair {a b : Nat} (ha : a < tagBase) (hb : b < tagBase) (h : composePair T a b ≠ 0) :
    ComposeOk T a b (composePair T a b) := by
  rcases composePair_cases T a b with ⟨l, hl, v, hv, rfl, rfl, hc⟩ | ⟨i, hi, t, ht, ht0, rfl, rfl, hc⟩ | hc
  · rw [hc]
    exact hT.compose_leading_vowel hl hv
  · rw [hc]
    exact hT.compose_trailing hi ht ht0
  · rw [hc] at h ⊢
    exact hT.compose a b ha hb h

theorem sized : T.Sized where
  decomp cp := by
    by_cases h : T.bpDecomp cp = []
    · simp [h]
    · exact (hT.decomp cp h).1
  compose a b ha hb := by
    by_cases h : T.bpCompose a b = 0
    · rw [h]
      decide
    · exact (hT.compose a b ha hb h).1.lt

/-- The parts of a syllable are jamo. -/
theorem syllable_parts {i d : Nat} (hi : i < SCOUNT) (hd : d ∈ unitDecomposition T (SBASE + i)) :
    LBASE ≤ d ∧ d < TBASE + TCOUNT ∧ JamoOk T d := by
  rw [unitDecomposition_syllable hi] at hd
  have hL : i / NCOUNT < LCOUNT := by
    unfold SCOUNT NCOUNT LCOUNT VCOUNT TCOUNT at *
    omega
  have hV : i % NCOUNT / TCOUNT < VCOUNT := by
    unfold NCOUNT VCOUNT TCOUNT
    omega
  simp only [List.cons_append, List.nil_append, List.mem_cons] at hd
  rcases hd with rfl | rfl | hd
  · refine ⟨Nat.le_add_right _ _, ?_, (hT.jamoL _ hL).1⟩
    simp only [LCOUNT, LBASE, TBASE, TCOUNT] at hL ⊢
    omega
  · refine ⟨?_, ?_, (hT.jamoV _ hV).1⟩ <;> simp only [VCOUNT, VBASE, LBASE, TBASE, TCOUNT] at hV ⊢ <;>
      omega
  · split at hd
    · next ht =>
      rw [List.mem_singleton] at hd
      have hlt : i % TCOUNT < TCOUNT := Nat.mod_lt _ (by decide)
      refine ⟨?_, by omega, hd ▸ (hT.jamoT _ hlt (by omega)).1⟩
      unfold TBASE LBASE at *
      omega
    · cases hd

/-- The parts of a decomposition do not decompose. -/
theorem parts_full {u d : Nat} (hd : d ∈ unitDecomposition T u) : unitDecomposition T d = [d] := by
  rcases unit_cases T u with ⟨hself, -⟩ | ⟨i, hi, rfl⟩ | ⟨-, -, hne, heq⟩
  · rw [hself, List.mem_singleton] at hd
    rwa [hd]
  · obtain ⟨-, hlt, hjamo⟩ := hT.syllable_parts hi hd
    exact jamo_self hlt hjamo
  · rw [heq] at hd
    obtain ⟨-, hpart, -⟩ := hT.decomp u hne
    exact unitDecomposition_self (.inr (hpart d hd).2)

theorem parts_scalar {u d : Nat} (hu : IsScalar u) (hd : d ∈ unitDecomposition T u) : IsScalar d := by
  rcases unit_cases T u with ⟨hself, -⟩ | ⟨i, hi, rfl⟩ | ⟨-, -, hne, heq⟩
  · rw [hself, List.mem_singleton] at hd
    rwa [hd]
  · obtain ⟨-, hlt, -⟩ := hT.syllable_parts hi hd
    unfold TBASE TCOUNT at hlt
    exact .inl (by omega)
  · rw [heq] at hd
    obtain ⟨-, hpart, -⟩ := hT.decomp u hne
    exact (hpart d hd).1

/-- A decomposition takes at most three times the bytes. -/
theorem parts_bytes (u : Nat) : unitBytes (unitDecomposition T u) ≤ 3 * unitBytes [u] := by
  rcases unit_cases T u with ⟨hself, -⟩ | ⟨i, hi, rfl⟩ | ⟨-, -, hne, heq⟩
  · rw [hself]
    omega
  · have hlen : ∀ ds : List Nat, (∀ d ∈ ds, LBASE ≤ d ∧ d < TBASE + TCOUNT ∧ JamoOk T d) →
        unitBytes ds = 3 * ds.length := by
      intro ds hds
      induction ds with
      | nil => rfl
      | cons d ds ih =>
        obtain ⟨⟨hlo, hhi, -⟩, hds⟩ := List.forall_mem_cons.1 hds
        unfold LBASE TBASE TCOUNT at *
        rw [unitBytes_cons, ih hds, length_encodeUnit_eq_three (by omega) (by omega), List.length_cons]
        omega
    have hthree : (unitDecomposition T (SBASE + i)).length ≤ 3 := by
      rw [unitDecomposition_syllable hi]
      split <;> simp
    have hsyl := length_encodeUnit_syllable hi
    rw [hlen _ fun d hd => hT.syllable_parts hi hd, unitBytes_cons]
    omega
  · rw [heq]
    exact (hT.decomp u hne).2.2.1

theorem composeUnits_eq_some {a b c : Nat} (h : composeUnits T a b = some c) : ComposeOk T a b c := by
  unfold composeUnits at h
  split at h
  · cases h
  · next hno =>
    simp only [not_or, Nat.not_le] at hno
    obtain rfl := Option.some.inj h
    exact hT.composePair hno.1 hno.2.1 hno.2.2

/-- **Lawful.** A composite decomposes as its parts do, and decompositions are full. -/
theorem lawful : (alphabet T).Lawful where
  decompose_full := by
    intro u d hd
    exact hT.parts_full hd
  compose_decompose := by
    intro a b c h
    obtain ⟨-, -, -, -, -, -, hb, hc⟩ := hT.composeUnits_eq_some h
    exact hc.trans (congrArg _ hb.symm)
  compose_part := by
    intro a b c h
    obtain ⟨-, -, -, -, -, -, hb, -⟩ := hT.composeUnits_eq_some h
    exact hb

/-- A syllable composes back from its jamo. -/
theorem recompose_syllable {i : Nat} (hi : i < SCOUNT) :
    ∃ d tail, unitDecomposition T (SBASE + i) = d :: tail ∧ T.bpCcc d = 0 ∧ T.bpNfcQc d = 1 ∧
      tail.foldlM (composeUnits T) d = some (SBASE + i) ∧
      tail.Pairwise fun x y => T.bpCcc x ≤ T.bpCcc y := by
  have hl : i / NCOUNT < LCOUNT := by
    simp only [SCOUNT, NCOUNT, LCOUNT, VCOUNT, TCOUNT] at *
    omega
  have hv : i % NCOUNT / TCOUNT < VCOUNT := by
    simp only [NCOUNT, VCOUNT, TCOUNT]
    omega
  have ht : i % TCOUNT < TCOUNT := Nat.mod_lt _ (by decide)
  have hsplit : (i / NCOUNT * VCOUNT + i % NCOUNT / TCOUNT) * TCOUNT + i % TCOUNT = i := by
    simp only [NCOUNT, VCOUNT, TCOUNT]
    omega
  obtain ⟨hL, hLqc⟩ := hT.jamoL _ hl
  obtain ⟨hV, -⟩ := hT.jamoV _ hv
  have hLV := composeUnits_leading_vowel T hl hv
  refine ⟨_, _, unitDecomposition_syllable hi, hL.1, hLqc, ?_, ?_⟩
  · by_cases h0 : i % TCOUNT = 0
    · rw [h0, Nat.add_zero] at hsplit
      rw [hsplit] at hLV
      simp [h0, hLV]
    · have hlv : i / NCOUNT * VCOUNT + i % NCOUNT / TCOUNT < LCOUNT * VCOUNT := by
        simp only [SCOUNT, NCOUNT, LCOUNT, VCOUNT, TCOUNT] at *
        omega
      have hT' := composeUnits_trailing T hlv ht (by omega)
      rw [hsplit] at hT'
      simp [h0, hLV, hT']
  · split
    · simp [hV.1]
    · simp

/-- **The quick-check set.** Units with value Yes compose back and compose with nothing
before them. -/
theorem quick : (alphabet T).Quick fun u => T.bpNfcQc u = 1 where
  not_part := by
    intro a b c h
    obtain ⟨-, -, -, -, hqc, -⟩ := hT.composeUnits_eq_some h
    exact hqc
  mark := by
    intro u hqc hccc
    rcases unit_cases T u with ⟨hself, -⟩ | ⟨i, hi, rfl⟩ | ⟨-, -, hne, -⟩
    · exact hself
    · exact absurd (hT.syllable i hi).1 hccc
    · obtain ⟨-, -, -, hre⟩ := hT.decomp u hne
      exact absurd (hre hqc).1 hccc
  starter := by
    intro u hqc hccc
    rcases unit_cases T u with ⟨hself, -⟩ | ⟨i, hi, rfl⟩ | ⟨-, -, hne, heq⟩
    · exact ⟨u, [], hself, hccc, hqc, rfl, .nil⟩
    · exact hT.recompose_syllable hi
    · obtain ⟨-, -, -, hre⟩ := hT.decomp u hne
      have hparts := (hre hqc).2
      cases hd : T.bpDecomp u with
      | nil => exact absurd hd hne
      | cons d tail =>
        rw [hd] at hparts heq
        exact ⟨d, tail, heq, hparts⟩

end Tables.Coherent

/-- A unit as an entry of the work buffer. -/
def entry (T : Tables) (u : Nat) : Cpe := ⟨u, T.bpCcc u⟩

theorem bpCcc_tagged {u : Nat} (h : tagBase ≤ u) : T.bpCcc u = 0 := by
  unfold Tables.bpCcc tagBase at *
  rw [if_pos (by omega)]

namespace Tables.Coherent

variable (hT : T.Coherent)
include hT

theorem unitEntries_eq (u : Nat) : unitEntries T u = (unitDecomposition T u).map (entry T) := by
  have h : ∀ e ∈ unitEntries T u, e = entry T e.cp := by
    intro e he
    have hmem : e.cp ∈ unitDecomposition T u := List.mem_map_of_mem he
    unfold unitEntries decomposition at he
    split at he
    · next htag =>
      rw [List.mem_singleton.1 he, entry, bpCcc_tagged htag]
    split at he
    · next hS =>
      obtain ⟨hlo, hhi⟩ := (isHangulS_iff u).1 hS
      obtain ⟨i, hi, rfl⟩ : ∃ i < SCOUNT, u = SBASE + i := ⟨u - SBASE, by omega, by omega⟩
      obtain ⟨-, -, hjamo⟩ := hT.syllable_parts hi hmem
      have hzero : e.ccc = 0 := by
        dsimp only at he
        split at he <;> simp at he <;> rcases he with rfl | rfl | rfl <;> rfl
      rw [entry, hjamo.1, ← hzero]
    · split at he
      · rw [List.mem_singleton.1 he, entry]
      · obtain ⟨x, -, rfl⟩ := List.mem_map.1 he
        rfl
  unfold unitDecomposition
  rw [List.map_map]
  exact (List.map_id _).symm.trans (List.map_congr_left fun e he => h e he)

/-- The ordered decomposition of a text, in units. -/
theorem decomposedEntries_eq (s : List UInt8) :
    decomposedEntries T s = ((alphabet T).decomposed (units s)).map (entry T) := by
  have h : (units s).flatMap (unitEntries T) =
      ((units s).flatMap (unitDecomposition T)).map (entry T) := by
    rw [List.map_flatMap]
    exact List.flatMap_congr fun u _ => hT.unitEntries_eq u
  rw [decomposedEntries, h]
  exact reorder_map (fun _ => rfl) _

theorem composeCpe_entry (a b : Nat) :
    composeCpe T (entry T a) (entry T b) = (composeUnits T a b).map (entry T) := by
  cases hc : composeUnits T a b with
  | none =>
    unfold composeUnits at hc
    split at hc
    · next hno => rw [composeCpe, entry, entry, if_pos hno]; rfl
    · cases hc
  | some c =>
    obtain ⟨-, ha, hccc, -⟩ := hT.composeUnits_eq_some hc
    unfold composeUnits at hc
    split at hc
    · cases hc
    · next hno =>
      obtain rfl := Option.some.inj hc
      rw [composeCpe, entry, entry, if_neg hno, ha]
      simp only [Option.map_some, entry, hccc]

/-- The entries of the normal form are the normalized units. -/
theorem nfcEntries_eq (s : List UInt8) :
    nfcEntries T s = ((alphabet T).normalize (units s)).map (entry T) := by
  rw [nfcEntries, hT.decomposedEntries_eq]
  exact composeAll_map (P := fun _ => True) (fun _ => rfl) (fun a b _ _ => hT.composeCpe_entry a b)
    (fun _ _ _ _ => trivial) fun _ _ => trivial

/-- **The full path** writes the normalized units of the segment. -/
theorem nfcFull_eq (s : List UInt8) :
    nfcFull T s = encodeUnits ((alphabet T).normalize (units s)) := by
  rw [nfcFull, hT.nfcEntries_eq, entryText, List.flatMap_map]
  rfl

end Tables.Coherent

end Bytepair
