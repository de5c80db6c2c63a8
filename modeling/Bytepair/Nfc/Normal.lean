import Bytepair.Nfc.Coherent

/-!
# Normal forms of texts

What the library says of normalized units, for the bytes `bp_nfc` hands on: a text on a
fast path is its own full-path result (`nfcFull_of_fast`), and writing normalized units
never makes a character out of malformed bytes (`units_nfcText`).
-/

namespace Bytepair
open Support Support.Canonical

section Ascii

/-- The mask of the high bits of `k` bytes. -/
def highBits : Nat → Nat
  | 0 => 0
  | k + 1 => 0x80 + 256 * highBits k

theorem and_byte_eq_zero {x y : Nat} (h : x &&& y = 0) : x % 256 &&& y % 256 = 0 ∧ x / 256 &&& y / 256 = 0 := by
  have hmod : (x &&& y) % 2 ^ 8 = x % 2 ^ 8 &&& y % 2 ^ 8 := Nat.and_mod_two_pow
  have hdiv : (x &&& y) / 2 ^ 8 = x / 2 ^ 8 &&& y / 2 ^ 8 := Nat.and_div_two_pow
  rw [h] at hmod hdiv
  exact ⟨hmod.symm, hdiv.symm⟩

theorem ascii_of_high_bit {b : UInt8} (h : b.toNat &&& 0x80 = 0) : b.toNat < 0x80 := by
  have all : ∀ n : Fin 256, n.1 &&& 0x80 = 0 → n.1 < 0x80 := by decide +kernel
  exact all ⟨b.toNat, b.toNat_lt⟩ h

/-- No byte of a word whose high bits are all clear is above ASCII. -/
theorem ascii_of_word {bs : List UInt8} (h : littleEndian bs &&& highBits bs.length = 0) :
    ∀ b ∈ bs, b.toNat < 0x80 := by
  induction bs with
  | nil => simp
  | cons b bs ih =>
    have hb := b.toNat_lt
    obtain ⟨hlow, hrest⟩ := and_byte_eq_zero h
    simp only [littleEndian, List.length_cons, highBits] at hlow hrest
    have hlow' : b.toNat &&& 0x80 = 0 := by
      rwa [show (b.toNat + 256 * littleEndian bs) % 256 = b.toNat by omega,
        show (0x80 + 256 * highBits bs.length) % 256 = 0x80 by omega] at hlow
    rw [show (b.toNat + 256 * littleEndian bs) / 256 = littleEndian bs by omega,
      show (0x80 + 256 * highBits bs.length) / 256 = highBits bs.length by omega] at hrest
    exact List.forall_mem_cons.2 ⟨ascii_of_high_bit hlow', ih hrest⟩

theorem ascii_of_allAscii {s : List UInt8} (h : allAscii s = true) : ∀ b ∈ s, b.toNat < 0x80 := by
  fun_induction allAscii s with
  | case1 => cases h
  | case2 b0 b1 b2 b3 b4 b5 b6 b7 p hword ih =>
    have hmask : highBits 8 = 0x8080808080808080 := by decide
    have hword' : littleEndian [b0, b1, b2, b3, b4, b5, b6, b7] &&& highBits 8 = 0 := by
      simpa [hmask] using hword
    exact List.forall_mem_append.2 ⟨ascii_of_word hword', ih h⟩
  | case3 p =>
    intro b hb
    have hbit : (b &&& 0x80) = 0 := by simpa using List.all_eq_true.1 h b hb
    apply ascii_of_high_bit
    rw [← show (b &&& 0x80).toNat = b.toNat &&& 0x80 from UInt8.toNat_and _ _, hbit]
    rfl

end Ascii

variable {T : Tables}

section Quick

theorem quickUnits_ascii {us : List Nat} (h : ∀ u ∈ us, u < 0x80) : quickUnits T 0 us = true := by
  induction us with
  | nil => rfl
  | cons u us ih =>
    obtain ⟨hu, hus⟩ := List.forall_mem_cons.1 h
    rw [quickUnits, if_pos (.inr hu), ih hus]

/-- Both fast paths pass the quick check. -/
theorem quickUnits_of_fast {s : List UInt8} (h : nfcFast T s = true) :
    quickUnits T 0 (units s) = true := by
  rcases Bool.or_eq_true_iff.1 h with hascii | hquick
  · have hs := ascii_of_allAscii hascii
    have hunits := units_ascii_append hs []
    rw [List.append_nil, units_nil, List.append_nil] at hunits
    rw [hunits]
    apply quickUnits_ascii
    intro u hu
    obtain ⟨b, hb, rfl⟩ := List.mem_map.1 hu
    exact hs b hb
  · exact hquick

/-- What the quick check says of the units. -/
theorem Tables.Coherent.quickUnits_sound (hT : T.Coherent) {us : List Nat} {prev : Nat}
    (h : quickUnits T prev us = true) :
    (∀ u ∈ us, T.bpNfcQc u = 1) ∧ Ordered T.bpCcc us ∧
      ∀ u ∈ us.head?, T.bpCcc u = 0 ∨ prev ≤ T.bpCcc u := by
  induction us generalizing prev with
  | nil => exact ⟨by simp, List.isChain_nil, by simp⟩
  | cons u us ih =>
    have step : T.bpNfcQc u = 1 → (T.bpCcc u = 0 ∨ prev ≤ T.bpCcc u) →
        quickUnits T (T.bpCcc u) us = true → (∀ v ∈ u :: us, T.bpNfcQc v = 1) ∧
          Ordered T.bpCcc (u :: us) ∧ ∀ v ∈ (u :: us).head?, T.bpCcc v = 0 ∨ prev ≤ T.bpCcc v := by
      intro hqc hprev hrest
      obtain ⟨hall, hord, hhead⟩ := ih hrest
      exact ⟨List.forall_mem_cons.2 ⟨hqc, hall⟩, List.IsChain.cons hord hhead, by simpa using hprev⟩
    rw [quickUnits] at h
    split at h
    · next hu =>
      obtain ⟨hccc, hqc⟩ : T.bpCcc u = 0 ∧ T.bpNfcQc u = 1 := by
        rcases hu with htag | hascii
        · exact ⟨bpCcc_tagged htag, hT.tagged u htag⟩
        · exact hT.ascii u hascii
      exact step hqc (.inl hccc) (by rwa [hccc])
    split at h
    · cases h
    next hprev =>
    split at h
    · cases h
    · next hqc => exact step (by simpa using hqc) (by omega) h

/-- **Fast paths are sound**: the full path would give the segment back. -/
theorem Tables.Coherent.nfcFull_of_fast (hT : T.Coherent) {s : List UInt8}
    (h : nfcFast T s = true) : nfcFull T s = s := by
  obtain ⟨hyes, hord, -⟩ := hT.quickUnits_sound (quickUnits_of_fast h)
  rw [hT.nfcFull_eq, hT.quick.normalize_eq hyes hord, encodeUnits_units]

/-- With the flag set, every path gives the normalized units. -/
theorem Tables.Coherent.nfcText_eq (hT : T.Coherent) (s : List UInt8) :
    nfcText T true s = encodeUnits ((alphabet T).normalize (units s)) := by
  rw [← hT.nfcFull_eq, nfcText, Bool.not_true, Bool.false_or]
  split
  · next h => exact (hT.nfcFull_of_fast h).symm
  · rfl

end Quick

section Readable

/-- Units whose text is read as the same units: malformed bytes that follow one another make
no character. -/
def Readable : List Nat → Prop
  | [] => True
  | u :: us =>
    (IsScalar u ∨ IsTagged u ∧ ∀ cp t, IsScalar cp →
      encodeUnits (u :: us.takeWhile fun v => tagBase ≤ v) ≠ encodeUnit cp ++ t) ∧ Readable us

/-- Where tagged bytes end, nothing follows or a byte that does not continue a character. -/
theorem encodeUnits_dropWhile_head {us : List Nat} (hus : ∀ u ∈ us, IsScalar u ∨ IsTagged u) :
    ∀ b ∈ (encodeUnits (us.dropWhile fun v => tagBase ≤ v)).head?, notCont b = true := by
  induction us with
  | nil => simp [encodeUnits]
  | cons u us ih =>
    obtain ⟨hu, hus⟩ := List.forall_mem_cons.1 hus
    by_cases htag : tagBase ≤ u
    · rw [List.dropWhile_cons_of_pos (by simpa using htag)]
      exact ih hus
    · rw [List.dropWhile_cons_of_neg (by simpa using htag)]
      have hlt : u < 0x110000 := by
        unfold tagBase at htag
        omega
      obtain ⟨b0, conts, henc, hb0, -⟩ := encodeUnit_shape hlt
      simp [henc, hb0]

/-- A character that begins in a run of bytes ends in it when what follows the run does not
continue one. -/
theorem encodeUnit_prefix {cp : Nat} (hs : IsScalar cp) {run rest t : List UInt8} (hrun : run ≠ [])
    (hrest : ∀ b ∈ rest.head?, notCont b = true) (h : run ++ rest = encodeUnit cp ++ t) :
    ∃ t', run = encodeUnit cp ++ t' := by
  rcases List.append_eq_append_iff.1 h with ⟨a, henc, hrest'⟩ | ⟨c, hrun', -⟩
  · obtain ⟨b0, conts, hshape, -, hconts⟩ := encodeUnit_shape hs.lt
    cases a with
    | nil => exact ⟨[], by simpa using henc.symm⟩
    | cons b a =>
      have hb : notCont b = true := hrest b (by rw [hrest']; rfl)
      obtain ⟨b0', run, rfl⟩ := List.exists_cons_of_ne_nil hrun
      rw [hshape, List.cons_append] at henc
      have hmem : b ∈ conts := by
        rw [(List.cons.inj henc).2]
        simp
      simp [hconts b hmem] at hb
  · exact ⟨c, hrun'⟩

/-- Readable units are read back. -/
theorem Readable.units_encodeUnits {us : List Nat} (hus : ∀ u ∈ us, IsScalar u ∨ IsTagged u)
    (h : Readable us) : units (encodeUnits us) = us := by
  induction us with
  | nil => rfl
  | cons u us ih =>
    obtain ⟨hu, hus'⟩ := List.forall_mem_cons.1 hus
    obtain ⟨hhead, htail⟩ := h
    rw [encodeUnits_cons]
    rcases hhead with hs | ⟨htag, hno⟩
    · rw [units_encodeUnit_append hs, ih hus' htail]
    · obtain ⟨b, rfl⟩ := htag.exists_byte
      have hsplit : encodeUnits us = encodeUnits (us.takeWhile fun v => tagBase ≤ v) ++
          encodeUnits (us.dropWhile fun v => tagBase ≤ v) := by
        rw [← encodeUnits_append, List.takeWhile_append_dropWhile]
      have hnext : nextUnit b (encodeUnits us) = (tagBase + b.toNat, 1) := by
        rcases bpUtf8Next_cases b (encodeUnits us) with ⟨cp, t, hs, hcat, -⟩ | ⟨-, hnext⟩
        · rw [hsplit, ← List.cons_append] at hcat
          obtain ⟨t', ht'⟩ := encodeUnit_prefix hs (by simp) (encodeUnits_dropWhile_head hus') hcat
          exact absurd (by rw [encodeUnits_cons, encodeUnit_tagged]; exact ht') (hno cp t' hs)
        · simp [nextUnit, hnext]
      rw [encodeUnit_tagged, List.singleton_append,
        units_cons (t := encodeUnits us) (by rw [hnext, encodeUnit_tagged]; rfl)
          (by rw [encodeUnit_tagged]; rfl), ih hus' htail]

theorem readable_units (s : List UInt8) : Readable (units s) := by
  induction s using units_induction with
  | nil => trivial
  | cons b0 rest u t hu hcat hunit huts ih =>
    rw [huts]
    refine ⟨hunit.imp_right fun htag => ⟨htag, fun cp t' hs hrun => ?_⟩, ih⟩
    -- a character at the start of the run would be read there, and is not
    have hwhole : b0 :: rest = encodeUnit cp ++
        (t' ++ encodeUnits ((units t).dropWhile fun v => tagBase ≤ v)) := by
      rw [hcat, ← List.append_assoc, ← hrun, encodeUnits_cons, List.append_assoc, ← encodeUnits_append,
        List.takeWhile_append_dropWhile, encodeUnits_units]
    have hread := (nextUnit_encodeUnit hs hwhole).symm.trans hu
    have hcp := hs.lt
    have hlo := htag.1
    have heq := (Prod.mk.inj hread).1
    omega

/-- Scalar values in front do not change what is readable behind them. -/
theorem readable_scalars_append {us vs : List Nat} (hus : ∀ u ∈ us, IsScalar u) :
    Readable (us ++ vs) ↔ Readable vs := by
  induction us with
  | nil => rfl
  | cons u us ih =>
    obtain ⟨hu, hus⟩ := List.forall_mem_cons.1 hus
    simp only [List.cons_append, Readable, hu, true_or, true_and]
    exact ih hus

/-- Units begin with scalar values; then they end, or a tagged byte follows. -/
theorem split_tagged {us : List Nat} (hus : ∀ u ∈ us, IsScalar u ∨ IsTagged u) :
    (∀ u ∈ us, IsScalar u) ∨
    ∃ pre t post, us = pre ++ t :: post ∧ (∀ u ∈ pre, IsScalar u) ∧ IsTagged t := by
  induction us with
  | nil => exact .inl (by simp)
  | cons u us ih =>
    obtain ⟨hu, hus⟩ := List.forall_mem_cons.1 hus
    rcases hu with hs | htag
    · rcases ih hus with hall | ⟨pre, t, post, rfl, hpre, ht⟩
      · exact .inl (List.forall_mem_cons.2 ⟨hs, hall⟩)
      · exact .inr ⟨u :: pre, t, post, rfl, List.forall_mem_cons.2 ⟨hs, hpre⟩, ht⟩
    · exact .inr ⟨[], u, us, rfl, by simp, htag⟩

theorem takeWhile_scalars {us : List Nat} (hus : ∀ u ∈ us, IsScalar u) (hne : us ≠ []) (vs : List Nat) :
    (us ++ vs).takeWhile (fun v => tagBase ≤ v) = [] := by
  obtain ⟨u, us, rfl⟩ := List.exists_cons_of_ne_nil hne
  have hlt := (hus u List.mem_cons_self).lt
  exact List.takeWhile_cons_of_neg (by unfold tagBase; simpa using hlt)

/-- A tagged byte neither decomposes nor composes. -/
theorem inert_tagged {t : Nat} (ht : tagBase ≤ t) : Alphabet.Inert (alphabet T) t where
  weight := bpCcc_tagged ht
  decompose := unitDecomposition_self (.inl ht)
  left _ := if_pos (.inr (.inl ht))
  right _ := if_pos (.inl ht)

theorem parts_ne_nil (T : Tables) (u : Nat) : unitDecomposition T u ≠ [] := by
  rcases unit_cases T u with ⟨hself, -⟩ | ⟨i, hi, rfl⟩ | ⟨-, -, hne, heq⟩
  · simp [hself]
  · simp [unitDecomposition_syllable hi]
  · rwa [heq]

theorem normalize_ne_nil (T : Tables) {us : List Nat} (hne : us ≠ []) : (alphabet T).normalize us ≠ [] := by
  intro h
  obtain ⟨u, us, rfl⟩ := List.exists_cons_of_ne_nil hne
  have hnil : (alphabet T).decomposed (u :: us) = [] := composeAll_eq_nil_iff.1 h
  have hlen := congrArg List.length hnil
  simp only [Alphabet.decomposed, length_reorder, List.flatMap_cons, List.length_append,
    List.length_nil, Nat.add_eq_zero_iff, List.length_eq_zero_iff] at hlen
  exact parts_ne_nil T u hlen.1

/-- The number of bytes a unit is written in. -/
def unitLength (u : Nat) : Nat := (encodeUnit u).length

theorem unitBytes_eq_sum (us : List Nat) : unitBytes us = (us.map unitLength).sum := by
  induction us with
  | nil => rfl
  | cons u us ih => rw [unitBytes_cons, ih, List.map_cons, List.sum_cons, unitLength]

namespace Tables.Coherent

variable (hT : T.Coherent)
include hT

theorem normalize_scalar {us : List Nat} (hus : ∀ u ∈ us, IsScalar u) :
    ∀ u ∈ (alphabet T).normalize us, IsScalar u := by
  refine composeAll_forall (fun a b d hd => (hT.composeUnits_eq_some hd).1) fun u hu => ?_
  obtain ⟨v, hv, hd⟩ := List.mem_flatMap.1 (mem_reorder.1 hu)
  exact hT.parts_scalar (hus v hv) hd

/-- **Malformed bytes stay malformed.** Normalizing keeps every run of tagged bytes as it is. -/
theorem readable_normalize {us : List Nat} (hus : ∀ u ∈ us, IsScalar u ∨ IsTagged u)
    (h : Readable us) :
    Readable ((alphabet T).normalize us) ∧
      ((alphabet T).normalize us).takeWhile (fun v => tagBase ≤ v) =
        us.takeWhile fun v => tagBase ≤ v := by
  induction hn : us.length using Nat.strongRecOn generalizing us with
  | ind n ih =>
    rcases split_tagged hus with hall | ⟨pre, t, post, rfl, hpre, ht⟩
    · have hnorm := hT.normalize_scalar hall
      refine ⟨?_, ?_⟩
      · rw [← List.append_nil ((alphabet T).normalize us)]
        exact (readable_scalars_append hnorm).2 trivial
      · rcases eq_or_ne us [] with rfl | hne
        · rfl
        · have h₁ := takeWhile_scalars hall hne []
          have h₂ := takeWhile_scalars hnorm (normalize_ne_nil T hne) []
          rw [List.append_nil] at h₁ h₂
          rw [h₁, h₂]
    · have htag : tagBase ≤ t := by
        have := ht.1
        unfold tagBase
        omega
      have hinert : Alphabet.Inert (alphabet T) t := inert_tagged htag
      have hnorm := hT.normalize_scalar hpre
      obtain ⟨⟨hhead, hpost⟩, huspost⟩ :=
        And.intro ((readable_scalars_append hpre).1 h) (List.forall_mem_cons.1 (List.forall_mem_append.1 hus).2).2
      obtain ⟨hread, hrun⟩ := ih post.length (by simp at hn; omega) huspost hpost rfl
      rw [Alphabet.normalize_append_inert hinert]
      refine ⟨(readable_scalars_append hnorm).2 ⟨?_, hread⟩, ?_⟩
      · rwa [hrun]
      · rcases eq_or_ne pre [] with rfl | hne
        · have hnil : (alphabet T).normalize [] = [] := rfl
          rw [hnil, List.nil_append, List.nil_append, List.takeWhile_cons_of_pos (by simpa using htag),
            List.takeWhile_cons_of_pos (by simpa using htag), hrun]
        · rw [takeWhile_scalars hpre hne, takeWhile_scalars hnorm (normalize_ne_nil T hne)]

/-- **The output is read as what was written**: the normalized units. -/
theorem units_nfcText (s : List UInt8) :
    units (nfcText T true s) = (alphabet T).normalize (units s) := by
  have hvalid : ∀ u ∈ (alphabet T).normalize (units s), IsScalar u ∨ IsTagged u := by
    have hpart : ∀ u ∈ (units s).flatMap (unitDecomposition T), IsScalar u ∨ IsTagged u := by
      intro d hd
      obtain ⟨u, hu, hd⟩ := List.mem_flatMap.1 hd
      rcases units_valid s u hu with hs | htag
      · exact .inl (hT.parts_scalar hs hd)
      · have hlo : tagBase ≤ u := by
          have := htag.1
          unfold tagBase
          omega
        rw [unitDecomposition_self (.inl hlo), List.mem_singleton] at hd
        exact .inr (hd ▸ htag)
    exact composeAll_forall (fun a b d hd => .inl (hT.composeUnits_eq_some hd).1)
      fun u hu => hpart u (mem_reorder.1 hu)
  rw [hT.nfcText_eq, Readable.units_encodeUnits hvalid
    (hT.readable_normalize (units_valid s) (readable_units s)).1]

/-- **Normal forms of texts.** -/
theorem nfcText_eq_iff (x y : List UInt8) :
    nfcText T true x = nfcText T true y ↔
      (alphabet T).decomposed (units x) = (alphabet T).decomposed (units y) := by
  rw [← hT.lawful.normalize_eq_iff, ← hT.units_nfcText, ← hT.units_nfcText]
  refine ⟨congrArg units, fun h => ?_⟩
  rw [← encodeUnits_units (nfcText T true x), h, encodeUnits_units]

theorem decomposed_nfcText (x : List UInt8) :
    (alphabet T).decomposed (units (nfcText T true x)) = (alphabet T).decomposed (units x) := by
  rw [hT.units_nfcText, hT.lawful.decomposed_normalize]

theorem nfcText_nfcText (x : List UInt8) : nfcText T true (nfcText T true x) = nfcText T true x :=
  (hT.nfcText_eq_iff _ x).2 (hT.decomposed_nfcText x)

/-- No unit of the output has quick-check value No. -/
theorem nfcText_qc (x : List UInt8) : ∀ u ∈ units (nfcText T true x), T.bpNfcQc u ≠ 0 := by
  rw [hT.units_nfcText]
  refine hT.lawful.normalize_forall (fun a ha => ?_) (fun a b c hc => ?_) (units x)
  · rcases unit_cases T a with ⟨-, htag | hd⟩ | ⟨i, hi, rfl⟩ | ⟨-, -, hne, heq⟩
    · have := hT.tagged a htag
      omega
    · exact fun hqc => hT.excluded a hqc hd
    · have := (hT.syllable i hi).2
      omega
    · rw [show unitDecomposition T a = [a] from ha] at heq
      have hpart := (hT.decomp a hne).2.1 a (by rw [← heq]; exact List.mem_singleton_self a)
      exact absurd hpart.2.2 hne
  · obtain ⟨-, -, -, hqc, -⟩ := hT.composeUnits_eq_some hc
    exact hqc

/-- The output has at most three times the bytes of the segment. -/
theorem length_nfcText_le (s : List UInt8) : (nfcText T true s).length ≤ 3 * s.length := by
  have hdec : ∀ u, (((alphabet T).decompose u).map unitLength).sum ≤ 3 * unitLength u := by
    intro u
    have h := hT.parts_bytes u
    rw [unitBytes_eq_sum, unitBytes_eq_sum, List.map_singleton, List.sum_singleton] at h
    exact h
  have hcomp : ∀ a b c, (alphabet T).compose a b = some c → unitLength c ≤ unitLength a + unitLength b := by
    intro a b c hc
    obtain ⟨-, -, -, -, -, hle, -⟩ := hT.composeUnits_eq_some hc
    rw [unitBytes_eq_sum, unitBytes_eq_sum] at hle
    simpa using hle
  have h := Alphabet.size_normalize_le hdec hcomp (units s)
  rw [← unitBytes_eq_sum, ← unitBytes_eq_sum] at h
  rw [hT.nfcText_eq]
  simpa only [unitBytes, encodeUnits_units] using h

end Tables.Coherent

end Readable

end Bytepair
