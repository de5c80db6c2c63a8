import Bytepair.Convert.Sample

/-!
# Cut images

A file cut short. The header names the end of each section, so a cut that leaves the header region is seen by
`section_ok` or leaves every section whole. A cut inside the header region is seen by the size test, which has another error code:
`bpVocabOpen_cut_iff`.
-/

namespace Bytepair
open Support

section Read

variable {map cut : List UInt8}

theorem drop_take_cut (h : cut <+: map) {off n : Nat} (hin : off + n ≤ cut.length) :
    (cut.drop off).take n = (map.drop off).take n := by
  obtain ⟨rest, rfl⟩ := h
  rw [List.drop_append_of_le_length (by omega), List.take_append_of_le_length (by rw [List.length_drop]; omega)]

/-- The header is in the header region. -/
theorem BpvHeader.read_prefix (h : cut <+: map) (hsize : BPV_FIRST_SECTION ≤ cut.length) :
    BpvHeader.read cut = BpvHeader.read map := by
  unfold BPV_FIRST_SECTION at hsize
  have hword : ∀ k off, off + k ≤ 192 → wordAt k cut off = wordAt k map off := by
    intro k off hin
    unfold wordAt
    rw [drop_take_cut h (by omega)]
  simp [BpvHeader.read, hword]

/-- The file holds the section. -/
def BpvSection.Fits (s : BpvSection) (map : List UInt8) : Prop := s.off + s.size ≤ map.length

theorem BpvSection.Fits.bytes {s : BpvSection} (hs : s.Fits cut) (h : cut <+: map) : s.bytes cut = s.bytes map :=
  drop_take_cut h hs

theorem sectionOk_fits {s : BpvSection} {n elem : Nat} (hs : sectionOk s n elem = true) : s.off + s.size ≤ n := by
  unfold sectionOk at hs
  split at hs
  · cases hs
  split at hs
  · cases hs
  · next hin =>
    simp only [Bool.or_eq_true, decide_eq_true_eq, not_or] at hin
    omega

/-- Where a section fits, a shorter file is as good. -/
theorem sectionOk_shorter {s : BpvSection} {n m elem : Nat} (hs : sectionOk s n elem = true)
    (hfits : s.off + s.size ≤ m) : sectionOk s m elem = true := by
  unfold sectionOk at hs ⊢
  split at hs
  · cases hs
  · next hoff =>
    rw [if_neg hoff, if_neg (by simp only [Bool.or_eq_true, decide_eq_true_eq, not_or]; omega)]
    split at hs
    · cases hs
    · exact hs

theorem sectionsOk_fits {h : BpvHeader} {n : Nat} (hs : sectionsOk h n = true) :
    ∀ s ∈ h.sections, s.off + s.size ≤ n := by
  simp only [sectionsOk, Bool.and_eq_true, decide_eq_true_eq] at hs
  obtain ⟨⟨⟨⟨⟨⟨⟨⟨⟨hoffsets, -⟩, hblob⟩, hpairs⟩, -⟩, hbytes⟩, -⟩, hadded⟩, -⟩, hmeta⟩ := hs
  simp only [BpvHeader.sections, List.forall_mem_cons]
  exact ⟨sectionOk_fits hoffsets, sectionOk_fits hblob, sectionOk_fits hpairs, sectionOk_fits hbytes,
    sectionOk_fits hadded, sectionOk_fits hmeta, fun s hs => absurd hs List.not_mem_nil⟩

theorem sectionsOk_shorter {h : BpvHeader} {n m : Nat} (hs : sectionsOk h n = true)
    (hfits : ∀ s ∈ h.sections, s.off + s.size ≤ m) : sectionsOk h m = true := by
  simp only [BpvHeader.sections, List.forall_mem_cons] at hfits
  obtain ⟨foffsets, fblob, fpairs, fbytes, fadded, fmeta, -⟩ := hfits
  simp only [sectionsOk, Bool.and_eq_true, decide_eq_true_eq] at hs ⊢
  obtain ⟨⟨⟨⟨⟨⟨⟨⟨⟨hoffsets, h1⟩, hblob⟩, hpairs⟩, h2⟩, hbytes⟩, h3⟩, hadded⟩, h4⟩, hmeta⟩ := hs
  exact ⟨⟨⟨⟨⟨⟨⟨⟨⟨sectionOk_shorter hoffsets foffsets, h1⟩, sectionOk_shorter hblob fblob⟩,
    sectionOk_shorter hpairs fpairs⟩, h2⟩, sectionOk_shorter hbytes fbytes⟩, h3⟩, sectionOk_shorter hadded fadded⟩, h4⟩,
    sectionOk_shorter hmeta fmeta⟩

/-- A file that is accepted is accepted without the bytes behind its sections. -/
theorem Accepts.shorter {h : BpvHeader} (ok : Accepts h map) (hcut : cut <+: map)
    (hsize : BPV_FIRST_SECTION ≤ cut.length) (hfits : ∀ s ∈ h.sections, s.Fits cut) : Accepts h cut := by
  have hsections := sectionsOk_shorter ok.sections hfits
  simp only [BpvHeader.sections, List.forall_mem_cons] at hfits
  obtain ⟨foffsets, fblob, fpairs, fbytes, fadded, fmeta, -⟩ := hfits
  have hoffsets := foffsets.bytes hcut
  have hblob := fblob.bytes hcut
  have hpairs := fpairs.bytes hcut
  have hbytes := fbytes.bytes hcut
  have hadded := fadded.bytes hcut
  have hmeta := fmeta.bytes hcut
  constructor
  · exact hsize
  · exact ok.header
  · exact hsections
  · exact ok.apart
  · rw [BpvHeader.readOffsets, hoffsets]
    exact ok.offsets
  · rw [BpvHeader.readPairs, hpairs]
    exact ok.pairs
  · rw [BpvHeader.readByteIds, BpvHeader.readOffsets, hbytes, hoffsets, hblob]
    exact ok.bytes
  · rw [BpvHeader.readAdded, BpvHeader.readOffsets, hadded, hoffsets]
    exact ok.added
  · exact ok.info
  · rw [hmeta]
    exact ok.name

end Read

section Cut

variable {host host' : Host} {map cut : List UInt8} {v v' : BpVocab}

/-- Two handles that answer alike. -/
structure BpVocab.SameAs (v v' : BpVocab) : Prop where
  count : v'.hdr.vocabCount = v.hdr.vocabCount
  span : ∀ id, v'.span id = v.span id
  lookup : ∀ a b, bpPairLookup v' a b = bpPairLookup v a b
  byteId : v'.byteId = v.byteId
  added : v'.added = v.added

/-- The file ends inside the header region or inside a section. -/
def Truncated (h : BpvHeader) (cut : List UInt8) : Prop :=
  cut.length < BPV_FIRST_SECTION ∨ ∃ s ∈ h.sections, cut.length < s.off + s.size

/-- What is promised of a cut image: a truncated file is `BP_E_FORMAT`, and one that lost bytes behind its sections
only opens as before. -/
structure CutHandled (host : Host) (v : BpVocab) (cut : List UInt8) : Prop where
  refused : Truncated v.hdr cut → bpVocabOpen host cut = .ok (.error .format)
  opened : ¬Truncated v.hdr cut → ∃ v', bpVocabOpen host cut = .ok (.ok v') ∧ v.SameAs v'

/-- The handles of two files with one header and the same sections. -/
theorem BpVocab.Of.same (hv : v.Of map) (hv' : v'.Of cut) (valid : v.Valid) (valid' : v'.Valid)
    (hread : BpvHeader.read cut = BpvHeader.read map) (hbytes : ∀ s ∈ v.hdr.sections, s.bytes cut = s.bytes map) :
    v.SameAs v' := by
  have hhdr : v'.hdr = v.hdr := by rw [hv.hdr, hv'.hdr, hread]
  simp only [BpvHeader.sections, List.forall_mem_cons] at hbytes
  obtain ⟨boffsets, bblob, bpairs, bbytes, badded, -⟩ := hbytes
  have htok : v'.tokOff = v.tokOff := by rw [hv.tokOff, hv'.tokOff, hhdr, boffsets]
  have hblob : v'.blob = v.blob := by rw [hv.blob, hv'.blob, hhdr, bblob]
  have hpairs : v'.pairs = v.pairs := by rw [hv.pairs, hv'.pairs, hhdr, bpairs]
  have hmask : v'.pairMask = v.pairMask := by rw [valid.mask, valid'.mask, hhdr]
  constructor
  · rw [hhdr]
  · intro id
    rw [BpVocab.span, BpVocab.span, htok, hblob]
  · intro a b
    have hround : lookupRound v' (a <<< 32 ||| b) = lookupRound v (a <<< 32 ||| b) := by
      funext slot
      rw [lookupRound, lookupRound, hpairs, hmask]
    rw [bpPairLookup, bpPairLookup, hround, hmask]
  · rw [hv.byteId, hv'.byteId, hhdr, bbytes]
  · rw [hv.added, hv'.added, hhdr, badded]

/-- A file of less than the header region. -/
theorem bpVocabOpen_short (h : cut.length < BPV_FIRST_SECTION) : bpVocabOpen host cut = .ok (.error .io) := by
  rw [bpVocabOpen, if_pos h]
  rfl

/-- A file cut inside a section. -/
theorem bpVocabOpen_cut (h : bpVocabOpen host map = .ok (.ok v)) (hcut : cut <+: map)
    (hsize : BPV_FIRST_SECTION ≤ cut.length) {s : BpvSection} (hs : s ∈ v.hdr.sections)
    (hend : cut.length < s.off + s.size) : bpVocabOpen host' cut = .ok (.error .format) := by
  obtain ⟨r, hr, hsound⟩ := bpVocabOpen_spec host map
  obtain rfl : r = .ok v := Except.ok.inj (hr.symm.trans h)
  obtain ⟨-, hof, -⟩ := hsound v rfl
  have hread : BpvHeader.read cut = v.hdr := by rw [BpvHeader.read_prefix hcut hsize, hof.hdr]
  have hsections : sectionsOk v.hdr cut.length = false := by
    rw [Bool.eq_false_iff]
    intro hok
    have := sectionsOk_fits hok s hs
    omega
  rw [bpVocabOpen, if_neg (by omega)]
  dsimp only
  rw [hread, hof.headerOk, hsections]
  rfl

/-- A file that lost bytes behind its sections. -/
theorem bpVocabOpen_whole (h : bpVocabOpen host map = .ok (.ok v)) (hcut : cut <+: map) (hcalloc : host'.calloc = true)
    (hmalloc : host'.malloc = true) (hwhole : ¬Truncated v.hdr cut) :
    ∃ v', bpVocabOpen host' cut = .ok (.ok v') ∧ v.SameAs v' := by
  simp only [Truncated, not_or, not_exists, not_and, Nat.not_lt] at hwhole
  obtain ⟨hsize, hfits⟩ := hwhole
  obtain ⟨r, hr, hsound, hiff⟩ := bpVocabOpen_loads host map
  obtain rfl : r = .ok v := Except.ok.inj (hr.symm.trans h)
  obtain ⟨hv, hof, -⟩ := hsound v rfl
  have hread := BpvHeader.read_prefix hcut hsize
  have haccepts : Accepts (BpvHeader.read cut) cut := by
    rw [hread]
    refine (hiff.1 ⟨v, rfl⟩).1.shorter hcut hsize ?_
    rw [← hof.hdr]
    exact hfits
  obtain ⟨r', hr', hsound', hiff'⟩ := bpVocabOpen_loads host' cut
  obtain ⟨v', rfl⟩ := hiff'.2 ⟨haccepts, hcalloc, hmalloc⟩
  obtain ⟨hv', hof', -⟩ := hsound' v' rfl
  refine ⟨v', hr', hof.same hof' hv hv' hread fun s hs => ?_⟩
  exact BpvSection.Fits.bytes (hfits s hs) hcut

/-- **A cut image** is handled as promised exactly if the cut leaves the header region: the size test before the
header is read is still under `BP_E_IO`. -/
theorem bpVocabOpen_cut_iff (h : bpVocabOpen host map = .ok (.ok v)) (hcut : cut <+: map)
    (hcalloc : host'.calloc = true) (hmalloc : host'.malloc = true) :
    CutHandled host' v cut ↔ BPV_FIRST_SECTION ≤ cut.length := by
  constructor
  · intro hc
    by_contra hshort
    rw [Nat.not_le] at hshort
    have hformat := hc.refused (.inl hshort)
    rw [bpVocabOpen_short hshort] at hformat
    cases hformat
  · intro hsize
    constructor
    · rintro (hshort | ⟨s, hs, hend⟩)
      · omega
      · exact bpVocabOpen_cut h hcut hsize hs hend
    · exact bpVocabOpen_whole h hcut hcalloc hmalloc

/-- All of the image but its last byte. -/
theorem bpVocabOpen_cut_toy : CutHandled ⟨true, true, true⟩ Convert.toy.vocab Convert.toy.image.dropLast :=
  (bpVocabOpen_cut_iff Convert.toy_opens (List.dropLast_prefix _) rfl rfl).2 (by decide +kernel)

/-- The first byte of the image: `BP_E_IO`. -/
theorem not_cutHandled : bpVocabOpen ⟨true, true, true⟩ (Convert.toy.image.take 1) = .ok (.error .io) ∧
    ¬∀ (host : Host) (map : List UInt8) (v : BpVocab), bpVocabOpen host map = .ok (.ok v) →
      ∀ cut : List UInt8, cut <+: map → cut ≠ [] → CutHandled host v cut := by
  have hshort : bpVocabOpen ⟨true, true, true⟩ (Convert.toy.image.take 1) = .ok (.error .io) :=
    bpVocabOpen_short (by decide +kernel)
  refine ⟨hshort, fun hall => ?_⟩
  have hc := hall _ _ _ Convert.toy_opens (Convert.toy.image.take 1) (List.take_prefix _ _) (by decide +kernel)
  have hformat := hc.refused (.inl (by decide +kernel))
  rw [hshort] at hformat
  cases hformat

end Cut

end Bytepair
