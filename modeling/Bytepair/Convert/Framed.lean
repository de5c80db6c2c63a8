import Bytepair.Convert.Accepted

/-!
# What the tools ask of an image

`verify_image` and the inspector both read an image from its bytes alone, and ask the same of its frame and its
tables of tokens: `Framed` and `Tabled`. A converted image has both, and an image that has both
passes the loader's checks of them.
-/

namespace Bytepair.Convert
open Support

section Words

theorem length_words (k n : Nat) (bs : List UInt8) : (words k n bs).length = n := by
  induction n generalizing bs with
  | zero => rfl
  | succ n ih => rw [words, List.length_cons, ih]

end Words

section Frame

/-- Sections behind one another, from an offset on. -/
def InOrder (size start : Nat) (table : List (Nat × Nat)) : Prop :=
  (∀ s ∈ table, start ≤ s.1 ∧ s.1 % SECTION_ALIGN = 0 ∧ s.1 + s.2 ≤ size) ∧ table.Pairwise fun s t => s.1 + s.2 ≤ t.1

theorem inOrder_nil (size start : Nat) : InOrder size start [] := ⟨List.forall_mem_nil _, .nil⟩

theorem inOrder_cons {size start : Nat} {s : Nat × Nat} {table : List (Nat × Nat)} : InOrder size start (s :: table) ↔
    s.1 % SECTION_ALIGN = 0 ∧ start ≤ s.1 ∧ s.1 + s.2 ≤ size ∧ InOrder size (s.1 + s.2) table := by
  unfold InOrder
  rw [List.forall_mem_cons, List.pairwise_cons]
  constructor
  · rintro ⟨⟨⟨hstart, halign, hend⟩, hrest⟩, hfirst, hsorted⟩
    refine ⟨halign, hstart, hend, ?_, hsorted⟩
    exact fun t ht => ⟨hfirst t ht, (hrest t ht).2⟩
  · rintro ⟨halign, hstart, hend, hrest, hsorted⟩
    refine ⟨⟨⟨hstart, halign, hend⟩, fun t ht => ?_⟩, fun t ht => (hrest t ht).1, hsorted⟩
    have hbehind := (hrest t ht).1
    exact ⟨by omega, (hrest t ht).2⟩

/-- The frame of an image: its header, and where its sections are. -/
structure Framed (image : List UInt8) : Prop where
  size : HEADER_SIZE ≤ image.length
  magic : (BpvHeader.read image).magic = MAGIC
  version : (BpvHeader.read image).formatVersion = FORMAT_VERSION
  flags : (BpvHeader.read image).flags < 2
  reserved : wordAt 4 image 28 = 0
  count : 0 < (BpvHeader.read image).vocabCount
  log2 : (BpvHeader.read image).pairSlotsLog2 ≤ 40
  padding : (image.drop 136).take 56 = List.replicate 56 0
  sections : InOrder image.length HEADER_SIZE ((BpvHeader.read image).sections.map fun s => (s.off, s.size))
  first : (BpvHeader.read image).tokenOffsets.off = HEADER_SIZE
  offsets : (BpvHeader.read image).tokenOffsets.size = 4 * ((BpvHeader.read image).vocabCount + 1)
  pairs : (BpvHeader.read image).pairTable.size = 16 * (BpvHeader.read image).slots
  byteIds : (BpvHeader.read image).byteToId.size = 1024
  added : (BpvHeader.read image).added.size = 16 * (BpvHeader.read image).addedCount

variable {image : List UInt8}

/-- The section is in the file, and aligned. -/
theorem Framed.sectionOk (h : Framed image) {s : BpvSection} (hs : s ∈ (BpvHeader.read image).sections) {elem : Nat}
    (helem : elem = 0 ∨ s.size % elem = 0) : sectionOk s image.length elem = true := by
  obtain ⟨hstart, halign, hend⟩ := h.sections.1 _ (List.mem_map_of_mem hs)
  unfold HEADER_SIZE at hstart
  unfold SECTION_ALIGN at halign
  dsimp only at hstart halign hend
  have haligned : s.off &&& 63 = 0 := by
    rwa [show (63 : Nat) = 2 ^ 6 - 1 from rfl, Nat.and_two_pow_sub_one_eq_mod]
  have helem' : ¬(elem ≠ 0 ∧ s.size % elem ≠ 0) := by
    rintro ⟨hne, hmod⟩
    exact hmod (helem.resolve_left hne)
  unfold Bytepair.sectionOk BPV_FIRST_SECTION
  rw [if_neg (by simp only [haligned, Bool.or_eq_true, decide_eq_true_eq]; omega),
    if_neg (by simp only [Bool.or_eq_true, decide_eq_true_eq]; omega), if_neg (by simpa using helem')]

/-- A section has as many bytes as the header says. -/
theorem Framed.length_bytes (h : Framed image) {s : BpvSection} (hs : s ∈ (BpvHeader.read image).sections) :
    (s.bytes image).length = s.size :=
  sectionOk_length (h.sectionOk hs (.inl rfl))

/-- The loader's checks of the sections pass. -/
theorem Framed.sectionsOk (h : Framed image) : sectionsOk (BpvHeader.read image) image.length = true ∧
    noOverlap (BpvHeader.read image).sections = true := by
  have hoffsets := h.offsets
  have hpairs := h.pairs
  have hbyteIds := h.byteIds
  have hadded := h.added
  have hok₀ := @Framed.sectionOk _ h (BpvHeader.read image).tokenOffsets (by simp [BpvHeader.sections]) 4 (.inr (by omega))
  have hok₁ := @Framed.sectionOk _ h (BpvHeader.read image).tokenBlob (by simp [BpvHeader.sections]) 0 (.inl rfl)
  have hok₂ := @Framed.sectionOk _ h (BpvHeader.read image).pairTable (by simp [BpvHeader.sections]) 16 (.inr (by omega))
  have hok₃ := @Framed.sectionOk _ h (BpvHeader.read image).byteToId (by simp [BpvHeader.sections]) 4 (.inr (by omega))
  have hok₄ := @Framed.sectionOk _ h (BpvHeader.read image).added (by simp [BpvHeader.sections]) 16 (.inr (by omega))
  have hok₅ := @Framed.sectionOk _ h (BpvHeader.read image).metaInfo (by simp [BpvHeader.sections]) 0 (.inl rfl)
  constructor
  · unfold Bytepair.sectionsOk
    simp only [hok₀, hok₁, hok₂, hok₃, hok₄, hok₅, hoffsets, hpairs, hbyteIds, hadded, decide_true, Bool.and_true]
  · apply noOverlap_of_sorted
    exact List.pairwise_map.1 h.sections.2

end Frame

section Tables

/-- The contents an image reads as. -/
def Contents.read (image : List UInt8) : Contents :=
  let h := BpvHeader.read image
  { flags := h.flags
    slotsLog2 := h.pairSlotsLog2
    offsets := h.readOffsets image
    blob := h.tokenBlob.bytes image
    pairs := h.readPairs image
    byteIds := h.readByteIds image
    records := h.readAdded image
    info := h.metaInfo.bytes image }

theorem Contents.read_vocabCount (image : List UInt8) : (read image).vocabCount = (BpvHeader.read image).vocabCount := by
  show (words 4 _ _).length - 1 = _
  rw [length_words]
  rfl

theorem Contents.read_records (image : List UInt8) : (read image).records.length = (BpvHeader.read image).addedCount :=
  addedRecords_length (length_words 4 _ _)

/-- An image of some contents reads as them. -/
theorem Contents.read_eq {c : Contents} {image : List UInt8} (h : c.IsImage image) (hs : c.Sized) : read image = c := by
  have hr := h.reads hs
  unfold read
  dsimp only
  rw [h.flags, h.pairSlotsLog2, hr.offsets, hr.blob, hr.pairs, hr.byteIds, hr.records, hr.info]

/-- The tables of tokens: the offsets cut the blob up, and every byte is a token. -/
structure Tabled (c : Contents) : Prop where
  zero : offsetOf c.offsets 0 = 0
  mono : ∀ i < c.vocabCount, offsetOf c.offsets i ≤ offsetOf c.offsets (i + 1)
  last : offsetOf c.offsets c.vocabCount = c.blob.length
  byte : ∀ i < 256, c.byteIds[i]?.getD 0 < c.vocabCount ∧
    spanOf c.offsets c.blob (c.byteIds[i]?.getD 0) = [UInt8.ofNat i]

/-- Two bytes are two tokens. -/
theorem Tabled.distinct {c : Contents} (h : Tabled c) (hlen : c.byteIds.length = 256) : c.byteIds.Nodup := by
  rw [List.nodup_iff_injective_getElem]
  intro i j hij
  have hi : i.val < 256 := Nat.lt_of_lt_of_eq i.isLt hlen
  have hj : j.val < 256 := Nat.lt_of_lt_of_eq j.isLt hlen
  have hspan : ∀ k : Fin c.byteIds.length, spanOf c.offsets c.blob c.byteIds[k] = [UInt8.ofNat k] := by
    intro k
    have hbyte := (h.byte k (Nat.lt_of_lt_of_eq k.isLt hlen)).2
    rwa [List.getElem?_eq_getElem k.isLt] at hbyte
  have hbytes := hspan i
  rw [show c.byteIds[i] = c.byteIds[j] from hij, hspan j] at hbytes
  have hnat := congrArg UInt8.toNat (List.cons.inj hbytes).1
  rw [UInt8.toNat_ofNat_of_lt' hi, UInt8.toNat_ofNat_of_lt' hj] at hnat
  exact Fin.ext hnat.symm

end Tables

section Converted

variable {s : Source} {p : Passes} {c : Contents}

theorem Built.tabled (h : Built s p c) : Tabled c := by
  constructor
  · rw [h.offsets, offsetOf_scanl _ 0 (Nat.zero_le _)]
    rfl
  · intro i hi
    rw [h.offset_succ hi]
    exact Nat.le_add_right _ _
  · exact h.offset_last
  · exact fun i hi => h.byteOk hi

end Converted

end Bytepair.Convert
