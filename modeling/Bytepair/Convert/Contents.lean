import Bytepair.Convert.Layout

/-!
# The contents of an image

The six sections of an image as the numbers and bytes they hold. `Contents.accepts_iff`:
what the loader asks of the image of some contents, said of the contents.
-/

namespace Bytepair.Convert
open Support

/-- What the sections of an image hold. -/
structure Contents where
  flags : Nat
  slotsLog2 : Nat
  offsets : List Nat
  blob : List UInt8
  pairs : List Nat
  byteIds : List Nat
  records : List BpvAdded
  info : List UInt8

namespace Contents

variable (c : Contents)

def vocabCount : Nat := c.offsets.length - 1

def recordWords : List Nat := c.records.flatMap fun a => [a.id, a.offset, a.len, a.flags]

def payloads : List (List UInt8) :=
  [c.offsets.flatMap (toLittleEndian 4), c.blob, c.pairs.flatMap (toLittleEndian 8),
    c.byteIds.flatMap (toLittleEndian 4), c.recordWords.flatMap (toLittleEndian 4), c.info]

/-- The sections have the sizes the header implies, and the numbers fit their words. -/
structure Sized : Prop where
  offsets : 0 < c.offsets.length
  pairs : c.pairs.length = 2 ^ c.slotsLog2 * 2
  byteIds : c.byteIds.length = 256
  offsetsLt : ∀ w ∈ c.offsets, w < 256 ^ 4
  pairsLt : ∀ w ∈ c.pairs, w < 256 ^ 8
  byteIdsLt : ∀ w ∈ c.byteIds, w < 256 ^ 4
  recordsLt : ∀ w ∈ c.recordWords, w < 256 ^ 4

/-- An image with these contents. -/
abbrev IsImage (image : List UInt8) : Prop :=
  Assembled c.flags c.vocabCount c.records.length c.slotsLog2 c.payloads image

/-- What the loader asks of the contents. -/
structure Ok : Prop where
  count : c.vocabCount ≠ 0
  countLe : c.vocabCount ≤ 2 ^ 21
  addedLe : c.records.length ≤ 64
  log2 : c.slotsLog2 ≤ 32
  mono : ∀ i < c.vocabCount, offsetOf c.offsets i ≤ offsetOf c.offsets (i + 1)
  last : offsetOf c.offsets c.vocabCount ≤ c.blob.length
  slot : ∀ s < 2 ^ c.slotsLog2, SlotOk c.vocabCount c.pairs s
  load : occupiedBelow (keyOf c.pairs) (2 ^ c.slotsLog2) ≤ 2 ^ c.slotsLog2 * 13 / 20
  byte : ∀ i < 256, c.byteIds[i]?.getD 0 < c.vocabCount ∧
    spanOf c.offsets c.blob (c.byteIds[i]?.getD 0) = [UInt8.ofNat i]
  record : ∀ a ∈ c.records, RecordOk c.vocabCount c.offsets a
  sorted : c.records.Pairwise fun a b => a.id < b.id
  info : 4 ≤ c.info.length
  name : wordAt 4 c.info 0 ≤ c.info.length - 4

end Contents

section Lists

/-- The bytes of the pieces before the `i`-th. -/
theorem offsetOf_scanl (pieces : List (List UInt8)) (n : Nat) {i : Nat} (hi : i ≤ pieces.length) :
    offsetOf (pieces.scanl (fun n piece => n + piece.length) n) i = n + (pieces.take i).flatten.length := by
  induction pieces generalizing n i with
  | nil =>
    obtain rfl := Nat.le_zero.1 hi
    rfl
  | cons piece pieces ih =>
    rw [List.scanl_cons]
    cases i with
    | zero => rfl
    | succ i =>
      have hmore := ih (n + piece.length) (Nat.le_of_succ_le_succ hi)
      rw [List.take_succ_cons, List.flatten_cons, List.length_append, ← Nat.add_assoc]
      exact hmore

/-- A piece is found at its offsets. -/
theorem spanOf_flatten (pieces : List (List UInt8)) {i : Nat} (hi : i < pieces.length) :
    spanOf (pieces.scanl (fun n piece => n + piece.length) 0) pieces.flatten i = pieces[i] := by
  have hsplit : pieces.flatten = (pieces.take i).flatten ++ (pieces[i] ++ (pieces.drop (i + 1)).flatten) := by
    rw [← List.flatten_cons, ← List.drop_eq_getElem_cons hi, ← List.flatten_append, List.take_append_drop]
  have hnext : (pieces.take (i + 1)).flatten.length = (pieces.take i).flatten.length + pieces[i].length := by
    rw [List.take_succ_eq_append_getElem hi, List.flatten_append, List.length_append, List.flatten_singleton]
  unfold spanOf
  rw [offsetOf_scanl pieces 0 (Nat.le_of_lt hi), offsetOf_scanl pieces 0 hi, hnext, hsplit]
  simp only [Nat.zero_add, Nat.add_sub_cancel_left]
  rw [List.drop_left, List.take_left]

theorem length_flatMap_pair {α β : Type} (f g : α → β) (es : List α) : (es.flatMap fun e => [f e, g e]).length = es.length * 2 := by
  induction es with
  | nil => rfl
  | cons e es ih =>
    rw [List.flatMap_cons, List.length_append, ih, @List.length_cons _ e es, Nat.succ_mul]
    exact Nat.add_comm _ _

end Lists

section Sections

theorem Placed.sectionOk {image payload : List UInt8} {s : BpvSection}
    (h : Placed image HEADER_SIZE payload (s.off, s.size)) {elem : Nat} (helem : elem = 0 ∨ elem ∣ payload.length) :
    sectionOk s image.length elem = true := by
  have hstart : HEADER_SIZE ≤ s.off := h.start
  have hsize : s.size = payload.length := h.size
  have hinside : s.off + s.size ≤ image.length := h.inside
  have haligned : s.off &&& 63 = 0 := by
    rw [show (63 : Nat) = 2 ^ 6 - 1 from rfl, Nat.and_two_pow_sub_one_eq_mod]
    exact Nat.mod_eq_zero_of_dvd h.aligned
  have helem' : ¬(elem ≠ 0 ∧ s.size % elem ≠ 0) := by
    rintro ⟨hne, hmod⟩
    exact hmod (by rw [hsize]; exact Nat.mod_eq_zero_of_dvd (helem.resolve_left hne))
  unfold HEADER_SIZE at hstart
  unfold Bytepair.sectionOk BPV_FIRST_SECTION
  rw [if_neg (by simp only [haligned, Bool.or_eq_true, decide_eq_true_eq]; omega),
    if_neg (by simp only [Bool.or_eq_true, decide_eq_true_eq]; omega), if_neg (by simpa using helem')]

theorem noOverlap_of_sorted {ss : List BpvSection} (h : ss.Pairwise fun s t => s.off + s.size ≤ t.off) :
    noOverlap ss = true := by
  induction h with
  | nil => rfl
  | cons hs _ ih =>
    rw [noOverlap, ih, Bool.and_true, List.all_eq_true]
    intro t ht
    have := hs t ht
    have hno : ¬t.off < _ := Nat.not_lt.2 this
    simp [overlap, hno]

theorem addedRecords_flatMap (records : List BpvAdded) :
    addedRecords (records.flatMap fun a => [a.id, a.offset, a.len, a.flags]) = records := by
  induction records with
  | nil => rfl
  | cons a records ih =>
    rw [List.flatMap_cons]
    exact congrArg (a :: ·) ih

end Sections

namespace Contents

variable {c : Contents} {image : List UInt8}

/-- The sections of an image hold its contents. -/
structure Reads (c : Contents) (image : List UInt8) : Prop where
  offsets : (BpvHeader.read image).readOffsets image = c.offsets
  blob : (BpvHeader.read image).tokenBlob.bytes image = c.blob
  pairs : (BpvHeader.read image).readPairs image = c.pairs
  byteIds : (BpvHeader.read image).readByteIds image = c.byteIds
  records : (BpvHeader.read image).readAdded image = c.records
  info : (BpvHeader.read image).metaInfo.bytes image = c.info
  blobSize : (BpvHeader.read image).tokenBlob.size = c.blob.length
  infoSize : (BpvHeader.read image).metaInfo.size = c.info.length
  sections : sectionsOk (BpvHeader.read image) image.length = true
  apart : noOverlap (BpvHeader.read image).sections = true

theorem slots_eq (h : c.IsImage image) : (BpvHeader.read image).slots = 2 ^ c.slotsLog2 := by
  unfold BpvHeader.slots
  rw [h.pairSlotsLog2, Nat.one_shiftLeft]

theorem length_recordWords (c : Contents) : c.recordWords.length = c.records.length * 4 := by
  unfold recordWords
  induction c.records with
  | nil => rfl
  | cons a records ih =>
    rw [List.flatMap_cons, List.length_append, ih, List.length_cons]
    exact (Nat.add_comm _ _).trans (Nat.succ_mul _ _).symm

/-- **An image is read back as its contents.** -/
theorem IsImage.reads (h : c.IsImage image) (hs : c.Sized) : c.Reads image := by
  have hplaced := h.placed
  have hsorted := h.sorted
  rw [← h.sections] at hplaced hsorted
  unfold payloads BpvHeader.sections at hplaced
  cases hplaced with | cons h₀ hplaced =>
  cases hplaced with | cons h₁ hplaced =>
  cases hplaced with | cons h₂ hplaced =>
  cases hplaced with | cons h₃ hplaced =>
  cases hplaced with | cons h₄ hplaced =>
  cases hplaced with | cons h₅ hplaced =>
  have hslots := slots_eq h
  have hcount : c.vocabCount + 1 = c.offsets.length := Nat.sub_add_cancel hs.offsets
  have hwords := length_recordWords c
  have hsize₀ : (BpvHeader.read image).tokenOffsets.size = c.offsets.length * 4 := h₀.size.trans (length_packed 4 _)
  have hsize₂ : (BpvHeader.read image).pairTable.size = c.pairs.length * 8 := h₂.size.trans (length_packed 8 _)
  have hsize₃ : (BpvHeader.read image).byteToId.size = c.byteIds.length * 4 := h₃.size.trans (length_packed 4 _)
  have hsize₄ : (BpvHeader.read image).added.size = c.recordWords.length * 4 := h₄.size.trans (length_packed 4 _)
  constructor
  · rw [BpvHeader.readOffsets, h.vocabCount, hcount, show BpvSection.bytes _ _ = _ from h₀.bytes, words_packed hs.offsetsLt]
  · exact h₁.bytes
  · rw [BpvHeader.readPairs, hslots, ← hs.pairs, show BpvSection.bytes _ _ = _ from h₂.bytes, words_packed hs.pairsLt]
  · rw [BpvHeader.readByteIds, ← hs.byteIds, show BpvSection.bytes _ _ = _ from h₃.bytes, words_packed hs.byteIdsLt]
  · rw [BpvHeader.readAdded, h.addedCount, ← hwords, show BpvSection.bytes _ _ = _ from h₄.bytes,
      words_packed hs.recordsLt]
    exact addedRecords_flatMap c.records
  · exact h₅.bytes
  · exact h₁.size
  · exact h₅.size
  · have hok₀ := @Placed.sectionOk _ _ _ h₀ 4 (.inr (by rw [length_packed]; exact Nat.dvd_mul_left _ _))
    have hok₁ := @Placed.sectionOk _ _ _ h₁ 0 (.inl rfl)
    have hok₂ := @Placed.sectionOk _ _ _ h₂ 16 (.inr (by rw [length_packed, hs.pairs]; omega))
    have hok₃ := @Placed.sectionOk _ _ _ h₃ 4 (.inr (by rw [length_packed]; exact Nat.dvd_mul_left _ _))
    have hok₄ := @Placed.sectionOk _ _ _ h₄ 16 (.inr (by rw [length_packed, hwords]; omega))
    have hok₅ := @Placed.sectionOk _ _ _ h₅ 0 (.inl rfl)
    unfold sectionsOk
    simp only [hok₀, hok₁, hok₂, hok₃, hok₄, hok₅, hsize₀, hsize₂, hsize₃, hsize₄, h.vocabCount, h.addedCount, hslots,
      hwords, hs.pairs, hs.byteIds, ← hcount, Bool.true_and, Bool.and_true, Bool.and_eq_true, decide_eq_true_eq, and_true]
    omega
  · apply noOverlap_of_sorted
    exact List.pairwise_map.1 hsorted

/-- **The loader takes an image exactly if its contents are fine.** -/
theorem accepts_iff (h : c.IsImage image) (hs : c.Sized) : Accepts (BpvHeader.read image) image ↔ c.Ok := by
  have hr := h.reads hs
  have hslots := slots_eq h
  have hheader : headerOk (BpvHeader.read image) = true ↔
      c.vocabCount ≠ 0 ∧ c.vocabCount ≤ 2 ^ 21 ∧ c.records.length ≤ 64 ∧ c.slotsLog2 ≤ 32 := by
    unfold headerOk
    rw [h.magic, h.formatVersion, h.profileId, h.vocabCount, h.addedCount, h.pairSlotsLog2]
    simp [and_assoc]
  constructor
  · intro ok
    obtain ⟨hcount, hcountLe, hadded, hlog2⟩ := hheader.1 ok.header
    have hoff := ok.offsets
    have hpairs := ok.pairs
    have hbytes := ok.bytes
    have hrecords := ok.added
    have hinfo := ok.info
    have hname := ok.name
    rw [hr.offsets, h.vocabCount, hr.blobSize] at hoff
    rw [hr.pairs, hslots, h.vocabCount] at hpairs
    rw [hr.byteIds, hr.offsets, hr.blob, h.vocabCount] at hbytes
    rw [hr.records, hr.offsets, h.vocabCount] at hrecords
    rw [hr.infoSize] at hinfo
    rw [hr.infoSize, hr.info] at hname
    exact ⟨hcount, hcountLe, hadded, hlog2, hoff.1, hoff.2, hpairs.1, hpairs.2,
      fun i hi => hbytes i (List.mem_range.2 hi), hrecords.1, hrecords.2, hinfo, hname⟩
  · intro ok
    constructor
    · exact h.length
    · exact hheader.2 ⟨ok.count, ok.countLe, ok.addedLe, ok.log2⟩
    · exact hr.sections
    · exact hr.apart
    · rw [hr.offsets, h.vocabCount, hr.blobSize]
      exact ⟨ok.mono, ok.last⟩
    · rw [hr.pairs, hslots, h.vocabCount]
      exact ⟨ok.slot, ok.load⟩
    · rw [hr.byteIds, hr.offsets, hr.blob, h.vocabCount]
      exact fun i hi => ok.byte i (List.mem_range.1 hi)
    · rw [hr.records, hr.offsets, h.vocabCount]
      exact ⟨ok.record, ok.sorted⟩
    · rw [hr.infoSize]
      exact ok.info
    · rw [hr.infoSize, hr.info]
      exact ok.name

end Contents

end Bytepair.Convert
