import Bytepair.Convert.Model
import Bytepair.Vocab.Open

/-!
# Reading an image back

What `assemble` lays out, the loader reads: `assemble_read`. A word is read back as it was
packed, and a section of the table is the payload that was laid out for it.
-/

namespace Bytepair.Convert
open Support

section Outcome

theorem pack_eq_ok {k : Nat} {values : List Nat} {bs : List UInt8} :
    pack k values = .ok bs ↔ (∀ w ∈ values, w < 256 ^ k) ∧ values.flatMap (toLittleEndian k) = bs := by
  unfold pack
  split
  · next h =>
    have hall : ∀ w ∈ values, w < 256 ^ k := fun w hw => of_decide_eq_true (List.all_eq_true.1 h w hw)
    rw [Except.ok.injEq, and_iff_right hall]
  · next h =>
    constructor
    · rintro ⟨⟩
    · rintro ⟨hall, -⟩
      exact absurd (List.all_eq_true.2 fun w hw => decide_eq_true (hall w hw)) h

end Outcome

section Words

theorem length_toLittleEndian (k n : Nat) : (toLittleEndian k n).length = k := by
  induction k generalizing n with
  | zero => rfl
  | succ k ih => rw [toLittleEndian, List.length_cons, ih]

/-- A word is read back. -/
theorem littleEndian_toLittleEndian {k n : Nat} (h : n < 256 ^ k) : littleEndian (toLittleEndian k n) = n := by
  induction k generalizing n with
  | zero =>
    rw [Nat.pow_zero] at h
    rw [toLittleEndian, littleEndian]
    omega
  | succ k ih =>
    rw [Nat.pow_succ] at h
    have hbyte : (UInt8.ofNat n).toNat = n % 256 := UInt8.toNat_ofNat'
    rw [toLittleEndian, littleEndian, hbyte, ih (by omega)]
    omega

theorem length_packed (k : Nat) (values : List Nat) : (values.flatMap (toLittleEndian k)).length = values.length * k := by
  induction values with
  | nil => rw [List.flatMap_nil, List.length_nil, List.length_nil, Nat.zero_mul]
  | cons w values ih =>
    rw [List.flatMap_cons, List.length_append, length_toLittleEndian, ih, List.length_cons, Nat.succ_mul]
    exact Nat.add_comm _ _

theorem take_packed_cons {k w : Nat} {values : List Nat} (rest : List UInt8) :
    ((w :: values).flatMap (toLittleEndian k) ++ rest).take k = toLittleEndian k w ∧
      ((w :: values).flatMap (toLittleEndian k) ++ rest).drop k = values.flatMap (toLittleEndian k) ++ rest := by
  have hlen := length_toLittleEndian k w
  rw [List.flatMap_cons, List.append_assoc]
  constructor
  · exact List.take_left' hlen
  · exact List.drop_left' hlen

/-- Packed words are read back. -/
theorem words_packed {k : Nat} {values : List Nat} (h : ∀ w ∈ values, w < 256 ^ k) :
    words k values.length (values.flatMap (toLittleEndian k)) = values := by
  induction values with
  | nil => rfl
  | cons w values ih =>
    obtain ⟨hw, hvalues⟩ := List.forall_mem_cons.1 h
    obtain ⟨htake, hdrop⟩ := @take_packed_cons k w values []
    rw [List.append_nil] at htake hdrop
    rw [List.append_nil] at hdrop
    rw [List.length_cons, words, htake, hdrop, littleEndian_toLittleEndian hw, ih hvalues]

/-- A packed word is read back where it is. -/
theorem wordAt_packed {k : Nat} {values : List Nat} (h : ∀ w ∈ values, w < 256 ^ k) (pre post : List UInt8) {i : Nat}
    (hi : i < values.length) :
    wordAt k (pre ++ (values.flatMap (toLittleEndian k) ++ post)) (pre.length + i * k) = values[i] := by
  have hdrop : (pre ++ (values.flatMap (toLittleEndian k) ++ post)).drop (pre.length + i * k) =
      (values.drop i).flatMap (toLittleEndian k) ++ post := by
    rw [List.drop_append, List.drop_of_length_le (Nat.le_add_right _ _), List.nil_append, Nat.add_sub_cancel_left]
    clear h
    induction i generalizing values with
    | zero => rw [Nat.zero_mul, List.drop_zero, List.drop_zero]
    | succ i ih =>
      cases values with
      | nil => cases hi
      | cons w values =>
        have hcons := (@take_packed_cons k w values post).2
        rw [Nat.succ_mul, Nat.add_comm, ← List.drop_drop, hcons, List.drop_succ_cons]
        exact ih (Nat.lt_of_succ_lt_succ hi)
  unfold wordAt
  rw [hdrop, List.drop_eq_getElem_cons hi, (take_packed_cons post).1]
  exact littleEndian_toLittleEndian (h _ (List.getElem_mem hi))

end Words

section Sections

theorem alignUp_spec (n : Nat) : n ≤ alignUp n SECTION_ALIGN ∧ 64 ∣ alignUp n SECTION_ALIGN := by
  unfold alignUp SECTION_ALIGN
  constructor
  · omega
  · exact Nat.dvd_mul_left _ _

theorem sectionTable_start {cursor : Nat} {payloads : List (List UInt8)} :
    ∀ s ∈ sectionTable cursor payloads, cursor ≤ s.1 := by
  induction payloads generalizing cursor with
  | nil =>
    intro s hs
    cases hs
  | cons payload payloads ih =>
    intro s hs
    rcases List.mem_cons.1 hs with rfl | hs
    · exact Nat.le_refl _
    · have hnext := (alignUp_spec (cursor + payload.length)).1
      have hmore := ih s hs
      omega

theorem length_sectionTable (cursor : Nat) (payloads : List (List UInt8)) :
    (sectionTable cursor payloads).length = payloads.length := by
  induction payloads generalizing cursor with
  | nil => rfl
  | cons payload payloads ih => rw [sectionTable, List.length_cons, List.length_cons, ih]

/-- A payload where its section is. -/
structure Placed (image : List UInt8) (start : Nat) (payload : List UInt8) (s : Nat × Nat) : Prop where
  bytes : (image.drop s.1).take s.2 = payload
  size : s.2 = payload.length
  start : start ≤ s.1
  aligned : 64 ∣ s.1
  inside : s.1 + s.2 ≤ image.length

/-- What lies before the sections and before the one at hand. -/
theorem layout_cons (pre payload : List UInt8) (payloads : List (List UInt8)) :
    ∃ pad, pre ++ layout pre.length (payload :: payloads) =
        (pre ++ payload ++ pad) ++ layout (pre ++ payload ++ pad).length payloads ∧
      (pre ++ payload ++ pad).length = alignUp (pre.length + payload.length) SECTION_ALIGN := by
  refine ⟨List.replicate (alignUp (pre.length + payload.length) SECTION_ALIGN - (pre.length + payload.length)) 0, ?_⟩
  have hlen : (pre ++ payload ++
      List.replicate (alignUp (pre.length + payload.length) SECTION_ALIGN - (pre.length + payload.length)) 0).length =
        alignUp (pre.length + payload.length) SECTION_ALIGN := by
    have := (alignUp_spec (pre.length + payload.length)).1
    rw [List.length_append, List.length_append, List.length_replicate]
    omega
  constructor
  · rw [hlen, layout]
    simp only [List.append_assoc]
  · exact hlen

/-- **Every payload is where the section table says**, and no section reaches into a later one. -/
theorem layout_placed (pre : List UInt8) (hpre : 64 ∣ pre.length) (payloads : List (List UInt8)) :
    List.Forall₂ (Placed (pre ++ layout pre.length payloads) pre.length) payloads
        (sectionTable pre.length payloads) ∧
      (sectionTable pre.length payloads).Pairwise fun s t => s.1 + s.2 ≤ t.1 := by
  induction payloads generalizing pre with
  | nil => exact ⟨.nil, .nil⟩
  | cons payload payloads ih =>
    obtain ⟨pad, himage, hlen⟩ := layout_cons pre payload payloads
    have hnext := alignUp_spec (pre.length + payload.length)
    obtain ⟨hplaced, hsorted⟩ := ih (pre ++ payload ++ pad) (by rw [hlen]; exact hnext.2)
    rw [himage, sectionTable]
    rw [hlen] at hplaced hsorted ⊢
    constructor
    · constructor
      · constructor
        · rw [List.append_assoc, List.append_assoc, List.drop_left, List.take_left]
        · rfl
        · exact Nat.le_refl _
        · exact hpre
        · simp only [List.length_append]
          omega
      · exact hplaced.imp fun p s h => ⟨h.bytes, h.size, by have := h.start; omega, h.aligned, h.inside⟩
    · constructor
      · intro s hs
        exact Nat.le_trans hnext.1 (sectionTable_start s hs)
      · exact hsorted

end Sections

section Assemble

/-- An image that reads as it was assembled. -/
structure Assembled (flags vocabCount addedCount slotsLog2 : Nat) (payloads : List (List UInt8))
    (image : List UInt8) : Prop where
  magic : (BpvHeader.read image).magic = BPV_MAGIC
  formatVersion : (BpvHeader.read image).formatVersion = 1
  flags : (BpvHeader.read image).flags = flags
  profileId : (BpvHeader.read image).profileId = BPV_PROFILE_GPT4
  vocabCount : (BpvHeader.read image).vocabCount = vocabCount
  addedCount : (BpvHeader.read image).addedCount = addedCount
  pairSlotsLog2 : (BpvHeader.read image).pairSlotsLog2 = slotsLog2
  sections : (BpvHeader.read image).sections.map (fun s => (s.off, s.size)) = sectionTable HEADER_SIZE payloads
  placed : List.Forall₂ (Placed image HEADER_SIZE) payloads (sectionTable HEADER_SIZE payloads)
  sorted : (sectionTable HEADER_SIZE payloads).Pairwise fun s t => s.1 + s.2 ≤ t.1
  length : HEADER_SIZE ≤ image.length

section Header

variable {ws tw : List Nat} {post rest image : List UInt8}

/-- The words of a header. -/
theorem header_words (hws : ∀ w ∈ ws, w < 256 ^ 4) (htw : ∀ w ∈ tw, w < 256 ^ 8) (hlen : ws.length = 8)
    (himage : ws.flatMap (toLittleEndian 4) ++ (tw.flatMap (toLittleEndian 8) ++ rest) = image) :
    (∀ i (hi : i < ws.length), wordAt 4 image (i * 4) = ws[i]) ∧
      ∀ i (hi : i < tw.length), wordAt 8 image (32 + i * 8) = tw[i] := by
  subst himage
  constructor
  · intro i hi
    have hword := wordAt_packed hws [] (tw.flatMap (toLittleEndian 8) ++ rest) hi
    rwa [List.length_nil, Nat.zero_add] at hword
  · intro i hi
    have hword := wordAt_packed htw (ws.flatMap (toLittleEndian 4)) rest hi
    rwa [length_packed, hlen] at hword

/-- The sections of a header. -/
theorem header_sections {secs : List (Nat × Nat)} (hsecs : secs.length = 6)
    (hword : ∀ i (hi : i < (secs.flatMap fun s => [s.1, s.2]).length),
      wordAt 8 image (32 + i * 8) = (secs.flatMap fun s => [s.1, s.2])[i]) :
    (BpvHeader.read image).sections.map (fun s => (s.off, s.size)) = secs := by
  match secs, hsecs with
  | [s₀, s₁, s₂, s₃, s₄, s₅], _ =>
    have hsec : ∀ (off size : Nat) (s : Nat × Nat), wordAt 8 image off = s.1 → wordAt 8 image size = s.2 →
        (wordAt 8 image off, wordAt 8 image size) = s := by
      intro off size s hoff hsize
      rw [hoff, hsize]
    show [(wordAt 8 image 32, wordAt 8 image 40), (wordAt 8 image 48, wordAt 8 image 56),
      (wordAt 8 image 64, wordAt 8 image 72), (wordAt 8 image 80, wordAt 8 image 88),
      (wordAt 8 image 96, wordAt 8 image 104), (wordAt 8 image 112, wordAt 8 image 120)] = [s₀, s₁, s₂, s₃, s₄, s₅]
    rw [hsec _ _ _ (hword 0 (by simp)) (hword 1 (by simp)), hsec _ _ _ (hword 2 (by simp)) (hword 3 (by simp)),
      hsec _ _ _ (hword 4 (by simp)) (hword 5 (by simp)), hsec _ _ _ (hword 6 (by simp)) (hword 7 (by simp)),
      hsec _ _ _ (hword 8 (by simp)) (hword 9 (by simp)), hsec _ _ _ (hword 10 (by simp)) (hword 11 (by simp))]

end Header

/-- **What is assembled is read back.** -/
theorem assemble_read {flags vocabCount addedCount slotsLog2 sourceHash : Nat} {payloads : List (List UInt8)}
    {image : List UInt8} (h : assemble flags vocabCount addedCount slotsLog2 sourceHash payloads = .ok image)
    (hsix : payloads.length = 6) : Assembled flags vocabCount addedCount slotsLog2 payloads image := by
  obtain ⟨fixed, hfixed, h⟩ := bind_eq_ok.1 h
  obtain ⟨table, htable, h⟩ := bind_eq_ok.1 h
  obtain ⟨hash, hhash, h⟩ := bind_eq_ok.1 h
  obtain ⟨hnarrow, rfl⟩ := pack_eq_ok.1 hfixed
  obtain ⟨hwide, rfl⟩ := pack_eq_ok.1 htable
  obtain ⟨-, rfl⟩ := pack_eq_ok.1 hhash
  have hsecs := length_sectionTable HEADER_SIZE payloads
  rw [hsix] at hsecs
  have himage := Except.ok.inj h
  simp only [List.append_assoc] at himage
  obtain ⟨hfield, hword⟩ := header_words hnarrow hwide rfl himage
  have hsections := header_sections hsecs hword
  -- everything before the sections
  have hhead : image = ([MAGIC, FORMAT_VERSION, flags, PROFILE_ID_GPT4_STYLE, vocabCount, addedCount, slotsLog2, 0].flatMap
      (toLittleEndian 4) ++ (((sectionTable HEADER_SIZE payloads).flatMap fun s => [s.1, s.2]).flatMap (toLittleEndian 8) ++
        ([sourceHash].flatMap (toLittleEndian 8) ++ List.replicate 56 (0 : UInt8)))) ++ layout HEADER_SIZE payloads := by
    rw [← himage]
    simp only [List.append_assoc]
  have hlen : ([MAGIC, FORMAT_VERSION, flags, PROFILE_ID_GPT4_STYLE, vocabCount, addedCount, slotsLog2, 0].flatMap
      (toLittleEndian 4) ++ (((sectionTable HEADER_SIZE payloads).flatMap fun s => [s.1, s.2]).flatMap (toLittleEndian 8) ++
        ([sourceHash].flatMap (toLittleEndian 8) ++ List.replicate 56 (0 : UInt8)))).length = HEADER_SIZE := by
    have htw : ((sectionTable HEADER_SIZE payloads).flatMap fun s => [s.1, s.2]).length = 12 := by
      match sectionTable HEADER_SIZE payloads, hsecs with
      | [_, _, _, _, _, _], _ => rfl
    rw [List.length_append, List.length_append, List.length_append, length_packed, length_packed, length_packed, htw,
      List.length_replicate]
    rfl
  have hplaced := layout_placed _ (by rw [hlen]; decide) payloads
  rw [hlen, ← hhead] at hplaced
  refine ⟨hfield 0 (by simp), hfield 1 (by simp), hfield 2 (by simp), hfield 3 (by simp), hfield 4 (by simp),
    hfield 5 (by simp), hfield 6 (by simp), hsections, hplaced.1, hplaced.2, ?_⟩
  rw [hhead, List.length_append, hlen]
  exact Nat.le_add_right _ _

end Assemble

end Bytepair.Convert
