import Bytepair.Convert.Contents

/-!
# Small vocabularies

A `Sample` lists the tokens, merges and added tokens of a small vocabulary; its image is assembled as the converter
does it. `Sample.opens`: where the numbers fit, the loader makes the handle `Sample.vocab` of it. `toy` is the
vocabulary most examples are about.
-/

namespace Bytepair.Convert
open Support

/-- A small vocabulary: tokens 0 to 255 are the bytes and `tokens` those behind them; a merge is its left
and right ids, its rank and the merged id, an added token its id and its flags. -/
structure Sample where
  flags : Nat
  tokens : List (List UInt8)
  merges : List (Nat × Nat × Nat × Nat)
  added : List (Nat × Nat)
  info : List UInt8
  sourceHash : Nat

namespace Sample

variable (s : Sample)

def pieces : List (List UInt8) := (List.range 256).map (fun b => [UInt8.ofNat b]) ++ s.tokens

def offsets : List Nat := s.pieces.scanl (fun n piece => n + piece.length) 0

/-- Sixteen slots, filled as the converter fills them. -/
def slots : List (Nat × Nat) :=
  s.merges.foldl (fun slots (left, right, rank, merged) =>
    let key := left <<< 32 ||| right
    match probeSlot (slots.map (·.1)) 15 key 16 (fmix64 key &&& 15) with
    | some i => slots.set i (key, rank <<< 32 ||| merged)
    | none => slots) (List.replicate 16 (EMPTY_KEY, EMPTY_KEY))

def contents : Contents where
  flags := s.flags
  slotsLog2 := 4
  offsets := s.offsets
  blob := s.pieces.flatten
  pairs := s.slots.flatMap fun p => [p.1, p.2]
  byteIds := List.range 256
  records := s.added.map fun (id, flags) => ⟨id, s.offsets[id]?.getD 0, (s.pieces[id]?.getD []).length, flags⟩
  info := s.info

def image : List UInt8 :=
  (assemble s.flags s.contents.vocabCount s.added.length 4 s.sourceHash s.contents.payloads).toOption.getD []

/-- The handle of the image, before its matcher is built. -/
def bare : BpVocab :=
  let section' i : BpvSection :=
    let t := (sectionTable HEADER_SIZE s.contents.payloads)[i]?.getD (0, 0)
    ⟨t.1, t.2⟩
  { hdr :=
      { magic := BPV_MAGIC, formatVersion := 1, flags := s.flags, profileId := BPV_PROFILE_GPT4
        vocabCount := s.contents.vocabCount, addedCount := s.added.length, pairSlotsLog2 := 4
        tokenOffsets := section' 0, tokenBlob := section' 1, pairTable := section' 2, byteToId := section' 3
        added := section' 4, metaInfo := section' 5 }
    tokOff := s.contents.offsets, blob := s.contents.blob, pairs := s.contents.pairs, pairMask := 15
    byteId := s.contents.byteIds, added := s.contents.records
    metaName := (s.info.drop 4).take (littleEndian (s.info.take 4))
    addedOrder := [], addedFirst := 0, addedSingleFirst := false
    addedFirstMap := List.replicate 32 0, useAvx2 := true }

/-- The handle of the image. -/
def vocab : BpVocab := (withMatcher s.bare).toOption.getD s.bare

/-- The loader makes the handle of the image. -/
def Opens : Prop := bpVocabOpen ⟨true, true, true⟩ s.image = .ok (.ok s.vocab)

section Pieces

@[simp] theorem contents_slotsLog2 : s.contents.slotsLog2 = 4 := by rw [contents]
@[simp] theorem contents_offsets : s.contents.offsets = s.offsets := by rw [contents]
@[simp] theorem contents_blob : s.contents.blob = s.pieces.flatten := by rw [contents]
@[simp] theorem contents_pairs : s.contents.pairs = s.slots.flatMap fun p => [p.1, p.2] := by rw [contents]
@[simp] theorem contents_byteIds : s.contents.byteIds = List.range 256 := by rw [contents]
@[simp] theorem contents_info : s.contents.info = s.info := by rw [contents]

/-- The record of an added token. -/
def record (a : Nat × Nat) : BpvAdded := ⟨a.1, s.offsets[a.1]?.getD 0, (s.pieces[a.1]?.getD []).length, a.2⟩

@[simp] theorem contents_records : s.contents.records = s.added.map s.record := by
  rw [contents]
  rfl

theorem length_pieces : s.pieces.length = 256 + s.tokens.length := by
  rw [pieces, List.length_append, List.length_map, List.length_range]

theorem vocabCount_eq : s.contents.vocabCount = 256 + s.tokens.length := by
  rw [← length_pieces]
  exact congrArg (· - 1) List.length_scanl

theorem length_flatten : s.pieces.flatten.length = 256 + s.tokens.flatten.length := by
  rw [pieces, List.flatten_append, List.length_append, ← List.flatMap_def, ← List.map_eq_flatMap, List.length_map,
    List.length_range]

/-- The first 256 pieces are the bytes. -/
theorem pieces_byte {i : Nat} (hi : i < 256) : s.pieces[i]? = some [UInt8.ofNat i] := by
  rw [pieces, List.getElem?_append_left (by rwa [List.length_map, List.length_range]), List.getElem?_map,
    List.getElem?_range hi]
  rfl

/-- An offset counts the bytes of the pieces in front of it. -/
theorem offsetOf_eq {i : Nat} (hi : i ≤ 256 + s.tokens.length) :
    offsetOf s.offsets i = (s.pieces.take i).flatten.length := by
  rw [offsets, offsetOf_scanl _ 0 (by rwa [length_pieces]), Nat.zero_add]

/-- A token is found at its offsets. -/
theorem spanOf_eq {i : Nat} {piece : List UInt8} (h : s.pieces[i]? = some piece) :
    spanOf s.offsets s.pieces.flatten i = piece := by
  obtain ⟨hi, rfl⟩ := List.getElem?_eq_some_iff.1 h
  exact spanOf_flatten s.pieces hi

theorem offsetOf_succ {i : Nat} {piece : List UInt8} (h : s.pieces[i]? = some piece) :
    offsetOf s.offsets (i + 1) = offsetOf s.offsets i + piece.length := by
  obtain ⟨hi, rfl⟩ := List.getElem?_eq_some_iff.1 h
  have hlen := s.length_pieces
  rw [offsetOf_eq s (by omega), offsetOf_eq s (by omega), List.take_succ_eq_append_getElem hi, List.flatten_append,
    List.length_append, List.flatten_singleton]

theorem offset_le {w : Nat} (hw : w ∈ s.offsets) : w ≤ 256 + s.tokens.flatten.length := by
  obtain ⟨i, hi, rfl⟩ := List.mem_iff_getElem.1 hw
  have hlen : s.offsets.length = s.pieces.length + 1 := List.length_scanl
  have hsplit := congrArg (fun ps => ps.flatten.length) (List.take_append_drop i s.pieces)
  simp only [List.flatten_append, List.length_append, length_flatten] at hsplit
  have heq : offsetOf s.offsets i = s.offsets[i] := by
    rw [offsetOf, List.getElem?_eq_getElem hi]
    rfl
  rw [← heq, offsetOf_eq s (by rw [← length_pieces]; omega)]
  omega

theorem length_slots : s.slots.length = 16 := by
  have keep : ∀ (merges : List (Nat × Nat × Nat × Nat)) (slots : List (Nat × Nat)), slots.length = 16 →
      (merges.foldl (fun slots (left, right, rank, merged) =>
        let key := left <<< 32 ||| right
        match probeSlot (slots.map (·.1)) 15 key 16 (fmix64 key &&& 15) with
        | some i => slots.set i (key, rank <<< 32 ||| merged)
        | none => slots) slots).length = 16 := by
    intro merges
    induction merges with
    | nil => exact fun slots h => h
    | cons m merges ih =>
      intro slots h
      apply ih
      dsimp only
      split
      · rwa [List.length_set]
      · exact h
  exact keep _ _ List.length_replicate

end Pieces

/-- The numbers fit their words and the loader's bounds. -/
structure Fits : Prop where
  flags : s.flags < 2 ^ 32
  hash : s.sourceHash < 2 ^ 64
  tokens : s.tokens.length ≤ 2 ^ 20
  blob : s.tokens.flatten.length ≤ 2 ^ 20
  added : s.added.length ≤ 64
  info : 4 ≤ s.info.length ∧ s.info.length ≤ 2 ^ 20 ∧ wordAt 4 s.info 0 ≤ s.info.length - 4
  words : ∀ p ∈ s.slots, p.1 < 2 ^ 64 ∧ p.2 < 2 ^ 64
  slot : ∀ i < 16, SlotOk (256 + s.tokens.length) (s.slots.flatMap fun p => [p.1, p.2]) i
  load : occupiedBelow (keyOf (s.slots.flatMap fun p => [p.1, p.2])) 16 ≤ 10
  record : ∀ a ∈ s.added, a.1 < 256 + s.tokens.length ∧ a.2 < 2 ^ 32 ∧ 0 < (s.pieces[a.1]?.getD []).length ∧
    (s.pieces[a.1]?.getD []).length ≤ 250
  sorted : s.added.Pairwise fun a b => a.1 < b.1

instance : Decidable s.Fits :=
  have (i : Nat) : Decidable (SlotOk (256 + s.tokens.length) (s.slots.flatMap fun p => [p.1, p.2]) i) :=
    inferInstanceAs (Decidable (_ → _))
  decidable_of_iff (s.flags < 2 ^ 32 ∧ s.sourceHash < 2 ^ 64 ∧ s.tokens.length ≤ 2 ^ 20 ∧
      s.tokens.flatten.length ≤ 2 ^ 20 ∧ s.added.length ≤ 64 ∧
      (4 ≤ s.info.length ∧ s.info.length ≤ 2 ^ 20 ∧ wordAt 4 s.info 0 ≤ s.info.length - 4) ∧
      (∀ p ∈ s.slots, p.1 < 2 ^ 64 ∧ p.2 < 2 ^ 64) ∧
      (∀ i < 16, SlotOk (256 + s.tokens.length) (s.slots.flatMap fun p => [p.1, p.2]) i) ∧
      occupiedBelow (keyOf (s.slots.flatMap fun p => [p.1, p.2])) 16 ≤ 10 ∧
      (∀ a ∈ s.added, a.1 < 256 + s.tokens.length ∧ a.2 < 2 ^ 32 ∧ 0 < (s.pieces[a.1]?.getD []).length ∧
        (s.pieces[a.1]?.getD []).length ≤ 250) ∧
      s.added.Pairwise fun a b => a.1 < b.1)
    ⟨fun ⟨h₁, h₂, h₃, h₄, h₅, h₆, h₇, h₈, h₉, h₁₀, h₁₁⟩ => ⟨h₁, h₂, h₃, h₄, h₅, h₆, h₇, h₈, h₉, h₁₀, h₁₁⟩,
      fun h => ⟨h.flags, h.hash, h.tokens, h.blob, h.added, h.info, h.words, h.slot, h.load, h.record, h.sorted⟩⟩

section Image

/-- No section is larger than 8 MiB. -/
theorem length_payload (h : s.Fits) : ∀ payload ∈ s.contents.payloads, payload.length ≤ 2 ^ 23 := by
  have htokens := h.tokens
  have hblob := h.blob
  have hadded := h.added
  have hinfo := h.info.2.1
  have hoffsets : s.offsets.length = 256 + s.tokens.length + 1 := List.length_scanl.trans (by rw [length_pieces])
  simp only [Contents.payloads, contents_offsets, contents_blob, contents_pairs, contents_byteIds, contents_info,
    List.forall_mem_cons, length_packed, length_flatten, length_flatMap_pair, length_slots, List.length_range,
    Contents.length_recordWords, contents_records, List.length_map, hoffsets]
  refine ⟨?_, ?_, ?_, ?_, ?_, ?_, List.forall_mem_nil _⟩
  all_goals omega

/-- The sections of payloads of a bounded length. -/
theorem sectionTable_le {cursor bound : Nat} {payloads : List (List UInt8)} (h : ∀ p ∈ payloads, p.length ≤ bound) :
    ∀ t ∈ sectionTable cursor payloads, t.1 ≤ cursor + payloads.length * (bound + 64) ∧ t.2 ≤ bound := by
  induction payloads generalizing cursor with
  | nil => exact List.forall_mem_nil _
  | cons payload payloads ih =>
    obtain ⟨hp, hps⟩ := List.forall_mem_cons.1 h
    have hup : alignUp (cursor + payload.length) SECTION_ALIGN ≤ cursor + payload.length + 64 := by
      unfold alignUp SECTION_ALIGN
      omega
    rw [sectionTable, List.forall_mem_cons, List.length_cons, Nat.succ_mul]
    refine ⟨⟨by dsimp only; omega, hp⟩, fun t ht => ?_⟩
    obtain ⟨hoff, hsize⟩ := ih hps t ht
    exact ⟨by omega, hsize⟩

/-- The image is assembled. -/
theorem assembled (h : s.Fits) : s.contents.IsImage s.image := by
  have htokens := h.tokens
  have hadded := h.added
  have hfixed : ∀ w ∈ [MAGIC, FORMAT_VERSION, s.flags, PROFILE_ID_GPT4_STYLE, s.contents.vocabCount, s.added.length, 4, 0],
      w < 256 ^ 4 := by
    have hflags := h.flags
    have hcount := s.vocabCount_eq
    simp only [List.forall_mem_cons, MAGIC, FORMAT_VERSION, PROFILE_ID_GPT4_STYLE]
    exact ⟨by decide, by decide, hflags, by decide, by omega, by omega, by decide, by decide, List.forall_mem_nil _⟩
  have htable : ∀ w ∈ (sectionTable HEADER_SIZE s.contents.payloads).flatMap fun t => [t.1, t.2], w < 256 ^ 8 := by
    intro w hw
    obtain ⟨t, ht, hw⟩ := List.mem_flatMap.1 hw
    obtain ⟨hoff, hsize⟩ := sectionTable_le (s.length_payload h) t ht
    rw [show s.contents.payloads.length = 6 from rfl, HEADER_SIZE] at hoff
    simp only [List.mem_cons, List.not_mem_nil, or_false] at hw
    rcases hw with rfl | rfl <;> omega
  have hhash : ∀ w ∈ [s.sourceHash], w < 256 ^ 8 := by
    rw [List.forall_mem_singleton]
    exact h.hash
  have himage : assemble s.flags s.contents.vocabCount s.added.length 4 s.sourceHash s.contents.payloads = .ok s.image := by
    unfold image assemble
    rw [pack_eq_ok.2 ⟨hfixed, rfl⟩, pack_eq_ok.2 ⟨htable, rfl⟩, pack_eq_ok.2 ⟨hhash, rfl⟩]
    rfl
  have hread := assemble_read himage rfl
  unfold Contents.IsImage
  rwa [contents_records, List.length_map]

/-- The parts of a sample that fits are of the sizes an image has. -/
theorem sized (h : s.Fits) : s.contents.Sized := by
  have htokens := h.tokens
  have hblob := h.blob
  constructor
  · exact Nat.lt_of_lt_of_eq (Nat.succ_pos _) List.length_scanl.symm
  · rw [contents_pairs, length_flatMap_pair, length_slots, contents_slotsLog2]
    rfl
  · rw [contents_byteIds, List.length_range]
  · intro w hw
    have hle := s.offset_le hw
    omega
  · intro w hw
    obtain ⟨p, hp, hw⟩ := List.mem_flatMap.1 hw
    obtain ⟨hkey, hvalue⟩ := h.words p hp
    simp only [List.mem_cons, List.not_mem_nil, or_false] at hw
    rcases hw with rfl | rfl <;> assumption
  · intro w hw
    rw [contents_byteIds] at hw
    have hlt := List.mem_range.1 hw
    omega
  · intro w hw
    obtain ⟨a, ha, hw⟩ := List.mem_flatMap.1 hw
    rw [contents_records] at ha
    obtain ⟨x, hx, rfl⟩ := List.mem_map.1 ha
    obtain ⟨hid, hflags, -, hlen⟩ := h.record x hx
    have hlen' := s.length_pieces
    have hoff : s.offsets[x.1]?.getD 0 ≤ 256 + s.tokens.flatten.length := by
      rw [List.getElem?_eq_getElem (by rw [offsets, List.length_scanl]; omega)]
      exact s.offset_le (List.getElem_mem _)
    have hall : ∀ w ∈ [x.1, s.offsets[x.1]?.getD 0, (s.pieces[x.1]?.getD []).length, x.2], w < 256 ^ 4 := by
      simp only [List.forall_mem_cons]
      exact ⟨by omega, by omega, by omega, by omega, List.forall_mem_nil _⟩
    dsimp only [record] at hw
    exact hall w hw

/-- The loader's checks on the contents pass. -/
theorem contents_ok (h : s.Fits) : s.contents.Ok := by
  have htokens := h.tokens
  have hcount := s.vocabCount_eq
  have hlen := s.length_pieces
  have hpiece : ∀ {i}, i < 256 + s.tokens.length → ∃ piece, s.pieces[i]? = some piece := fun hi =>
    ⟨_, List.getElem?_eq_getElem (by omega)⟩
  constructor
  · omega
  · omega
  · rw [contents_records, List.length_map]
    exact h.added
  · rw [contents_slotsLog2]
    decide
  · intro i hi
    obtain ⟨piece, hget⟩ := hpiece (hcount ▸ hi)
    exact Nat.le.intro (s.offsetOf_succ hget).symm
  · rw [hcount, contents_offsets, contents_blob, offsetOf_eq s (Nat.le_refl _), List.take_of_length_le (Nat.le_of_eq hlen)]
  · rw [hcount, contents_slotsLog2, contents_pairs]
    exact h.slot
  · rw [contents_slotsLog2, contents_pairs]
    exact h.load
  · intro i hi
    rw [contents_byteIds, List.getElem?_range hi, Option.getD_some, hcount]
    exact ⟨Nat.lt_add_right _ hi, s.spanOf_eq (s.pieces_byte hi)⟩
  · intro a ha
    rw [contents_records] at ha
    obtain ⟨x, hx, rfl⟩ := List.mem_map.1 ha
    obtain ⟨hid, -, hpos, hshort⟩ := h.record x hx
    obtain ⟨piece, hget⟩ := hpiece hid
    have hrec : s.record x = ⟨x.1, offsetOf s.offsets x.1, piece.length, x.2⟩ := by
      unfold record
      rw [hget]
      rfl
    rw [hget, Option.getD_some] at hpos hshort
    rw [hcount, hrec, contents_offsets]
    refine ⟨hid, hpos, hshort, ?_, ?_⟩
    · dsimp only
    · dsimp only
      exact s.offsetOf_succ hget
  · rw [contents_records]
    exact List.pairwise_map.2 h.sorted
  · exact h.info.1
  · exact h.info.2.2

/-- What is read of the image. -/
theorem reading_eq (h : s.Fits) : BpVocab.reading ⟨true, true, true⟩ s.image = s.bare := by
  have himage := s.assembled h
  have hr := himage.reads (s.sized h)
  have hslots := Contents.slots_eq himage
  have hhdr : BpvHeader.read s.image = s.bare.hdr := by
    obtain ⟨hmagic, hversion, hflags, hprofile, hcount, hadded, hlog2, hsections, -, -, -⟩ := himage
    rw [contents_records, List.length_map] at hadded
    dsimp only [bare]
    rw [← hsections, ← hadded]
    generalize BpvHeader.read s.image = hdr at *
    cases hdr
    dsimp only at *
    subst hmagic hversion hflags hprofile hlog2
    rw [hcount]
    rfl
  dsimp only [BpVocab.reading]
  rw [hr.offsets, hr.blob, hr.pairs, hr.byteIds, hr.records, hr.info, hslots, hhdr]
  rfl

/-- **The loader opens the image** of a sample that fits. -/
theorem opens {s : Sample} (h : s.Fits) : s.Opens := by
  have himage := s.assembled h
  obtain ⟨r, hr, -, hiff⟩ := bpVocabOpen_loads ⟨true, true, true⟩ s.image
  obtain ⟨v, rfl⟩ := hiff.2 ⟨(Contents.accepts_iff himage (s.sized h)).2 (s.contents_ok h), rfl, rfl⟩
  have hv := bpVocabOpen_reading hr
  rw [s.reading_eq h] at hv
  unfold Opens vocab
  rw [hr, hv]
  rfl

end Image

end Sample

/-- Two merges, a special added token, and NFC. -/
def toy : Sample where
  flags := 1
  tokens := [[0x61, 0x62], [0x61, 0x62, 0x63], [0x3C, 0x78, 0x3E]]
  merges := [(0x61, 0x62, 0, 256), (256, 0x63, 1, 257)]
  added := [(258, 1)]
  info := (encodeMeta [[], str CONVERTER_VERSION, str PROFILE1_REGEX]).toOption.getD []
  sourceHash := fnv1a64 []

/-- The loader takes the small image. -/
theorem toy_opens : toy.Opens := Sample.opens (by decide +kernel)

example : toy.vocab.span 257 = [0x61, 0x62, 0x63] := by decide +kernel

end Bytepair.Convert
