import Bytepair.Vocab.Matcher

/-!
# Opening an image

`bpVocabOpen_spec`: the loader returns on every file, and the handle it returns is valid,
has the sections of the file and a matcher for its records.
-/

namespace Bytepair
open Support

/-- The handle has the sections of the file. -/
structure BpVocab.Of (v : BpVocab) (map : List UInt8) : Prop where
  hdr : v.hdr = BpvHeader.read map
  headerOk : headerOk v.hdr = true
  sectionsOk : sectionsOk v.hdr map.length = true
  tokOff : v.tokOff = words 4 (v.hdr.vocabCount + 1) (v.hdr.tokenOffsets.bytes map)
  blob : v.blob = v.hdr.tokenBlob.bytes map
  pairs : v.pairs = words 8 (v.hdr.slots * 2) (v.hdr.pairTable.bytes map)
  byteId : v.byteId = words 4 256 (v.hdr.byteToId.bytes map)
  added : v.added = addedRecords (words 4 (v.hdr.addedCount * 4) (v.hdr.added.bytes map))

section Records

variable {v : BpVocab}

theorem BpVocab.Valid.offset_le (hv : v.Valid) {i j : Nat} (hij : i ≤ j) (hj : j ≤ v.hdr.vocabCount) :
    offsetOf v.tokOff i ≤ offsetOf v.tokOff j := by
  induction j, hij using Nat.le_induction with
  | base => exact Nat.le_refl _
  | succ j hij ih => exact Nat.le_trans (ih (by omega)) (hv.mono j (by omega))

/-- The span of an id is inside the blob. -/
theorem BpVocab.Valid.span_end (hv : v.Valid) {id : Nat} (h : v.HasId id) :
    offsetOf v.tokOff id ≤ offsetOf v.tokOff (id + 1) ∧ offsetOf v.tokOff (id + 1) ≤ v.blob.length :=
  ⟨hv.mono id h, Nat.le_trans (hv.offset_le (Nat.succ_le_of_lt h) (Nat.le_refl _)) hv.last⟩

theorem BpVocab.Valid.length_span (hv : v.Valid) {id : Nat} (h : v.HasId id) :
    (v.span id).length = offsetOf v.tokOff (id + 1) - offsetOf v.tokOff id := by
  obtain ⟨hle, hend⟩ := hv.span_end h
  unfold BpVocab.span spanOf
  rw [List.length_take, List.length_drop]
  omega

/-- A record is in the blob, and its bytes are the token's. -/
theorem BpVocab.Valid.record_bytes (hv : v.Valid) {a : BpvAdded} (ha : a ∈ v.added) :
    a.offset + a.len ≤ v.blob.length ∧ v.addedBytes a = (v.blob.drop a.offset).take a.len ∧
      (v.addedBytes a).length = a.len ∧ (v.addedBytes a).head? = some (v.addedByte a) := by
  have hr := hv.record a ha
  obtain ⟨hle, hend⟩ := hv.span_end hr.id
  rw [hr.stop] at hend
  have hspan : v.addedBytes a = (v.blob.drop a.offset).take a.len := by
    unfold BpVocab.addedBytes BpVocab.span spanOf
    rw [hr.stop, ← hr.offset, Nat.add_sub_cancel_left]
  have hpos := hr.pos
  refine ⟨hend, hspan, ?_, ?_⟩
  · rw [hspan, List.length_take, List.length_drop]
    omega
  · have hin : a.offset < v.blob.length := by omega
    obtain ⟨n, hn⟩ := Nat.exists_eq_succ_of_ne_zero (Nat.ne_of_gt hpos)
    rw [hspan, List.drop_eq_getElem_cons hin, hn, List.take_succ_cons, List.head?_cons, BpVocab.addedByte,
      List.getElem?_eq_getElem hin]
    rfl

/-- An added token is known by its id. -/
theorem BpVocab.Valid.added_inj (hv : v.Valid) {a b : BpvAdded} (ha : a ∈ v.added) (hb : b ∈ v.added)
    (h : a.id = b.id) : a = b := by
  obtain ⟨i, hi, rfl⟩ := List.mem_iff_getElem.1 ha
  obtain ⟨j, hj, rfl⟩ := List.mem_iff_getElem.1 hb
  have hsorted := List.pairwise_iff_getElem.1 hv.sorted
  rcases Nat.lt_trichotomy i j with hlt | rfl | hgt
  · have := hsorted i j hi hj hlt
    omega
  · rfl
  · have := hsorted j i hj hi hgt
    omega

end Records

section Build

/-- Building the matcher reads first bytes of records only, and changes nothing else. -/
theorem withMatcher_spec {v : BpVocab} (hin : ∀ a ∈ v.added, a.offset < v.blob.length)
    (hmap : v.addedFirstMap = List.replicate 32 0) (horder : v.addedOrder = [])
    (hsingle : v.addedSingleFirst = false) :
    ∃ v', withMatcher v = .ok v' ∧ v'.MatcherOk ∧ ∃ order first single map, v' = { v with
      addedOrder := order, addedFirst := first, addedSingleFirst := single, addedFirstMap := map } := by
  unfold withMatcher
  split
  · next hnil =>
    refine ⟨v, rfl, ⟨?_, ?_, ?_, ?_, by simp [hmap]⟩, v.addedOrder, v.addedFirst, v.addedSingleFirst,
      v.addedFirstMap, rfl⟩
    · rw [horder, hnil]
      exact .refl _
    · rw [horder]
      exact .nil
    · rw [hsingle]
      exact fun h => absurd h Bool.false_ne_true
    · intro b
      rw [hmap, testFirst_empty, hnil]
      simp
  · next a as hcons =>
    have hbyte : ∀ a ∈ v.added, index v.blob a.offset = .ok (v.addedByte a) := fun a ha =>
      index_getD 0 (hin a ha)
    obtain ⟨hperm, hlongest⟩ := orderByLength_spec v.addedLen v.added.length
    rw [hbyte a (by rw [hcons]; exact List.mem_cons_self), Run.ok_bind, mapM_ok hbyte, Run.ok_bind]
    refine ⟨_, rfl, ⟨hperm, hlongest, ?_, ?_, ?_⟩, _, _, _, _, rfl⟩
    · intro hall c hc
      exact of_decide_eq_true (List.all_eq_true.1 hall _ (List.mem_map_of_mem hc))
    · intro b
      show testFirst ((v.added.map v.addedByte).foldl setFirst v.addedFirstMap) b = true ↔ _
      rw [testFirst_foldl _ (by simp [hmap]), hmap, testFirst_empty, Bool.false_or, List.contains_iff_mem,
        List.mem_map]
      rfl
    · show ((v.added.map v.addedByte).foldl setFirst v.addedFirstMap).length = 32
      have keep : ∀ (fbs map : List UInt8), (fbs.foldl setFirst map).length = map.length := by
        intro fbs
        induction fbs with
        | nil => exact fun _ => rfl
        | cons fb fbs ih => exact fun map => (ih _).trans (length_setFirst map fb)
      rw [keep, hmap, List.length_replicate]

end Build

section Open

/-- A section that passed its check is in the file. -/
theorem sectionOk_length {s : BpvSection} {elem : Nat} {map : List UInt8}
    (h : sectionOk s map.length elem = true) : (s.bytes map).length = s.size := by
  unfold sectionOk at h
  unfold BpvSection.bytes
  split at h
  · cases h
  split at h
  · cases h
  · next hin =>
    simp only [Bool.or_eq_true, decide_eq_true_eq, not_or] at hin
    rw [List.length_take, List.length_drop]
    omega

theorem addedRecords_length {ws : List Nat} {n : Nat} (h : ws.length = n * 4) :
    (addedRecords ws).length = n := by
  induction n generalizing ws with
  | zero =>
    obtain rfl : ws = [] := List.eq_nil_of_length_eq_zero (by omega)
    rfl
  | succ n ih =>
    match ws, h with
    | a :: b :: c :: d :: ws, h =>
      rw [addedRecords, List.length_cons, ih (by simp only [List.length_cons] at h; omega)]
    | [], h | [_], h | [_, _], h | [_, _, _], h => simp at h <;> omega

namespace BpvHeader

variable (h : BpvHeader) (map : List UInt8)

/-- The sections of a file, as the loader reads them. -/
abbrev readOffsets : List Nat := words 4 (h.vocabCount + 1) (h.tokenOffsets.bytes map)
abbrev readPairs : List Nat := words 8 (h.slots * 2) (h.pairTable.bytes map)
abbrev readByteIds : List Nat := words 4 256 (h.byteToId.bytes map)
abbrev readAdded : List BpvAdded := addedRecords (words 4 (h.addedCount * 4) (h.added.bytes map))

end BpvHeader

/-- What the loader asks of a file with a header. -/
structure Accepts (h : BpvHeader) (map : List UInt8) : Prop where
  size : BPV_FIRST_SECTION ≤ map.length
  header : headerOk h = true
  sections : sectionsOk h map.length = true
  apart : noOverlap h.sections = true
  offsets : (∀ i < h.vocabCount, offsetOf (h.readOffsets map) i ≤ offsetOf (h.readOffsets map) (i + 1)) ∧
    offsetOf (h.readOffsets map) h.vocabCount ≤ h.tokenBlob.size
  pairs : (∀ s < h.slots, SlotOk h.vocabCount (h.readPairs map) s) ∧
    occupiedBelow (keyOf (h.readPairs map)) h.slots ≤ h.slots * 13 / 20
  bytes : ∀ i ∈ List.range 256, (h.readByteIds map)[i]?.getD 0 < h.vocabCount ∧
    spanOf (h.readOffsets map) (h.tokenBlob.bytes map) ((h.readByteIds map)[i]?.getD 0) = [UInt8.ofNat i]
  added : (∀ a ∈ h.readAdded map, RecordOk h.vocabCount (h.readOffsets map) a) ∧
    (h.readAdded map).Pairwise fun a b => a.id < b.id
  info : 4 ≤ h.metaInfo.size
  name : wordAt 4 (h.metaInfo.bytes map) 0 ≤ h.metaInfo.size - 4

/-- What opening promises of its result. -/
def Sound (map : List UInt8) (r : Except Err BpVocab) : Prop :=
  ∀ v, r = .ok v → v.Valid ∧ v.Of map ∧ v.MatcherOk

/-- A part of the loader returns, and there is a handle exactly if `Q`. -/
def Loads (map : List UInt8) (Q : Prop) (k : Run (Except Err BpVocab)) : Prop :=
  ∃ r, k = .ok r ∧ Sound map r ∧ ((∃ v, r = .ok v) ↔ Q)

theorem Loads.refuse {map : List UInt8} {e : Err} {Q : Prop} (hQ : ¬Q) : Loads map Q (pure (.error e)) := by
  refine ⟨.error e, rfl, ?_, ?_, fun h => absurd h hQ⟩
  · intro v h
    cases h
  · rintro ⟨v, ⟨⟩⟩

/-- A check of the loader: it refuses the file, or goes on. -/
theorem refuse_or {map : List UInt8} {c Q : Prop} [Decidable c] {e : Err} {k : Run (Except Err BpVocab)}
    (hk : ¬c → Loads map Q k) : Loads map (¬c ∧ Q) (if c then pure (.error e) else k) := by
  split
  · next hc => exact Loads.refuse fun h => h.1 hc
  · next hc =>
    obtain ⟨r, hr, hsound, hiff⟩ := hk hc
    exact ⟨r, hr, hsound, by rw [hiff, and_iff_right hc]⟩

theorem check_or {map : List UInt8} {x : Run Bool} {P Q : Prop} {e : Err} {k : Run (Except Err BpVocab)}
    (hx : ∃ b, x = .ok b ∧ (b = true ↔ P)) (hk : P → Loads map Q k) :
    Loads map (P ∧ Q) (x >>= fun b => if (!b) = true then pure (Except.error e) else k) := by
  obtain ⟨b, rfl, hb⟩ := hx
  rw [Run.ok_bind, ← hb]
  cases b with
  | false => exact Loads.refuse (by simp)
  | true =>
    obtain ⟨r, hr, hsound, hiff⟩ := hk (hb.1 rfl)
    exact ⟨r, hr, hsound, by rw [hiff]; simp⟩

/-- The checks in the order the loader makes them. -/
theorem accepts_iff {host : Host} {h : BpvHeader} {map : List UInt8} :
    (Accepts h map ∧ host.calloc = true ∧ host.malloc = true) ↔
      ¬map.length < BPV_FIRST_SECTION ∧ ¬(!headerOk h) = true ∧ ¬(!sectionsOk h map.length) = true ∧
      ¬(!noOverlap h.sections) = true ∧
      ((∀ i < h.vocabCount, offsetOf (h.readOffsets map) i ≤ offsetOf (h.readOffsets map) (i + 1)) ∧
        offsetOf (h.readOffsets map) h.vocabCount ≤ h.tokenBlob.size) ∧
      ((∀ s < h.slots, SlotOk h.vocabCount (h.readPairs map) s) ∧
        occupiedBelow (keyOf (h.readPairs map)) h.slots ≤ h.slots * 13 / 20) ∧
      (∀ i ∈ List.range 256, (h.readByteIds map)[i]?.getD 0 < h.vocabCount ∧
        spanOf (h.readOffsets map) (h.tokenBlob.bytes map) ((h.readByteIds map)[i]?.getD 0) = [UInt8.ofNat i]) ∧
      ((∀ a ∈ h.readAdded map, RecordOk h.vocabCount (h.readOffsets map) a) ∧
        ((h.readAdded map).Pairwise fun a b => a.id < b.id) ∧ ∀ p ∈ (none : Option Nat), ∀ a ∈ h.readAdded map, p < a.id) ∧
      ¬h.metaInfo.size < 4 ∧ ¬(!host.calloc) = true ∧ ¬h.metaInfo.size - 4 < wordAt 4 (h.metaInfo.bytes map) 0 ∧
      ¬(!host.malloc) = true ∧ True := by
  have hflag : ∀ b : Bool, ¬(!b) = true ↔ b = true := by decide
  simp only [hflag, Nat.not_lt]
  constructor
  · rintro ⟨ok, hcalloc, hmalloc⟩
    exact ⟨ok.size, ok.header, ok.sections, ok.apart, ok.offsets, ok.pairs, ok.bytes,
      ⟨ok.added.1, ok.added.2, fun p hp => nomatch hp⟩, ok.info, hcalloc, ok.name, hmalloc, trivial⟩
  · rintro ⟨hsize, hheader, hsections, hapart, hoff, hpairs, hbytes, hadded, hinfo, hcalloc, hname, hmalloc, -⟩
    exact ⟨⟨hsize, hheader, hsections, hapart, hoff, hpairs, hbytes, ⟨hadded.1, hadded.2.1⟩, hinfo, hname⟩, hcalloc, hmalloc⟩

/-- **Opening returns**; what it accepts is valid, and it accepts what `Accepts` says. -/
theorem bpVocabOpen_loads (host : Host) (map : List UInt8) :
    Loads map (Accepts (BpvHeader.read map) map ∧ host.calloc = true ∧ host.malloc = true) (bpVocabOpen host map) := by
  rw [accepts_iff]
  unfold bpVocabOpen
  generalize hh : BpvHeader.read map = h
  refine refuse_or fun hsize => refuse_or fun hheader => refuse_or fun hsections => refuse_or fun hoverlap => ?_
  simp only [Bool.not_eq_true', Bool.not_eq_false] at hheader hsections
  have hsec := hsections
  simp only [Bytepair.sectionsOk, Bool.and_eq_true, decide_eq_true_eq] at hsec
  have hfix := hheader
  simp only [Bytepair.headerOk, Bool.and_eq_true, decide_eq_true_eq] at hfix
  have hsecblob : sectionOk h.tokenBlob map.length 0 = true := by simp [hsec]
  have hblob : (h.tokenBlob.bytes map).length = h.tokenBlob.size := sectionOk_length hsecblob
  apply check_or (offsetsOk_spec (length_words _ _ _))
  intro hoff
  apply check_or (pairsOk_spec (length_words _ _ _))
  intro hpairs
  have htable : OffsetsOk h.vocabCount (h.readOffsets map) (h.tokenBlob.bytes map).length :=
    ⟨length_words _ _ _, fun i => words_getD_lt i, hoff.1, by rw [hblob]; exact hoff.2⟩
  refine check_or (allM_spec fun i hi => byteOk_spec htable (length_words _ _ _) (List.mem_range.1 hi))
    fun hbyte => ?_
  refine check_or (addedOk_spec htable none _) fun hadded => refuse_or fun hmeta => refuse_or fun hcalloc =>
    refuse_or fun hname => refuse_or fun hmalloc => ?_
  obtain ⟨hrecord, hsorted, -⟩ := hadded
  have hin : ∀ a ∈ h.readAdded map, a.offset < (h.tokenBlob.bytes map).length := by
    intro a ha
    have hr := hrecord a ha
    have hstop := hr.stop
    have hpos := hr.pos
    have := htable.le (show a.id + 1 ≤ h.vocabCount from hr.id) (Nat.le_refl _)
    have := htable.last
    omega
  obtain ⟨v, hrun, hmatch, order, first, single, fmap, rfl⟩ := withMatcher_spec (v :=
    { hdr := h, tokOff := h.readOffsets map, blob := h.tokenBlob.bytes map, pairs := h.readPairs map
      pairMask := h.slots - 1, byteId := h.readByteIds map, added := h.readAdded map
      metaName := ((h.metaInfo.bytes map).drop 4).take (wordAt 4 (h.metaInfo.bytes map) 0)
      addedOrder := [], addedFirst := 0, addedSingleFirst := false
      addedFirstMap := List.replicate 32 0, useAvx2 := host.avx2 }) hin rfl rfl rfl
  refine ⟨.ok _, by rw [hrun]; rfl, ?_, fun _ => trivial, fun _ => ⟨_, rfl⟩⟩
  rintro _ ⟨⟩
  have hslots : 0 < h.slots := by
    unfold BpvHeader.slots
    rw [Nat.one_shiftLeft]
    exact Nat.two_pow_pos _
  have hcount : (h.readAdded map).length = h.addedCount := addedRecords_length (length_words _ _ _)
  refine ⟨⟨?_, length_words _ _ _, fun i => words_getD_lt i, hoff.1, htable.last, ?_, length_words _ _ _,
    fun w hw => words_lt hw, rfl, hpairs.1, ?_, length_words _ _ _, fun b => ?_, hcount, ?_, hrecord, hsorted⟩,
    ⟨hh.symm, hheader, hsections, rfl, rfl, rfl, rfl, rfl⟩, hmatch⟩
  · exact hfix.1.1.2
  · exact hfix.2
  · -- were every slot occupied, more than 65 percent would be
    by_contra hfull
    simp only [not_exists, not_and] at hfull
    have hall := occupiedBelow_full hfull
    have hload := hpairs.2
    rw [hall] at hload
    omega
  · have := hbyte b.toNat (List.mem_range.2 b.toNat_lt)
    rwa [UInt8.ofNat_toNat] at this
  · rw [hcount]
    exact hfix.1.2

/-- What opens is valid. -/
theorem bpVocabOpen_spec (host : Host) (map : List UInt8) : ∃ r, bpVocabOpen host map = .ok r ∧ Sound map r := by
  obtain ⟨r, hr, hsound, -⟩ := bpVocabOpen_loads host map
  exact ⟨r, hr, hsound⟩

/-- The handle of a file before the matcher is built. -/
def BpVocab.reading (host : Host) (map : List UInt8) : BpVocab :=
  let h := BpvHeader.read map
  { hdr := h, tokOff := h.readOffsets map, blob := h.tokenBlob.bytes map, pairs := h.readPairs map
    pairMask := h.slots - 1, byteId := h.readByteIds map, added := h.readAdded map
    metaName := ((h.metaInfo.bytes map).drop 4).take (wordAt 4 (h.metaInfo.bytes map) 0)
    addedOrder := [], addedFirst := 0, addedSingleFirst := false
    addedFirstMap := List.replicate 32 0, useAvx2 := host.avx2 }

/-- A check that passed. -/
theorem of_refuse {c : Prop} [Decidable c] {e : Err} {k : Run (Except Err BpVocab)} {v : BpVocab}
    (h : (if c then pure (.error e) else k) = .ok (.ok v)) : k = .ok (.ok v) := by
  split at h
  · cases h
  · exact h

theorem of_check {x : Run Bool} {e : Err} {k : Run (Except Err BpVocab)} {v : BpVocab}
    (h : (x >>= fun b => if (!b) = true then pure (Except.error e) else k) = .ok (.ok v)) : k = .ok (.ok v) := by
  obtain ⟨b, -, h⟩ := bind_eq_ok.1 h
  exact of_refuse h

/-- **What opens is what was read**, with its matcher. -/
theorem bpVocabOpen_reading {host : Host} {map : List UInt8} {v : BpVocab} (h : bpVocabOpen host map = .ok (.ok v)) :
    withMatcher (BpVocab.reading host map) = .ok v := by
  unfold bpVocabOpen at h
  have h := of_check (of_check (of_check (of_check (of_refuse (of_refuse (of_refuse (of_refuse h)))))))
  have h := of_refuse (of_refuse (of_refuse (of_refuse h)))
  obtain ⟨v', hv', h⟩ := bind_eq_ok.1 h
  cases h
  exact hv'

end Open

end Bytepair
