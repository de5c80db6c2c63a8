import Bytepair.Dump.Checks
import Mathlib.Data.List.Dedup

/-!
# What the inspector finds out

`inspect_eq_ok`: an image passes the checks of `tools/bpv_dump.py` exactly if it is framed, its tokens are cut out of
the blob, every occupied slot joins the bytes of two tokens and is where the probe finds it, the ranks are
those from 0 on, and the records and the texts behind them are well formed.
-/

namespace Bytepair.Dump
open Support Support.Probing Bytepair.Convert

section Added

variable {c : Contents}

/-- An added record as the inspector wants it. -/
structure Listed (c : Contents) (a : BpvAdded) : Prop where
  id : a.id < c.vocabCount
  inside : a.offset + a.len ≤ c.blob.length
  pos : 0 < a.len
  flags : a.flags < 2
  offset : a.offset = offsetOf c.offsets a.id
  len : (a.len : Int) = offsetOf c.offsets (a.id + 1) - offsetOf c.offsets a.id
  text : ∃ text, decodeUtf8 ((c.blob.drop a.offset).take a.len) = some text

theorem checkRecord_eq_ok {seen out : List AddedFacts} {a : BpvAdded} {i : Nat} :
    checkRecord c.vocabCount c.offsets c.blob seen (a, i) = .ok out ↔ Listed c a ∧ a.id ∉ seen.map (·.record.id) ∧
      ∃ text, decodeUtf8 ((c.blob.drop a.offset).take a.len) = some text ∧ out = seen ++ [⟨a, text⟩] := by
  unfold checkRecord
  dsimp only
  rw [check_bind, check_bind, check_bind, check_bind, check_bind, check_bind]
  simp only [Bool.and_eq_true, decide_eq_true_eq, Bool.not_eq_true', ← Bool.not_eq_true, List.contains_iff_mem,
    shiftRight_one_eq_zero]
  constructor
  · rintro ⟨hid, hnew, hinside, hpos, hflags, ⟨hoffset, hlen⟩, h⟩
    split at h
    · next text htext =>
      cases h
      exact ⟨⟨hid, hinside, hpos, hflags, hoffset, hlen, text, htext⟩, hnew, text, htext, rfl⟩
    · cases h
  · rintro ⟨hl, hnew, text, htext, rfl⟩
    refine ⟨hl.id, hnew, hl.inside, hl.pos, hl.flags, ⟨hl.offset, hl.len⟩, ?_⟩
    rw [htext]
    rfl

/-- The loop over the records. -/
theorem checkRecords_eq_ok {es : List (BpvAdded × Nat)} {seen : List AddedFacts} (hseen : (seen.map (·.record.id)).Nodup) :
    (∀ out, es.foldlM (checkRecord c.vocabCount c.offsets c.blob) seen = .ok out →
      out.map (·.record) = seen.map (·.record) ++ es.map Prod.fst) ∧
    ((∃ out, es.foldlM (checkRecord c.vocabCount c.offsets c.blob) seen = .ok out) ↔
      (∀ e ∈ es, Listed c e.1) ∧ (seen.map (·.record.id) ++ es.map (·.1.id)).Nodup) := by
  induction es generalizing seen with
  | nil =>
    refine ⟨?_, ?_⟩
    · rintro out ⟨⟩
      rw [List.map_nil, List.append_nil]
    · rw [List.map_nil, List.append_nil]
      exact iff_of_true ⟨seen, rfl⟩ ⟨List.forall_mem_nil _, hseen⟩
  | cons e es ih =>
    obtain ⟨a, i⟩ := e
    -- the record at hand, and the rest behind it
    have hnext : ∀ text, a.id ∉ seen.map (·.record.id) → ((seen ++ [(⟨a, text⟩ : AddedFacts)]).map (·.record.id)).Nodup := by
      intro text hnew
      rw [List.map_append, List.nodup_append]
      refine ⟨hseen, List.nodup_singleton _, ?_⟩
      rintro id hid id' hid' rfl
      obtain rfl : id = a.id := List.mem_singleton.1 hid'
      exact hnew hid
    have hids : ∀ text, (seen ++ [(⟨a, text⟩ : AddedFacts)]).map (·.record.id) ++ es.map (·.1.id) =
        seen.map (·.record.id) ++ ((a, i) :: es).map (·.1.id) := by
      intro text
      rw [List.map_append, List.append_assoc]
      rfl
    constructor
    · intro out h
      rw [List.foldlM_cons] at h
      obtain ⟨next, hstep, h⟩ := bind_eq_ok.1 h
      obtain ⟨-, hnew, text, -, rfl⟩ := checkRecord_eq_ok.1 hstep
      rw [(ih (hnext text hnew)).1 out h, List.map_append, List.append_assoc]
      rfl
    · rw [List.forall_mem_cons]
      constructor
      · rintro ⟨out, h⟩
        rw [List.foldlM_cons] at h
        obtain ⟨next, hstep, h⟩ := bind_eq_ok.1 h
        obtain ⟨hl, hnew, text, -, rfl⟩ := checkRecord_eq_ok.1 hstep
        obtain ⟨hrest, hnodup⟩ := (ih (hnext text hnew)).2.1 ⟨out, h⟩
        rw [hids] at hnodup
        exact ⟨⟨hl, hrest⟩, hnodup⟩
      · rintro ⟨⟨hl, hrest⟩, hnodup⟩
        obtain ⟨text, htext⟩ := hl.text
        have hnew : a.id ∉ seen.map (·.record.id) := by
          intro hmem
          have hdisjoint := (List.nodup_append.1 hnodup).2.2
          exact hdisjoint _ hmem _ List.mem_cons_self rfl
        rw [← hids text] at hnodup
        obtain ⟨out, hout⟩ := (ih (hnext text hnew)).2.2 ⟨hrest, hnodup⟩
        refine ⟨out, ?_⟩
        rw [List.foldlM_cons]
        exact bind_eq_ok.2 ⟨_, checkRecord_eq_ok.2 ⟨hl, hnew, text, htext, rfl⟩, hout⟩

variable {image : List UInt8}

/-- The checks of the added records. -/
theorem checkAdded_eq_ok (hsize : ((BpvHeader.read image).added.bytes image).length = (BpvHeader.read image).added.size) :
    (∀ out, checkAdded (Image.of image) (Contents.read image).offsets (Contents.read image).blob = .ok out →
      out.map (·.record) = (Contents.read image).records) ∧
    ((∃ out, checkAdded (Image.of image) (Contents.read image).offsets (Contents.read image).blob = .ok out) ↔
      (BpvHeader.read image).added.size = 16 * (BpvHeader.read image).addedCount ∧
      (∀ a ∈ (Contents.read image).records, Listed (.read image) a) ∧
      ((Contents.read image).records.map BpvAdded.id).Nodup) := by
  have hcount : (Image.of image).vocabCount = (Contents.read image).vocabCount := (Contents.read_vocabCount image).symm
  have hraw : (Image.of image).sectionBytes 4 = (BpvHeader.read image).added.bytes image := rfl
  have hread : (BpvHeader.read image).added.size = 16 * (BpvHeader.read image).addedCount →
      ∃ ws, readU32Array ((BpvHeader.read image).added.bytes image) = .ok ws ∧
        addedRecords ws = (Contents.read image).records := by
    intro hlen
    exact ⟨_, readU32Array_eq_ok (show _ = 4 * ((BpvHeader.read image).addedCount * 4) by omega), rfl⟩
  have hfst : (Contents.read image).records.zipIdx.map Prod.fst = (Contents.read image).records := List.zipIdx_map_fst 0 _
  have hids : (Contents.read image).records.zipIdx.map (·.1.id) = (Contents.read image).records.map BpvAdded.id := by
    conv_rhs => rw [← hfst, List.map_map]
    rfl
  obtain ⟨hvalue, hiff⟩ := @checkRecords_eq_ok (.read image) (Contents.read image).records.zipIdx [] .nil
  rw [List.map_nil, List.nil_append, hids] at hiff
  have hall : (∀ e ∈ (Contents.read image).records.zipIdx, Listed (.read image) e.1) ↔
      ∀ a ∈ (Contents.read image).records, Listed (.read image) a := by
    conv_rhs => rw [← hfst]
    exact List.forall_mem_map.symm
  rw [hall] at hiff
  unfold checkAdded
  rw [hraw, hcount, show (Image.of image).addedCount = (BpvHeader.read image).addedCount from rfl]
  dsimp only
  rw [hsize]
  simp only [check_bind, decide_eq_true_eq]
  constructor
  · rintro out ⟨hlen, h⟩
    obtain ⟨ws, hws, h⟩ := bind_eq_ok.1 h
    obtain ⟨ws', hws', hrecords⟩ := hread hlen
    rw [hws] at hws'
    cases hws'
    rw [hrecords] at h
    rw [hvalue out h, hfst]
    rfl
  · constructor
    · rintro ⟨out, hlen, h⟩
      obtain ⟨ws, hws, h⟩ := bind_eq_ok.1 h
      obtain ⟨ws', hws', hrecords⟩ := hread hlen
      rw [hws] at hws'
      cases hws'
      rw [hrecords] at h
      exact ⟨hlen, hiff.1 ⟨out, h⟩⟩
    · rintro ⟨hlen, hrest⟩
      obtain ⟨ws, hws, hrecords⟩ := hread hlen
      obtain ⟨out, hout⟩ := hiff.2 hrest
      exact ⟨out, hlen, bind_eq_ok.2 ⟨ws, hws, by rw [hrecords]; exact hout⟩⟩

end Added

section Strings

/-- The section starts with a text. -/
theorem checkMeta_eq_ok {info : List UInt8} {strings : List (List Nat)} (h : checkMeta info = .ok strings) :
    4 ≤ info.length ∧ wordAt 4 info 0 ≤ info.length - 4 := by
  obtain ⟨ss, hss, h⟩ := bind_eq_ok.1 h
  obtain ⟨hthree, -⟩ := check_bind.1 h
  cases info with
  | nil =>
    cases hss
    cases hthree
  | cons b info =>
    rw [List.length_cons, metaStrings] at hss
    · obtain ⟨hfour, hss⟩ := check_bind.1 hss
      obtain ⟨hln, -⟩ := check_bind.1 hss
      exact ⟨of_decide_eq_true hfour, of_decide_eq_true hln⟩
    · exact List.cons_ne_nil _ _

/-- What was written of some texts is read. -/
theorem metaStrings_encodeMeta {texts : List Str} {info : List UInt8} (h : encodeMeta texts = .ok info)
    (hchars : ∀ text ∈ texts, ∀ ch ∈ text, ch < 0x110000) {fuel : Nat} (hfuel : info.length ≤ fuel) (n : Nat) :
    metaStrings fuel n info = .ok texts := by
  obtain ⟨blobs, hblobs, hflat⟩ := bind_eq_ok.1 h
  cases hflat
  have hall := mapM_eq_ok.1 hblobs
  clear h hblobs
  induction hall generalizing fuel n with
  | nil =>
    cases fuel with
    | zero => rfl
    | succ fuel => rfl
  | @cons text blob texts blobs hblob _ ih =>
    obtain ⟨hfirst, hchars⟩ := List.forall_mem_cons.1 hchars
    obtain ⟨hfour, hln, hunits, hrest⟩ := text_read hblob hfirst blobs.flatten
    rw [List.flatten_cons] at hfuel ⊢
    generalize blob ++ blobs.flatten = bs at hfuel hfour hln hunits hrest ⊢
    obtain ⟨fuel, rfl⟩ : ∃ m, fuel = m + 1 := ⟨fuel - 1, by omega⟩
    obtain ⟨b, bs', rfl⟩ := List.exists_cons_of_length_pos (show 0 < bs.length by omega)
    rw [metaStrings]
    swap
    · exact List.cons_ne_nil _ _
    refine check_bind.2 ⟨decide_eq_true hfour, check_bind.2 ⟨decide_eq_true hln, ?_⟩⟩
    have htext : decodeUtf8 (((b :: bs').drop 4).take (littleEndian ((b :: bs').take 4))) = some text := by
      unfold decodeUtf8
      rw [hunits, if_pos]
      rw [List.all_eq_true]
      exact fun ch hch => decide_eq_true (hfirst ch hch)
    rw [htext, hrest]
    have hlen := congrArg List.length hrest
    rw [List.length_drop] at hlen
    exact bind_eq_ok.2 ⟨texts, ih hchars (n + 1) (by omega), rfl⟩

end Strings

section Whole

variable {image : List UInt8}

/-- An image as the inspector wants it. -/
structure Inspected (image : List UInt8) : Prop where
  framed : Framed image
  profile : (BpvHeader.read image).profileId < 2
  tabled : Tabled (.read image)
  paired : Paired (.read image)
  listed : ∀ a ∈ (Contents.read image).records, Listed (.read image) a
  distinct : ((Contents.read image).records.map BpvAdded.id).Nodup
  strings : ∃ strings, checkMeta ((BpvHeader.read image).metaInfo.bytes image) = .ok strings

/-- A section of a framed image has the size the table says. -/
theorem length_section (hsections : InOrder image.length HEADER_SIZE ((BpvHeader.read image).sections.map fun s => (s.off, s.size)))
    {s : BpvSection} (hs : s ∈ (BpvHeader.read image).sections) : (s.bytes image).length = s.size := by
  obtain ⟨-, -, hend⟩ := hsections.1 _ (List.mem_map_of_mem hs)
  dsimp only at hend
  unfold BpvSection.bytes
  rw [List.length_take, List.length_drop]
  omega

/-- What is known of an image that passes, and of what is reported. -/
theorem inspect_sound {facts : Facts} (h : Image.parse image >>= integrityChecks = .ok facts) : Inspected image ∧
    Looped (.read image) (2 ^ (Contents.read image).slotsLog2) facts.pairs ∧
      facts.added.map (·.record) = (Contents.read image).records := by
  have htoken : tokenBytes (Contents.read image).offsets (Contents.read image).blob =
      spanOf (Contents.read image).offsets (Contents.read image).blob := rfl
  obtain ⟨img, himg, h⟩ := bind_eq_ok.1 h
  obtain ⟨rfl, hsize, hmagic, hversion, hflags, hprofile, hreserved, hcount, hlog2, hpadding, hsections, hfirst⟩ :=
    parse_eq_ok.1 himg
  unfold integrityChecks at h
  obtain ⟨r, htokens, h⟩ := bind_eq_ok.1 h
  obtain ⟨rfl, hoffsets, hzero, hmono, hlast⟩ :=
    (checkTokens_eq_ok (length_section hsections (by simp [BpvHeader.sections]))).1 htokens
  dsimp only at h
  rw [htoken] at h
  obtain ⟨hbytes, h⟩ := part_bind.1 h
  obtain ⟨hbytesSize, hbyte, -⟩ := (checkByteIds_eq_ok (length_section hsections (by simp [BpvHeader.sections]))).1 hbytes
  obtain ⟨f, hpairs, h⟩ := bind_eq_ok.1 h
  obtain ⟨hpairsSize, hpaired, hlooped⟩ :=
    (checkPairs_eq_ok (length_section hsections (by simp [BpvHeader.sections]))).1 f hpairs
  obtain ⟨added, hadded, h⟩ := bind_eq_ok.1 h
  obtain ⟨hrecords, haddedIff⟩ := checkAdded_eq_ok (length_section hsections (by simp [BpvHeader.sections]))
  obtain ⟨haddedSize, hlisted, hdistinct⟩ := haddedIff.1 ⟨added, hadded⟩
  obtain ⟨strings, hstrings, h⟩ := bind_eq_ok.1 h
  cases h
  refine ⟨⟨?_, hprofile, ⟨hzero, hmono, hlast, hbyte⟩, hpaired, hlisted, hdistinct, strings, hstrings⟩, hlooped,
    hrecords added hadded⟩
  exact ⟨hsize, hmagic, hversion, hflags, hreserved, hcount, hlog2, hpadding, hsections, hfirst, hoffsets, hpairsSize,
    hbytesSize, haddedSize⟩

theorem inspect_complete (hi : Inspected image) : ∃ facts, Image.parse image >>= integrityChecks = .ok facts := by
  have hbyteIds : (Contents.read image).byteIds.length = 256 := length_words 4 _ _
  have hf := hi.framed
  have hsections := hf.sections
  obtain ⟨f, hpairs⟩ := (checkPairs_eq_ok (length_section hsections (by simp [BpvHeader.sections]))).2 hf.pairs hi.paired
  obtain ⟨added, hadded⟩ := (checkAdded_eq_ok (length_section hsections (by simp [BpvHeader.sections]))).2.2
    ⟨hf.added, hi.listed, hi.distinct⟩
  obtain ⟨strings, hstrings⟩ := hi.strings
  have hparse : Image.parse image = .ok (Image.of image) := parse_eq_ok.2 ⟨rfl, hf.size, hf.magic, hf.version, hf.flags,
    hi.profile, hf.reserved, hf.count, hf.log2, hf.padding, hsections, hf.first⟩
  have htokens : checkTokens (Image.of image) = .ok ((Contents.read image).offsets, (Contents.read image).blob) :=
    (checkTokens_eq_ok (length_section hsections (by simp [BpvHeader.sections]))).2 ⟨rfl, hf.offsets, hi.tabled.zero,
      hi.tabled.mono, hi.tabled.last⟩
  have hbytes : checkByteIds (Image.of image) (spanOf (Contents.read image).offsets (Contents.read image).blob) = .ok () := by
    have hdedup := List.dedup_eq_self.2 (hi.tabled.distinct hbyteIds)
    refine (checkByteIds_eq_ok (length_section hsections (by simp [BpvHeader.sections]))).2
      ⟨hf.byteIds, hi.tabled.byte, ?_⟩
    rw [hdedup]
    exact hbyteIds
  have htoken : tokenBytes (Contents.read image).offsets (Contents.read image).blob =
      spanOf (Contents.read image).offsets (Contents.read image).blob := rfl
  rw [hparse, ok_bind]
  unfold integrityChecks
  rw [htokens, ok_bind]
  dsimp only
  rw [htoken, hbytes, ok_bind, hpairs, ok_bind, hadded, ok_bind]
  exact ⟨_, bind_eq_ok.2 ⟨strings, hstrings, rfl⟩⟩

/-- **What passes.** -/
theorem inspect_eq_ok : (∃ facts, Image.parse image >>= integrityChecks = .ok facts) ↔ Inspected image := by
  constructor
  · rintro ⟨facts, h⟩
    exact (inspect_sound h).1
  · exact inspect_complete

/-- The status of the inspector. -/
theorem main_eq_zero {samples : Int} (hsamples : 1 ≤ samples) : main samples (some image) = 0 ↔ Inspected image := by
  rw [← inspect_eq_ok]
  unfold main
  rw [if_neg (by omega)]
  dsimp only
  split
  · next facts h => exact iff_of_true rfl ⟨facts, h⟩
  · next e h =>
    apply iff_of_false (by decide)
    rintro ⟨facts, hfacts⟩
    rw [h] at hfacts
    cases hfacts

end Whole

end Bytepair.Dump
