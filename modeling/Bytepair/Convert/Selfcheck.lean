import Bytepair.Convert.Verified

/-!
# The converter checks what it wrote

`convert_verifies`: the check passes on every image a conversion writes whose table keeps below the bound of
the check, so `main` does not end with status 3.
-/

namespace Bytepair.Convert
open Support Support.Probing

section Frame

theorem length_layout {cursor : Nat} {payloads : List (List UInt8)} (h : 64 ∣ cursor) :
    64 ∣ cursor + (layout cursor payloads).length := by
  induction payloads generalizing cursor with
  | nil => exact h
  | cons payload payloads ih =>
    obtain ⟨hle, hdvd⟩ := alignUp_spec (cursor + payload.length)
    have hrest := ih hdvd
    rw [layout, List.length_append, List.length_append, List.length_replicate]
    rwa [show cursor + (payload.length + (alignUp (cursor + payload.length) SECTION_ALIGN - (cursor + payload.length)) +
        (layout (alignUp (cursor + payload.length) SECTION_ALIGN) payloads).length) =
      alignUp (cursor + payload.length) SECTION_ALIGN +
        (layout (alignUp (cursor + payload.length) SECTION_ALIGN) payloads).length by omega]

/-- What the loader does not look at: the reserved field, the padding and the hash. -/
theorem assemble_stamp {flags vocabCount addedCount slotsLog2 sourceHash : Nat} {payloads : List (List UInt8)}
    {image : List UInt8} (h : assemble flags vocabCount addedCount slotsLog2 sourceHash payloads = .ok image)
    (hsix : payloads.length = 6) :
    wordAt 4 image 28 = 0 ∧ (image.drop 136).take 56 = List.replicate 56 0 ∧ wordAt 8 image 128 = sourceHash ∧
      64 ∣ image.length ∧ vocabCount < 2 ^ 32 := by
  obtain ⟨fixed, hfixed, h⟩ := bind_eq_ok.1 h
  obtain ⟨table, htable, h⟩ := bind_eq_ok.1 h
  obtain ⟨hash, hhash, h⟩ := bind_eq_ok.1 h
  obtain ⟨hnarrow, rfl⟩ := pack_eq_ok.1 hfixed
  obtain ⟨hwide, rfl⟩ := pack_eq_ok.1 htable
  obtain ⟨hfits, rfl⟩ := pack_eq_ok.1 hhash
  have himage := Except.ok.inj h
  simp only [List.append_assoc] at himage
  have hsecs := length_sectionTable HEADER_SIZE payloads
  rw [hsix] at hsecs
  have htw : ((sectionTable HEADER_SIZE payloads).flatMap fun s => [s.1, s.2]).length = 12 := by
    rw [length_flatMap_pair, hsecs]
  have hpre : ([MAGIC, FORMAT_VERSION, flags, PROFILE_ID_GPT4_STYLE, vocabCount, addedCount, slotsLog2, 0].flatMap
      (toLittleEndian 4) ++ ((sectionTable HEADER_SIZE payloads).flatMap fun s => [s.1, s.2]).flatMap
        (toLittleEndian 8)).length = 128 := by
    rw [List.length_append, length_packed, length_packed, htw]
    rfl
  obtain ⟨hfield, -⟩ := header_words hnarrow hwide rfl himage
  rw [← List.append_assoc] at himage
  refine ⟨hfield 7 (by simp), ?_, ?_, ?_, ?_⟩
  · have hlen : ([sourceHash].flatMap (toLittleEndian 8)).length = 8 := length_packed 8 _
    rw [← himage, ← List.append_assoc, List.drop_left' (by rw [List.length_append, hpre, hlen])]
    exact List.take_left' List.length_replicate
  · have hword := wordAt_packed hfits ([MAGIC, FORMAT_VERSION, flags, PROFILE_ID_GPT4_STYLE, vocabCount, addedCount,
      slotsLog2, 0].flatMap (toLittleEndian 4) ++
        ((sectionTable HEADER_SIZE payloads).flatMap fun s => [s.1, s.2]).flatMap (toLittleEndian 8))
      (List.replicate 56 0 ++ layout HEADER_SIZE payloads) Nat.one_pos
    rw [himage, hpre] at hword
    exact hword
  · have hlen : image.length = HEADER_SIZE + (layout HEADER_SIZE payloads).length := by
      rw [← himage, List.length_append, hpre, List.length_append, length_packed, List.length_append, List.length_replicate,
        List.length_singleton]
      unfold HEADER_SIZE
      omega
    rw [hlen]
    exact length_layout (by decide)
  · exact hnarrow vocabCount (by simp)

/-- Framed, but for the size of the table. -/
theorem Assembled.framed {c : Contents} {image : List UInt8} (h : c.IsImage image) (hs : c.Sized) {hash : Nat}
    (hwritten : assemble c.flags c.vocabCount c.records.length c.slotsLog2 hash c.payloads = .ok image)
    (hflags : c.flags < 2) (hcount : 0 < c.vocabCount) : Framed image ↔ c.slotsLog2 ≤ 40 := by
  have hr := h.reads hs
  have hsections := hr.sections
  unfold sectionsOk at hsections
  simp only [Bool.and_eq_true, decide_eq_true_eq, and_assoc] at hsections
  obtain ⟨-, hoffsets, -, -, hpairs, -, hbyteIds, -, hadded, -⟩ := hsections
  obtain ⟨hreserved, hpadding, -, -, -⟩ := assemble_stamp hwritten rfl
  constructor
  · intro hf
    rw [← h.pairSlotsLog2]
    exact hf.log2
  · intro hlog2
    constructor
    · exact h.length
    · exact h.magic
    · exact h.formatVersion
    · rwa [h.flags]
    · exact hreserved
    · rwa [h.vocabCount]
    · rwa [h.pairSlotsLog2]
    · exact hpadding
    · rw [h.sections]
      refine ⟨fun s hmem => ?_, h.sorted⟩
      obtain ⟨payload, -, hplaced⟩ := (forall₂_mem h.placed).2 s hmem
      exact ⟨hplaced.start, Nat.mod_eq_zero_of_dvd hplaced.aligned, hplaced.inside⟩
    · exact congrArg Prod.fst (List.cons.inj h.sections).1
    · exact hoffsets
    · exact hpairs
    · exact hbyteIds
    · exact hadded

end Frame

section Source

/-- What an entry of `added_tokens` that passed its checks says. -/
theorem validateAdded_says {entry : Json} {t : AddedToken} (h : validateAdded entry = .ok t) :
    ∃ kvs, items entry = some kvs ∧ tokenId (get kvs "id" .null) = some t.tid ∧ get kvs "content" .null = .str t.content ∧
      truthy (get kvs "special" (.bool false)) = t.special := by
  obtain ⟨kvs, hkvs, h⟩ := bind_eq_ok.1 h
  obtain ⟨content, hcontent, h⟩ := bind_eq_ok.1 h
  obtain ⟨tid, htid, h⟩ := bind_eq_ok.1 h
  obtain ⟨_, -, h⟩ := bind_eq_ok.1 h
  cases h
  refine ⟨kvs, need_eq_ok.1 hkvs, need_eq_ok.1 htid, ?_, rfl⟩
  have hcontent := need_eq_ok.1 hcontent
  split at hcontent
  · next text heq =>
    split at hcontent
    · cases hcontent
      exact heq
    · cases hcontent
  · cases hcontent

/-- The added token of an id in the `dict` of the check. -/
def IsToken (source : List (Nat × List (Str × Json))) (t : AddedToken) : Prop :=
  ∃ kvs, source.lookup t.tid = some kvs ∧ get kvs "content" .null = .str t.content ∧
    truthy (get kvs "special" (.bool false)) = t.special

theorem sourceAdded_eq_ok {entries : List Json} {out : List AddedToken}
    (h : List.Forall₂ (fun entry t => validateAdded entry = .ok t) entries out) (hids : (out.map AddedToken.tid).Nodup) :
    ∃ source, sourceAdded entries = .ok source ∧ source.length = entries.length ∧ ∀ t ∈ out, IsToken source t := by
  -- the `dict` grows by every entry, as the ids differ
  suffices hrun : ∀ found : List (Nat × List (Str × Json)), (∀ t ∈ out, found.lookup t.tid = none) →
      ∃ source, entries.foldlM (fun found entry => do
          let t ← expect (items entry)
          let tid ← expect (tokenId (get t "id" .null))
          pure ((tid, t) :: found.filter (·.1 ≠ tid))) found = .ok source ∧
        source.length = found.length + entries.length ∧ (∀ t ∈ out, IsToken source t) ∧
        ∀ id, id ∉ out.map AddedToken.tid → source.lookup id = found.lookup id by
    obtain ⟨source, hrun, hlen, htokens, -⟩ := hrun [] fun _ _ => rfl
    exact ⟨source, hrun, by rw [hlen, List.length_nil, Nat.zero_add], htokens⟩
  induction h with
  | nil => exact fun found _ => ⟨found, rfl, rfl, List.forall_mem_nil _, fun _ _ => rfl⟩
  | @cons entry t entries out hentry _ ih =>
    intro found hfound
    obtain ⟨hnew, hids⟩ := List.nodup_cons.1 hids
    obtain ⟨kvs, hkvs, htid, hcontent, hspecial⟩ := validateAdded_says hentry
    have hfilter : found.filter (·.1 ≠ t.tid) = found := by
      rw [List.filter_eq_self]
      intro e he
      have hnone := List.lookup_eq_none_iff.1 (hfound t List.mem_cons_self) e he
      exact decide_eq_true (Ne.symm (bne_iff_ne.1 hnone))
    have hstep : (do
        let u ← expect (items entry)
        let tid ← expect (tokenId (get u "id" .null))
        pure ((tid, u) :: found.filter (·.1 ≠ tid)) : Except VerifyFailure _) = .ok ((t.tid, kvs) :: found) := by
      refine bind_eq_ok.2 ⟨kvs, expect_eq_ok.2 hkvs, bind_eq_ok.2 ⟨t.tid, expect_eq_ok.2 htid, ?_⟩⟩
      rw [hfilter]
      rfl
    have hmore : ∀ u ∈ out, ((t.tid, kvs) :: found).lookup u.tid = none := by
      intro u hu
      have hne : u.tid ≠ t.tid := by
        intro heq
        exact hnew (heq ▸ List.mem_map_of_mem hu)
      rw [List.lookup_cons, beq_false_of_ne hne]
      exact hfound u (List.mem_cons_of_mem _ hu)
    obtain ⟨source, hrun, hlen, htokens, hkeep⟩ := ih hids ((t.tid, kvs) :: found) hmore
    refine ⟨source, ?_, ?_, ?_, ?_⟩
    · rw [List.foldlM_cons, hstep]
      exact hrun
    · rw [hlen, List.length_cons, List.length_cons]
      omega
    · rw [List.forall_mem_cons]
      refine ⟨⟨kvs, ?_, hcontent, hspecial⟩, htokens⟩
      rw [hkeep t.tid hnew, List.lookup_cons, beq_self_eq_true]
    · intro id hid
      rw [List.map_cons, List.mem_cons, not_or] at hid
      rw [hkeep id hid.2, List.lookup_cons, beq_false_of_ne hid.1]

/-- The slots of so many merges are as many occupied slots, and all of them where there are no more. -/
theorem le_occupiedBelow {key : Nat → Nat} {n m : Nat} {slot : Nat → Nat} (hslot : ∀ r < m, slot r < n ∧ key (slot r) ≠ EMPTY_KEY)
    (hinj : ∀ r < m, ∀ r' < m, slot r = slot r' → r = r') : m ≤ occupiedBelow key n ∧
      (occupiedBelow key n = m → ∀ s < n, key s ≠ EMPTY_KEY → ∃ r < m, slot r = s) := by
  have hnodup : ((List.range m).map slot).Nodup := by
    apply List.Nodup.map_on _ List.nodup_range
    intro r hr r' hr' heq
    exact hinj r (List.mem_range.1 hr) r' (List.mem_range.1 hr') heq
  have hsubset : (List.range m).map slot ⊆ (List.range n).filter fun s => key s ≠ BPV_PAIR_EMPTY := by
    intro s hs
    obtain ⟨r, hr, rfl⟩ := List.mem_map.1 hs
    obtain ⟨hlt, hne⟩ := hslot r (List.mem_range.1 hr)
    exact List.mem_filter.2 ⟨List.mem_range.2 hlt, decide_eq_true hne⟩
  have hsubperm := List.subperm_of_subset hnodup hsubset
  have hle := hsubperm.length_le
  have hcount : occupiedBelow key n = ((List.range n).filter fun s => key s ≠ BPV_PAIR_EMPTY).length :=
    List.countP_eq_length_filter
  rw [← hcount, List.length_map, List.length_range] at hle
  refine ⟨hle, fun heq s hs hne => ?_⟩
  have hperm := hsubperm.perm_of_length_le (by rw [← hcount, heq, List.length_map, List.length_range])
  have hmem := hperm.mem_iff.2 (List.mem_filter.2 ⟨List.mem_range.2 hs, decide_eq_true hne⟩)
  obtain ⟨r, hr, hrs⟩ := List.mem_map.1 hmem
  exact ⟨r, List.mem_range.1 hr, hrs⟩

variable {s : Source} {p : Passes} {c : Contents}

/-- A merge is found where it was put. -/
theorem Built.findPair (h : Built s p c) {rank : Nat} {entry : Json} (hentry : s.merges[rank]? = some entry) :
    ∃ a b m t, Joins s.vocab rank entry a b m ∧ c.findPair (pairKey a b) = some (rank <<< 32 ||| m) ∧ t < 2 ^ c.slotsLog2 ∧
      keyOf c.pairs t ≠ EMPTY_KEY ∧ valueOf c.pairs t = rank <<< 32 ||| m := by
  obtain ⟨hkey, hvalue⟩ := keyOf_zip (h.filled.keys.trans h.filled.values.symm)
  rw [← h.pairs] at hkey hvalue
  obtain ⟨a, b, m, t, hjoins, ht, hne, htkey, htvalue⟩ :=
    h.filled.merge h.matched entry rank (List.mem_zipIdx_iff_getElem?.2 hentry)
  have hbound : fmix64 (slotKey p.table.keys t) % 2 ^ c.slotsLog2 < 2 ^ c.slotsLog2 := Nat.mod_lt _ (Nat.two_pow_pos _)
  have hpresent := probe_present h.filled.reach ht hne hbound
  refine ⟨a, b, m, t, hjoins, ?_, ht, by rwa [hkey], by rwa [hvalue]⟩
  unfold Contents.findPair
  rw [hkey, hvalue, ← htkey, hpresent]
  dsimp only
  rw [if_pos rfl, htvalue]

/-- As many slots as merges are occupied. -/
theorem Built.occupied (h : Built s p c) (hcount : c.vocabCount < 2 ^ 32) :
    occupiedBelow (keyOf c.pairs) (2 ^ c.slotsLog2) = s.merges.length := by
  have hkey := (keyOf_zip (h.filled.keys.trans h.filled.values.symm)).1
  rw [← h.pairs] at hkey
  apply Nat.le_antisymm
  · have hle := h.filled.occupied
    rwa [← hkey, List.length_zipIdx] at hle
  · have hfound : ∀ rank, ∃ t, rank < s.merges.length → t < 2 ^ c.slotsLog2 ∧ keyOf c.pairs t ≠ EMPTY_KEY ∧
        valueOf c.pairs t / 2 ^ 32 = rank := by
      intro rank
      by_cases hrank : rank < s.merges.length
      · obtain ⟨a, b, m, t, hjoins, -, ht, hne, hvalue⟩ := h.findPair (List.getElem?_eq_getElem hrank)
        have hm := (h.merge_lt ⟨_, List.getElem?_eq_getElem hrank, hjoins⟩).2
        refine ⟨t, fun _ => ⟨ht, hne, ?_⟩⟩
        rw [hvalue, ← Nat.shiftLeft_add_eq_or_of_lt (show m < 2 ^ 32 by omega), Nat.shiftLeft_eq]
        omega
      · exact ⟨0, fun hlt => absurd hlt hrank⟩
    choose slot hslot using hfound
    apply (@le_occupiedBelow _ _ _ slot ?_ ?_).1
    · exact fun rank hrank => ⟨(hslot rank hrank).1, (hslot rank hrank).2.1⟩
    · intro rank hrank rank' hrank' heq
      rw [← (hslot rank hrank).2.2, heq, (hslot rank' hrank').2.2]

/-- The record of an added token lists it. -/
theorem Built.lists (h : Built s p c) {source : List (Nat × List (Str × Json))} {t : AddedToken} (ht : t ∈ p.tokens)
    (hsource : IsToken source t) : Lists c source ⟨t.tid, offsetOf c.offsets t.tid,
      ((p.addedBytes.lookup t.tid).getD []).length, if t.special then 1 else 0⟩ := by
  obtain ⟨kvs, hlookup, hcontent, hspecial⟩ := hsource
  obtain ⟨bytes, hadded, hbytes⟩ := h.lookup_added ht
  obtain ⟨entry, hentry, hvalid⟩ := h.mem_tokens.1 ht
  have howns : s.Owns t.tid bytes := .inr ⟨entry, hentry, t, hvalid, rfl, hbytes⟩
  have hid := h.owns_lt howns
  have hspan := h.span_owned howns
  have hnext := h.offset_succ hid
  have hpiece : pieceOf p.idToBytes p.addedBytes t.tid = bytes := by
    unfold pieceOf
    rw [h.owns_iff.1 howns]
    rfl
  have hmono : ∀ i ≤ c.vocabCount, offsetOf c.offsets i ≤ c.blob.length := by
    intro i hi
    rw [h.offsets, h.blob, offsetOf_scanl _ 0 (by rwa [List.length_map, List.length_range]), Nat.zero_add]
    generalize (List.range c.vocabCount).map (pieceOf p.idToBytes p.addedBytes) = pieces
    conv_rhs => rw [← List.take_append_drop i pieces, List.flatten_append, List.length_append]
    exact Nat.le_add_right _ _
  have hinside := hmono (t.tid + 1) hid
  rw [hpiece] at hnext
  unfold spanOf at hspan
  rw [show offsetOf c.offsets (t.tid + 1) - offsetOf c.offsets t.tid = bytes.length by omega] at hspan
  have hlen : ((p.addedBytes.lookup t.tid).getD []).length = bytes.length := by
    rw [hadded]
    rfl
  rw [hlen]
  constructor
  · exact hid
  · dsimp only
    omega
  · dsimp only
    split <;> decide
  · rfl
  · dsimp only
    omega
  · refine ⟨kvs, hlookup, ?_, by rw [hspecial]⟩
    unfold contentBytes
    dsimp only
    rw [hcontent, hspan]
    exact expect_eq_ok.2 (toOption_eq_some.2 hbytes)

/-- **A conversion says what its source says.** -/
theorem Built.represents (h : Built s p c) (hcount : c.vocabCount < 2 ^ 32) : Represents c s := by
  obtain ⟨out, hout, hperm⟩ := h.tokens
  have hids : (out.map AddedToken.tid).Nodup := by
    rw [← (hperm.map AddedToken.tid).nodup_iff]
    exact (List.pairwise_map.2 (h.sorted.imp Nat.ne_of_lt))
  obtain ⟨source, hsource, hlen, htokens⟩ := sourceAdded_eq_ok (mapM_eq_ok.1 hout) hids
  constructor
  · exact h.occupied hcount
  · intro rank entry hentry
    obtain ⟨a, b, m, -, hjoins, hfind, -⟩ := h.findPair hentry
    exact ⟨a, b, m, hjoins, hfind⟩
  · intro text id hmem
    obtain ⟨tid, raw, htid, rfl, hlookup⟩ := h.decoded.entry text id hmem
    have howns : s.Owns tid raw := .inl ⟨id, hmem, htid⟩
    exact ⟨tid, raw, htid, rfl, h.owns_lt howns, h.span_owned howns⟩
  · refine ⟨source, hsource, ?_, ?_⟩
    · rw [hlen, h.records, List.length_map, hperm.length_eq, (mapM_eq_ok.1 hout).length_eq]
    · intro a ha
      rw [h.records] at ha
      obtain ⟨t, ht, rfl⟩ := List.mem_map.1 ha
      exact h.lists ht (htokens t (hperm.mem_iff.1 ht))
  · exact h.flags

end Source

section Strings

/-- What was written as UTF-8 is read. -/
theorem units_encodeUtf8 {text : Str} {bytes : List UInt8} (h : encodeUtf8 text = .ok bytes)
    (hchars : ∀ ch ∈ text, ch < 0x110000) : units bytes = text := by
  unfold encodeUtf8 at h
  split at h
  · cases h
  · next hscalar =>
    cases h
    apply units_encodeUnits
    intro ch hch
    have hlt := hchars ch hch
    simp only [List.any_eq_true, not_exists, not_and, Bool.and_eq_true, decide_eq_true_eq] at hscalar
    have hno := hscalar ch hch
    unfold IsScalar
    omega

/-- What was written of a text is read: its length, and its characters. -/
theorem text_read {text : Str} {blob : List UInt8}
    (h : (do
      let bytes ← encodeUtf8 text
      pure ((← u32Array [bytes.length]) ++ bytes)) = .ok blob)
    (hchars : ∀ ch ∈ text, ch < 0x110000) (rest : List UInt8) :
    4 ≤ (blob ++ rest).length ∧ littleEndian ((blob ++ rest).take 4) ≤ (blob ++ rest).length - 4 ∧
      units (((blob ++ rest).drop 4).take (littleEndian ((blob ++ rest).take 4))) = text ∧
      (blob ++ rest).drop (4 + littleEndian ((blob ++ rest).take 4)) = rest := by
  obtain ⟨bytes, hbytes, h⟩ := bind_eq_ok.1 h
  obtain ⟨size, hsize, h⟩ := bind_eq_ok.1 h
  cases h
  obtain ⟨hfits, rfl⟩ := pack_eq_ok.1 hsize
  have hunits := units_encodeUtf8 hbytes hchars
  have hword := hfits _ (List.mem_singleton_self _)
  have hlen : ([bytes.length].flatMap (toLittleEndian 4)).length = 4 := length_packed 4 _
  rw [List.append_assoc]
  generalize hbs : [bytes.length].flatMap (toLittleEndian 4) ++ (bytes ++ rest) = bs
  have htake : bs.take 4 = toLittleEndian 4 bytes.length := by
    rw [← hbs, List.take_left' hlen]
    exact List.append_nil _
  have hdrop : bs.drop 4 = bytes ++ rest := by
    rw [← hbs, List.drop_left' hlen]
  have hsize : bs.length - 4 = bytes.length + rest.length := by
    rw [← List.length_drop, hdrop, List.length_append]
  have hfour : 4 ≤ bs.length := by
    rw [← hbs, List.length_append, hlen]
    exact Nat.le_add_right _ _
  rw [htake, littleEndian_toLittleEndian hword, ← List.drop_drop, hdrop, List.take_left, hunits, List.drop_left]
  exact ⟨hfour, by omega, rfl, rfl⟩

/-- What was written of some texts is read. -/
theorem metaStrings_encodeMeta {texts : List Str} {info : List UInt8} (h : encodeMeta texts = .ok info)
    (hchars : ∀ text ∈ texts, ∀ ch ∈ text, ch < 0x110000) (rest : List UInt8) :
    metaStrings texts.length (info ++ rest) = .ok (texts, rest) := by
  obtain ⟨blobs, hblobs, hflat⟩ := bind_eq_ok.1 h
  cases hflat
  have hall := mapM_eq_ok.1 hblobs
  clear h hblobs
  induction hall with
  | nil => rfl
  | @cons text blob texts blobs hblob _ ih =>
    obtain ⟨hfirst, hchars⟩ := List.forall_mem_cons.1 hchars
    obtain ⟨hfour, hln, hunits, hrest⟩ := text_read hblob hfirst (blobs.flatten ++ rest)
    rw [List.flatten_cons, List.append_assoc]
    generalize blob ++ (blobs.flatten ++ rest) = bs at hfour hln hunits hrest ⊢
    rw [List.length_cons, metaStrings]
    refine check_bind.2 ⟨decide_eq_true hfour, check_bind.2 ⟨decide_eq_true hln, ?_⟩⟩
    refine bind_eq_ok.2 ⟨text, ?_, bind_eq_ok.2 ⟨(texts, rest), ?_, rfl⟩⟩
    · unfold decodeUtf8
      rw [hunits, if_pos]
      rw [List.all_eq_true]
      exact fun ch hch => decide_eq_true (hfirst ch hch)
    · rw [hrest]
      exact ih hchars

theorem version_chars : ((str CONVERTER_VERSION).all (· < 0x110000) && (str PROFILE1_REGEX).all (· < 0x110000)) = true := by
  decide +kernel

/-- The three texts of the last section. -/
theorem verifyMeta_encodeMeta {name : Str} {info : List UInt8} (hname : ∀ ch ∈ name, ch < 0x110000)
    (h : encodeMeta [name, str CONVERTER_VERSION, str PROFILE1_REGEX] = .ok info) : verifyMeta name info = .ok () := by
  obtain ⟨hversion, hregex⟩ := Bool.and_eq_true_iff.1 version_chars
  have hread := metaStrings_encodeMeta h (by
    intro text htext ch hch
    rcases List.mem_cons.1 htext with rfl | htext
    · exact hname ch hch
    · rcases List.mem_cons.1 htext with rfl | htext
      · exact of_decide_eq_true (List.all_eq_true.1 hversion ch hch)
      · cases List.mem_singleton.1 htext
        exact of_decide_eq_true (List.all_eq_true.1 hregex ch hch)) []
  rw [List.append_nil] at hread
  refine bind_eq_ok.2 ⟨_, hread, check_bind.2 ⟨rfl, ?_⟩⟩
  refine check_bind.2 ⟨decide_eq_true rfl, check_bind.2 ⟨decide_eq_true rfl, ?_⟩⟩
  exact vrequire_eq_ok.2 (decide_eq_true rfl)

end Strings

section Main

/-- A table that is too large is what the check stops at. -/
theorem verifyHeader_refuses {image raw : List UInt8} (hsize : HEADER_SIZE ≤ image.length)
    (hblocks : image.length % SECTION_ALIGN = 0) (hmagic : (BpvHeader.read image).magic = MAGIC)
    (hversion : (BpvHeader.read image).formatVersion = FORMAT_VERSION) (hflags : (BpvHeader.read image).flags < 2)
    (hprofile : (BpvHeader.read image).profileId = PROFILE_ID_GPT4_STYLE) (hreserved : wordAt 4 image 28 = 0)
    (hcount : 0 < (BpvHeader.read image).vocabCount) (hlarge : 40 < (BpvHeader.read image).pairSlotsLog2) :
    ∃ template args, verifyHeader image raw = .error (.verify template args) := by
  have hno : ¬(MIN_PAIR_SLOTS_LOG2 ≤ (BpvHeader.read image).pairSlotsLog2 ∧ (BpvHeader.read image).pairSlotsLog2 ≤ 40) := by
    omega
  rw [← shiftRight_one_eq_zero] at hflags
  unfold BpvHeader.read at hmagic hversion hflags hprofile hcount hno
  dsimp only at hmagic hversion hflags hprofile hcount hno
  refine ⟨"implausible pair_slots_log2 %d", [.int (wordAt 4 image 24)], ?_⟩
  unfold verifyHeader
  simp only [Nat.mul_zero, Nat.mul_one, Nat.reduceMul, hsize, hblocks, hmagic, hversion, hflags, hprofile, hreserved, hcount,
    vrequire, decide_true, if_true, ok_bind, ← Bool.decide_and, hno, decide_false, Bool.false_eq_true, if_false]
  rfl

variable {ceilLog2 : Nat → Nat} {raw : List UInt8} {doc : Json} {name : Str} {image : List UInt8}

/-- **What is written passes**, if its table is not too large for the check. -/
theorem convert_verifies (h : convert ceilLog2 raw doc name = .ok image) (hname : ∀ ch ∈ name, ch < 0x110000) :
    ∃ s, doc.source = some s ∧ (verifyImage image raw doc name = .ok () ↔ tableLog2 ceilLog2 s.merges.length ≤ 40) ∧
      (40 < tableLog2 ceilLog2 s.merges.length → ∃ template args, verifyImage image raw doc name = .error (.verify template args)) := by
  obtain ⟨s, p, c, hs, hb, hsized, hslots, hinfo, hwritten⟩ := convert_written h
  have himage : c.IsImage image := assemble_read hwritten rfl
  obtain ⟨hreserved, hpadding, hhash, hblocks, hcount⟩ := assemble_stamp hwritten rfl
  have hflags : c.flags < 2 := by
    rw [hb.flags]
    split <;> decide
  obtain ⟨top, -, htop⟩ := hb.top
  have hframed := Assembled.framed himage hsized hwritten hflags (by omega)
  have hread := Contents.read_eq himage hsized
  have hlow : MIN_PAIR_SLOTS_LOG2 ≤ c.slotsLog2 := by
    rw [hslots]
    unfold tableLog2
    split
    · exact Nat.le_refl _
    · exact Nat.le_max_left _ _
  refine ⟨s, hs, ?_, ?_⟩
  · rw [verifyImage_eq_ok, ← hslots, ← hframed]
    constructor
    · rintro ⟨s', -, hv⟩
      exact hv.framed
    · intro hf
      refine ⟨s, hs, hf, Nat.mod_eq_zero_of_dvd hblocks, himage.profileId, ?_, hhash, ?_, ?_, ?_⟩
      · rwa [himage.pairSlotsLog2]
      · rw [hread]
        exact hb.tabled
      · rw [hread]
        exact hb.represents hcount
      · rw [(himage.reads hsized).info]
        exact verifyMeta_encodeMeta hname hinfo
  · intro hlarge
    rw [← hslots, ← himage.pairSlotsLog2] at hlarge
    obtain ⟨template, args, hrefused⟩ := @verifyHeader_refuses _ raw himage.length (Nat.mod_eq_zero_of_dvd hblocks)
      himage.magic himage.formatVersion (by rwa [himage.flags]) himage.profileId hreserved (by rw [himage.vocabCount]; omega)
      hlarge
    refine ⟨template, args, ?_⟩
    unfold verifyImage
    rw [hrefused]
    rfl

/-- **How the converter ends.** Where what was written is read back, `main` exits with status 0 exactly if there is an
image and its table has at most 2^40 slots, and fails its own check (status 3) exactly if there is an image and
its table is larger. -/
theorem main_status (hname : ∀ ch ∈ name, ch < 0x110000) :
    (main ceilLog2 name (some (raw, some doc)) some = some 0 ↔
        ∃ image s, convert ceilLog2 raw doc name = .ok image ∧ doc.source = some s ∧
          tableLog2 ceilLog2 s.merges.length ≤ 40) ∧
      (main ceilLog2 name (some (raw, some doc)) some = some 3 ↔
        ∃ image s, convert ceilLog2 raw doc name = .ok image ∧ doc.source = some s ∧
          40 < tableLog2 ceilLog2 s.merges.length) := by
  unfold main
  dsimp only
  cases hconvert : convert ceilLog2 raw doc name with
  | error e =>
    have hno : ∀ (P : List UInt8 → Source → Prop), ¬∃ image s, (Except.error e : Except Failure (List UInt8)) = .ok image ∧
        P image s := by
      rintro P ⟨image, s, ⟨⟩, -⟩
    rw [iff_false_right (hno _), iff_false_right (hno _)]
    cases e with
    | refusal template args => simp
    | overflow => simp
    | surrogate => simp
    | hang => simp
  | ok image =>
    obtain ⟨s, hs, hiff, herror⟩ := convert_verifies hconvert hname
    have hsome : ∀ (P : Nat → Prop), (∃ image' s', (Except.ok image : Except Failure (List UInt8)) = .ok image' ∧
        doc.source = some s' ∧ P (tableLog2 ceilLog2 s'.merges.length)) ↔ P (tableLog2 ceilLog2 s.merges.length) := by
      intro P
      constructor
      · rintro ⟨image', s', -, hs', hP⟩
        rw [hs] at hs'
        cases hs'
        exact hP
      · intro hP
        exact ⟨image, s, rfl, hs, hP⟩
    rw [hsome (· ≤ 40), hsome (40 < ·)]
    dsimp only
    rcases Nat.lt_or_ge 40 (tableLog2 ceilLog2 s.merges.length) with hlarge | hsmall
    · obtain ⟨template, args, hrefused⟩ := herror hlarge
      rw [hrefused]
      exact ⟨iff_of_false (by simp) (Nat.not_le.2 hlarge), iff_of_true rfl hlarge⟩
    · rw [hiff.2 hsmall]
      exact ⟨iff_of_true rfl hsmall, iff_of_false (by simp) (Nat.not_lt.2 hsmall)⟩

theorem main_status_toy : main loadLog2 [] (some ([], some (toyDoc [addedEntryOf (str "<x>") 258]))) some = some 0 := by
  obtain ⟨s, p, c, hs, -, -, himage, hslots⟩ := convert_built toy_converts
  have hlog2 : (BpvHeader.read toy.image).pairSlotsLog2 = 4 := by decide +kernel
  rw [himage.pairSlotsLog2, hslots] at hlog2
  apply (main_status (by decide)).1.2
  exact ⟨toy.image, s, toy_converts, hs, by omega⟩

end Main

end Bytepair.Convert
