import Bytepair.Convert.Faithful
import Bytepair.Convert.Verify

/-!
# What the loader makes of a converted image

The converter and the loader check an image with two validators of their own. `Built.ok_iff`: of what the
loader asks, a conversion leaves four limits open, and they are `Source.Fits`. So the loader takes a
converted image exactly if its source fits (`convert_accepted`).
-/

namespace Bytepair.Convert
open Support

/-- What the loader asks of a source and the converter does not: ids below 2^21, at most 64 added tokens, none of
them of more than 250 bytes, and a table of at most 2^32 slots. -/
structure Source.Fits (ceilLog2 : Nat → Nat) (s : Source) : Prop where
  ids : ∀ id bytes, s.Owns id bytes → id < 2 ^ 21
  added : s.addedTokens.length ≤ 64
  contents : ∀ entry ∈ s.addedTokens, ∀ t bytes, validateAdded entry = .ok t → encodeUtf8 t.content = .ok bytes →
    bytes.length ≤ 250
  slots : tableLog2 ceilLog2 s.merges.length ≤ 32

section Pieces

variable {s : Source} {p : Passes} {c : Contents}

/-- Where a token ends the next one starts. -/
theorem Built.offset_succ (h : Built s p c) {id : Nat} (hid : id < c.vocabCount) :
    offsetOf c.offsets (id + 1) = offsetOf c.offsets id + (pieceOf p.idToBytes p.addedBytes id).length := by
  have hlen : ((List.range c.vocabCount).map (pieceOf p.idToBytes p.addedBytes)).length = c.vocabCount := by
    rw [List.length_map, List.length_range]
  have hget : id < ((List.range c.vocabCount).map (pieceOf p.idToBytes p.addedBytes)).length := by rwa [hlen]
  rw [h.offsets, offsetOf_scanl _ 0 (Nat.le_of_lt hget), offsetOf_scanl _ 0 hget, List.take_succ_eq_append_getElem hget,
    List.flatten_append, List.length_append, List.flatten_singleton, List.getElem_map, List.getElem_range]
  exact (Nat.add_assoc _ _ _).symm

/-- The last token ends where the blob does. -/
theorem Built.offset_last (h : Built s p c) : offsetOf c.offsets c.vocabCount = c.blob.length := by
  have hlen : ((List.range c.vocabCount).map (pieceOf p.idToBytes p.addedBytes)).length = c.vocabCount := by
    rw [List.length_map, List.length_range]
  rw [h.offsets, h.blob, offsetOf_scanl _ 0 (Nat.le_of_eq hlen.symm), List.take_of_length_le (Nat.le_of_eq hlen),
    Nat.zero_add]

/-- A slot that is occupied holds ids of the vocabulary. -/
theorem Built.slotOk (h : Built s p c) {i : Nat} (hi : i < 2 ^ c.slotsLog2) : SlotOk c.vocabCount c.pairs i := by
  obtain ⟨hkey, hvalue⟩ := keyOf_zip (h.filled.keys.trans h.filled.values.symm)
  rw [← h.pairs] at hkey hvalue
  intro hne
  rw [hkey] at hne ⊢
  rw [hvalue]
  obtain ⟨entry, rank, a, b, m, -, hjoins, ha, hb, hm, hk, hv⟩ := h.filled.slot i hi hne
  have hlt : ∀ {text id}, vocabId s.vocab text = some id → id < c.vocabCount := by
    intro text id hid
    obtain ⟨raw, rfl, -⟩ := h.decoded.bytes hid
    exact h.owns_lt (h.owns_text hid)
  obtain ⟨left, right, -, hleft, hright, hmerged⟩ := hjoins
  have hpair : ∀ {x y : Nat}, y < 2 ^ 32 → x <<< 32 ||| y = x * 2 ^ 32 + y := by
    intro x y hy
    rw [← Nat.shiftLeft_add_eq_or_of_lt hy, Nat.shiftLeft_eq]
  rw [hk, hv, pairKey, hpair hb, hpair hm, Nat.shiftRight_eq_div_pow]
  have ha' := hlt hleft
  have hb' := hlt hright
  have hm' := hlt hmerged
  exact ⟨by omega, by omega, by omega⟩

/-- The byte of a byte's token. -/
theorem Built.byteOk (h : Built s p c) {i : Nat} (hi : i < 256) :
    c.byteIds[i]?.getD 0 < c.vocabCount ∧ spanOf c.offsets c.blob (c.byteIds[i]?.getD 0) = [UInt8.ofNat i] := by
  have hbyte := h.byte_id (UInt8.ofNat i)
  have hnat : (UInt8.ofNat i).toNat = i := UInt8.toNat_ofNat_of_lt hi
  rw [hnat] at hbyte
  have howns : s.Owns (c.byteIds[i]?.getD 0) [UInt8.ofNat i] := h.owns_text hbyte
  exact ⟨h.owns_lt howns, h.span_owned howns⟩

/-- An added token has bytes. -/
theorem validateAdded_ne_nil {entry : Json} {t : AddedToken} (h : validateAdded entry = .ok t) : t.content ≠ [] := by
  obtain ⟨kvs, -, h⟩ := bind_eq_ok.1 h
  obtain ⟨content, hcontent, h⟩ := bind_eq_ok.1 h
  obtain ⟨tid, -, h⟩ := bind_eq_ok.1 h
  obtain ⟨_, -, h⟩ := bind_eq_ok.1 h
  cases h
  have hcontent := need_eq_ok.1 hcontent
  split at hcontent
  · split at hcontent
    · next hne =>
      cases hcontent
      exact hne
    · cases hcontent
  · cases hcontent

theorem encodeUtf8_ne_nil {content : Str} {bytes : List UInt8} (h : encodeUtf8 content = .ok bytes)
    (hne : content ≠ []) : bytes ≠ [] := by
  unfold encodeUtf8 at h
  split at h
  · cases h
  · cases h
    obtain ⟨ch, chs, rfl⟩ := List.exists_cons_of_ne_nil hne
    rw [List.flatMap_cons]
    exact List.append_ne_nil_of_left_ne_nil (encodeUnit_ne_nil ch) _

/-- The record of an added token is fine but for its length. -/
theorem Built.recordOk (h : Built s p c) {t : AddedToken} (ht : t ∈ p.tokens) {bytes : List UInt8}
    (hbytes : encodeUtf8 t.content = .ok bytes) {a : BpvAdded} (ha : a = ⟨t.tid, offsetOf c.offsets t.tid,
      ((p.addedBytes.lookup t.tid).getD []).length, if t.special then 1 else 0⟩) :
    RecordOk c.vocabCount c.offsets a ↔ bytes.length ≤ 250 := by
  subst ha
  obtain ⟨bytes', hlookup, hbytes'⟩ := h.lookup_added ht
  rw [hbytes] at hbytes'
  cases hbytes'
  obtain ⟨entry, hentry, hvalid⟩ := h.mem_tokens.1 ht
  have howns : s.Owns t.tid bytes := .inr ⟨entry, hentry, t, hvalid, rfl, hbytes⟩
  have hid := h.owns_lt howns
  have hpiece : pieceOf p.idToBytes p.addedBytes t.tid = bytes := by
    unfold pieceOf
    rw [h.owns_iff.1 howns]
    rfl
  have hpos := List.length_pos_iff.2 (encodeUtf8_ne_nil hbytes (validateAdded_ne_nil hvalid))
  have hnext := h.offset_succ hid
  rw [hpiece] at hnext
  have hlen : ((p.addedBytes.lookup t.tid).getD []).length = bytes.length := by
    rw [hlookup]
    rfl
  constructor
  · intro hr
    rw [← hlen]
    exact hr.len
  · intro hle
    constructor
    · exact hid
    · rwa [hlen]
    · rwa [hlen]
    · rfl
    · rw [hlen]
      exact hnext

/-- The name in the last section is inside it. -/
theorem Built.infoOk (h : Built s p c) : 4 ≤ c.info.length ∧ wordAt 4 c.info 0 ≤ c.info.length - 4 := by
  obtain ⟨name, hinfo⟩ := h.info
  obtain ⟨blobs, hblobs, hinfo⟩ := bind_eq_ok.1 hinfo
  have hinfo := Except.ok.inj hinfo
  cases mapM_eq_ok.1 hblobs with
  | @cons _ first _ rest hfirst _ =>
    obtain ⟨blob, -, hfirst⟩ := bind_eq_ok.1 hfirst
    obtain ⟨size, hsize, hfirst⟩ := bind_eq_ok.1 hfirst
    obtain ⟨hfits, rfl⟩ := pack_eq_ok.1 hsize
    cases hfirst
    rw [List.flatten_cons, List.append_assoc] at hinfo
    have hword := wordAt_packed hfits [] (blob ++ rest.flatten) (Nat.zero_lt_one)
    rw [List.nil_append, List.length_nil, hinfo] at hword
    rw [hword, ← hinfo, List.length_append, List.length_append, length_packed, List.getElem_singleton, List.length_singleton]
    omega

end Pieces

section Limits

variable {s : Source} {p : Passes} {c : Contents} {ceilLog2 : Nat → Nat}

/-- **The loader's check of a conversion**: what is left of it are the limits. -/
theorem Built.ok_iff (h : Built s p c) (hslots : c.slotsLog2 = tableLog2 ceilLog2 s.merges.length) :
    c.Ok ↔ s.Fits ceilLog2 := by
  obtain ⟨out, hout, hperm⟩ := h.tokens
  have hcount : c.records.length = s.addedTokens.length := by
    rw [h.records, List.length_map, hperm.length_eq, (mapM_eq_ok.1 hout).length_eq]
  have hrecord : ∀ t ∈ p.tokens, ∃ a ∈ c.records, a = ⟨t.tid, offsetOf c.offsets t.tid,
      ((p.addedBytes.lookup t.tid).getD []).length, if t.special then 1 else 0⟩ := by
    intro t ht
    rw [h.records]
    exact ⟨_, List.mem_map_of_mem ht, rfl⟩
  constructor
  · intro ok
    constructor
    · exact fun id bytes howns => Nat.lt_of_lt_of_le (h.owns_lt howns) ok.countLe
    · rw [← hcount]
      exact ok.addedLe
    · intro entry hentry t bytes hvalid hbytes
      have ht := h.mem_tokens.2 ⟨entry, hentry, hvalid⟩
      obtain ⟨a, ha, heq⟩ := hrecord t ht
      exact (h.recordOk ht hbytes heq).1 (ok.record a ha)
    · rw [← hslots]
      exact ok.log2
  · intro fits
    obtain ⟨top, htop, hlast⟩ := h.top
    have hkey := (keyOf_zip (h.filled.keys.trans h.filled.values.symm)).1
    rw [← h.pairs] at hkey
    constructor
    · omega
    · obtain ⟨bytes, howns⟩ : ∃ bytes, s.Owns top bytes := by
        rcases List.mem_append.1 htop with hbase | hadded
        · obtain ⟨e, he, rfl⟩ := List.mem_map.1 hbase
          obtain ⟨bytes, hlookup⟩ : ∃ bytes, p.idToBytes.lookup e.1 = some bytes :=
            Option.isSome_iff_exists.1 (List.lookup_isSome_iff.2 ⟨e, he, beq_self_eq_true e.1⟩)
          exact ⟨bytes, .inl (h.decoded.owner _ _ hlookup)⟩
        · obtain ⟨t, ht, rfl⟩ := List.mem_map.1 hadded
          obtain ⟨bytes, -, hbytes⟩ := h.lookup_added ht
          obtain ⟨entry, hentry, hvalid⟩ := h.mem_tokens.1 ht
          exact ⟨bytes, .inr ⟨entry, hentry, t, hvalid, rfl, hbytes⟩⟩
      have := fits.ids top bytes howns
      omega
    · rw [hcount]
      exact fits.added
    · rw [hslots]
      exact fits.slots
    · intro i hi
      rw [h.offset_succ hi]
      exact Nat.le_add_right _ _
    · exact Nat.le_of_eq h.offset_last
    · exact fun i hi => h.slotOk hi
    · have hload := h.load
      have hoccupied := h.filled.occupied
      rw [List.length_zipIdx] at hoccupied
      rw [hkey]
      omega
    · exact fun i hi => h.byteOk hi
    · intro a ha
      rw [h.records] at ha
      obtain ⟨t, ht, rfl⟩ := List.mem_map.1 ha
      obtain ⟨bytes, -, hbytes⟩ := h.lookup_added ht
      obtain ⟨entry, hentry, hvalid⟩ := h.mem_tokens.1 ht
      exact (h.recordOk ht hbytes rfl).2 (fits.contents entry hentry t bytes hvalid hbytes)
    · rw [h.records]
      exact List.pairwise_map.2 h.sorted
    · exact h.infoOk.1
    · exact h.infoOk.2

/-- Where memory is granted the image opens exactly if the source fits. -/
theorem Built.opens_iff (h : Built s p c) (hslots : c.slotsLog2 = tableLog2 ceilLog2 s.merges.length) (hsized : c.Sized)
    {image : List UInt8} (himage : c.IsImage image) (avx2 : Bool) :
    (∃ v, bpVocabOpen ⟨avx2, true, true⟩ image = .ok (.ok v)) ↔ s.Fits ceilLog2 := by
  obtain ⟨r, hr, -, hopens⟩ := bpVocabOpen_loads ⟨avx2, true, true⟩ image
  rw [and_iff_left ⟨rfl, rfl⟩, Contents.accepts_iff himage hsized, h.ok_iff hslots] at hopens
  rw [hr, ← hopens]
  constructor
  · rintro ⟨v, hv⟩
    exact ⟨v, Except.ok.inj hv⟩
  · rintro ⟨v, rfl⟩
    exact ⟨v, rfl⟩

end Limits

/-- **When a converted image opens.** Where memory is granted the loader takes the image of a conversion exactly if
the source keeps within the limits that only the loader checks. -/
theorem convert_accepted {ceilLog2 : Nat → Nat} {raw : List UInt8} {doc : Json} {name : Str} {image : List UInt8}
    (h : convert ceilLog2 raw doc name = .ok image) (avx2 : Bool) :
    (∃ v, bpVocabOpen ⟨avx2, true, true⟩ image = .ok (.ok v)) ↔ ∃ s, doc.source = some s ∧ s.Fits ceilLog2 := by
  obtain ⟨s, p, c, hs, hb, hsized, himage, hslots⟩ := convert_built h
  rw [hb.opens_iff hslots hsized himage, hs]
  constructor
  · exact fun fits => ⟨s, rfl, fits⟩
  · rintro ⟨_, ⟨⟩, fits⟩
    exact fits

theorem convert_accepted_toy : ∃ s, (toyDoc [addedEntryOf (str "<x>") 258]).source = some s ∧ s.Fits loadLog2 :=
  (convert_accepted toy_converts true).1 ⟨toy.vocab, toy_opens⟩

section Long

/-- An added token of 251 bytes. -/
def longDoc : Json := toyDoc [addedEntryOf (List.replicate 251 0x61) 258]

theorem toy_addedTokens {addedTokens : List Json} {s : Source} (h : (toyDoc addedTokens).source = some s) :
    s.addedTokens = addedTokens := by
  have hget : get (toyItems addedTokens) "added_tokens" (.arr []) = .arr addedTokens := by
    show get (key _ _ :: key _ _ :: key _ _ :: key _ _ :: _) _ _ = _
    rw [get_skip (by decide), get_skip (by decide), get_skip (by decide), get_here]
  unfold Json.source at h
  simp only [Option.bind_eq_bind] at h
  obtain ⟨kvs, hkvs, h⟩ := Option.bind_eq_some_iff.1 h
  obtain ⟨model, -, h⟩ := Option.bind_eq_some_iff.1 h
  obtain ⟨vocab, -, h⟩ := Option.bind_eq_some_iff.1 h
  obtain ⟨merges, -, h⟩ := Option.bind_eq_some_iff.1 h
  obtain ⟨entries, hentries, h⟩ := Option.bind_eq_some_iff.1 h
  cases h
  cases hkvs
  have hsame : elements (get (toyItems addedTokens) "added_tokens" (.arr [])) = some entries := hentries
  rw [hget] at hsame
  exact (Option.some.inj hsame).symm

theorem long_verified : (((toyLaidOut ⟨258, List.replicate 251 0x61, true⟩ (List.replicate 251 0x61)).toOption.map
    fun image => (verifyImage image [] longDoc []).toOption.isSome).getD false) = true := by
  decide +kernel

/-- A document that is converted and whose image passes the converter's check, and which the loader refuses. -/
theorem not_convert_accepted : ¬∀ (raw : List UInt8) (doc : Json) (name : Str) (image : List UInt8),
    convert loadLog2 raw doc name = .ok image → verifyImage image raw doc name = .ok () →
      ∃ v, bpVocabOpen ⟨true, true, true⟩ image = .ok (.ok v) := by
  intro hall
  have hne : List.replicate 251 0x61 ≠ ([] : Str) := by decide
  have hbytes : encodeUtf8 (List.replicate 251 0x61) = .ok (List.replicate 251 0x61) := ok_of_toOption (by decide +kernel)
  have hconvert := toy_convert hne hbytes
  have hverified := long_verified
  generalize toyLaidOut ⟨258, List.replicate 251 0x61, true⟩ (List.replicate 251 0x61) = laidOut at hconvert hverified
  cases laidOut with
  | error e => cases hverified
  | ok image =>
    have hverify : verifyImage image [] longDoc [] = .ok () := by
      change (verifyImage image [] longDoc []).toOption.isSome = true at hverified
      cases hrun : verifyImage image [] longDoc [] with
      | error e =>
        rw [hrun] at hverified
        cases hverified
      | ok u => rfl
    obtain ⟨s, p, c, hs, hb, hsized, himage, hslots⟩ := convert_built hconvert
    have fits := (hb.opens_iff hslots hsized himage true).1 (hall [] longDoc [] image hconvert hverify)
    have hentry : addedEntryOf (List.replicate 251 0x61) 258 ∈ s.addedTokens := by
      rw [toy_addedTokens hs]
      exact List.mem_cons_self
    have hle := fits.contents _ hentry _ _ (validateAdded_entry hne 258) hbytes
    rw [List.length_replicate] at hle
    omega

end Long

end Bytepair.Convert
