import Bytepair.Convert.Textbook
import Bytepair.Encode.Used

/-!
# Round trips over a converted image

The merges of a converted image join bytes, and they lead from the tokens of bytes to used
tokens of the vocabulary and to no others. So decoding undoes encoding
(`convert_roundtrip`), and only matches in the text come to added tokens (`convert_added`).
-/

namespace Bytepair.Convert
open Support

section Base

variable {s : Source} {p : Passes} {c : Contents} {v : BpVocab}

/-- The id of a vocabulary entry that has bytes. -/
def Passes.Base (p : Passes) (id : Nat) : Prop := ∃ raw, raw ≠ [] ∧ p.idToBytes.lookup id = some raw

/-- The span of an id of the vocabulary. -/
theorem Built.span_base (h : Built s p c) (hc : c.Handle v) {id : Nat} {raw : List UInt8}
    (hid : p.idToBytes.lookup id = some raw) : v.HasId id ∧ v.span id = raw := by
  have howns : s.Owns id raw := by
    rw [h.owns_iff, hid]
    rfl
  rw [BpVocab.HasId, hc.count, BpVocab.span, hc.tokOff, hc.blob]
  exact ⟨h.owns_lt howns, h.span_owned howns⟩

/-- The bytes of the tokens of a merge. -/
theorem Built.merge_bytes (h : Built s p c) {rank a b m : Nat} (hmerge : s.Merge rank a b m) :
    ∃ left right, p.idToBytes.lookup a = some left ∧ p.idToBytes.lookup b = some right ∧
      p.idToBytes.lookup m = some (left ++ right) := by
  obtain ⟨entry, -, leftS, rightS, -, ha, hb, hm⟩ := hmerge
  obtain ⟨left, rfl, hleft⟩ := h.decoded.bytes ha
  obtain ⟨right, rfl, hright⟩ := h.decoded.bytes hb
  rw [← List.map_append] at hm
  exact ⟨left, right, hleft, hright, h.decoded.bytes_map hm⟩

/-- **Merging joins bytes.** -/
theorem Built.byteCoherent (h : Built s p c) (hc : c.Handle v) (hv : v.Valid) : v.ByteCoherent := by
  intro a b rank m ha hb hrule
  obtain ⟨left, right, hleft, hright, hm⟩ := h.merge_bytes ((h.rule_iff hc hv ha hb).1 hrule)
  rw [(h.span_base hc hleft).2, (h.span_base hc hright).2, (h.span_base hc hm).2]

/-- Merging does not leave the vocabulary. -/
theorem Built.base_closed (h : Built s p c) (hc : c.Handle v) (hv : v.Valid) : v.Closed p.Base := by
  constructor
  · intro b
    have hid := h.byte_id b
    rw [← hc.byteId] at hid
    exact ⟨[b], List.cons_ne_nil _ _, h.decoded.bytes_map hid⟩
  · rintro a b rank m ⟨left', hne, ha⟩ ⟨right', -, hb⟩ hrule
    have hmerge := (h.rule_iff hc hv (h.span_base hc ha).1 (h.span_base hc hb).1).1 hrule
    obtain ⟨left, right, hleft, -, hm⟩ := h.merge_bytes hmerge
    rw [ha] at hleft
    cases hleft
    exact ⟨left' ++ right, List.append_ne_nil_of_left_ne_nil hne right, hm⟩

theorem Built.base_used (h : Built s p c) (hc : c.Handle v) {id : Nat} (hid : p.Base id) : v.Used id := by
  obtain ⟨raw, hne, hlookup⟩ := hid
  obtain ⟨hknown, hspan⟩ := h.span_base hc hlookup
  exact ⟨hknown, by rwa [hspan]⟩

/-- **An added token is outside the vocabulary.** -/
theorem Built.base_not_added (h : Built s p c) (hc : c.Handle v) {id : Nat} (hid : p.Base id) : v.isAdded id = false := by
  obtain ⟨raw, -, hlookup⟩ := hid
  rw [Bool.eq_false_iff, ne_eq, isAdded_iff, hc.added]
  rintro ⟨a, ha, rfl⟩
  obtain ⟨t, ht, htid, -⟩ := (forall₂_mem h.records_eq).2 a ha
  obtain ⟨e, -, hfree, -⟩ := (forall₂_mem h.added_bytes).1 t ht
  rw [htid, hfree] at hlookup
  cases hlookup

end Base

section Roundtrip

variable {v : BpVocab}

/-- `bp_nfc` of a text, as the handle's flag has it, where the allocator grants all. -/
def Normalizes (v : BpVocab) (t y : List UInt8) : Prop :=
  ∀ m : Scratch, m.Granted → ∃ m', bpNfc shipped (v.hdr.flags &&& BPV_FLAG_NFC ≠ 0) m t = .ok (.ok y, m')

theorem normalizes_normal (t : List UInt8) : Normalizes v t (v.normal shipped t) := by
  intro m hm
  obtain ⟨r, m', hrun, -, hgranted, -⟩ := bpNfc_eq shipped_sized (v.hdr.flags &&& BPV_FLAG_NFC ≠ 0) m t
  obtain ⟨rfl, -⟩ := hgranted hm
  exact ⟨m', hrun⟩

/-- Some ids are decoded as some bytes, on every context that was reached. -/
def DecodedAs (v : BpVocab) (ids : List Nat) (y : List UInt8) : Prop :=
  ∀ c : BpCtx, c.Reached shipped v → ∀ buf, bpDecode c ids buf 0 = .ok (.ok y.length, filled buf y)

theorem decodes_used {host : Host} {map : List UInt8} (h : Opens host map v) {ids : List Nat}
    (hused : ∀ id ∈ ids, v.Used id) : DecodedAs v ids (ids.flatMap v.span) := by
  intro c hc buf
  have hrun := bpDecode_eq h.valid (h.coherent hc).handle 0 ids buf
  rwa [decodeIds_used hused] at hrun

/-- **Decoding undoes encoding.** A text whose segments, normalized, stay below 2^31 bytes is encoded, with added
tokens looked for or as raw text, as ids that are decoded: as the text itself where the NFC flag is clear;
where it is set as `bp_nfc` of the text if it was raw, and else as `bp_nfc` of each gap between the matches
with the bytes of the matched token behind it. -/
theorem convert_roundtrip {ceilLog2 : Nat → Nat} {raw : List UInt8} {doc : Json} {name : Str} {image : List UInt8}
    (h : convert ceilLog2 raw doc name = .ok image) {host : Host} (ho : Opens host image v) {x : List UInt8} {flags : Nat}
    (hflags : flags = 0 ∨ flags = BP_RAW)
    (hlen : ∀ seg, v.IsSegment x flags seg → (v.normal shipped seg).length < 2 ^ 31) :
    (∀ t, Normalizes v t (v.normal shipped t)) ∧
    ∃ ids y, Encodes v x flags ids ∧ DecodedAs v ids y ∧
      (v.hdr.flags &&& BPV_FLAG_NFC = 0 → y = x) ∧
      (flags = BP_RAW → y = v.normal shipped x) ∧
      (flags = 0 → ∃ ps tail, LeftmostLongest v.addedBytes BpvAdded.id v.added x ps tail ∧
        y = ps.flatMap (fun p => v.normal shipped p.1 ++ v.addedBytes p.2) ++ v.normal shipped tail) := by
  refine ⟨normalizes_normal, ?_⟩
  obtain ⟨s, p, c, -, hb, hc⟩ := convert_opened h ho
  have hv := ho.valid
  have hm := ho.matcher
  have hcoherent := hb.byteCoherent hc hv
  obtain ⟨ids, hids⟩ := encodeIds_isSome (T := shipped) hv x flags
  have hused : ∀ id ∈ ids, v.Used id := encodeIds_forall hv hm (hb.base_closed hc hv) (fun id => hb.base_used hc)
    (fun _ a ha => hv.added_used ha) hids
  obtain ⟨hraw, hlook⟩ := encodeIds_flatMap shipped_scannable hv hm hcoherent hflags hlen hids
  have hcut := cut_pieces hv hm x
  refine ⟨ids, ids.flatMap v.span, (encodes_iff hv hm).2 hids, decodes_used ho hused, ?_, hraw,
    fun hzero => ⟨_, _, hcut, hlook hzero⟩⟩
  intro hnfc
  rcases hflags with hzero | hset
  · rw [hlook hzero, restored_eq hnfc hcut]
  · rw [hraw hset, normal_of_clear hnfc]

theorem convert_roundtrip_toy : ∃ ids y, Encodes toy.vocab [0x61, 0xC3, 0x3C, 0x78, 0x3E] 0 ids ∧ DecodedAs toy.vocab ids y := by
  have hlen : ([0x61, 0xC3, 0x3C, 0x78, 0x3E] : List UInt8).length < 2 ^ 29 := by decide
  obtain ⟨-, ids, y, hencodes, hdecodes, -⟩ := convert_roundtrip toy_converts toy_opens (.inl rfl)
    (length_segment_lt shipped_coherent (Opens.valid toy_opens) (Opens.matcher toy_opens) 0 hlen)
  exact ⟨ids, y, hencodes, hdecodes⟩

end Roundtrip

section Injection

variable {v : BpVocab}

/-- **No text comes to an added token but a match of it.** As raw text no text is encoded with the id of an added
token; and where added tokens are looked for, those among the ids are the leftmost and longest matches in
the text as it was given, in their order. -/
theorem convert_added {ceilLog2 : Nat → Nat} {raw : List UInt8} {doc : Json} {name : Str} {image : List UInt8}
    (h : convert ceilLog2 raw doc name = .ok image) {host : Host} (ho : Opens host image v) {c : BpCtx}
    (hc : c.Reached shipped v) (x : List UInt8) (out : List Nat) {n : Nat} {c' : BpCtx} {out' : List Nat} :
    (bpEncode shipped c x out BP_RAW = .ok (.ok n, (c', out')) →
      ∃ ids, n = ids.length ∧ out' = filled out ids ∧ ∀ id ∈ ids, ∀ a ∈ v.added, id ≠ a.id) ∧
    (bpEncode shipped c x out 0 = .ok (.ok n, (c', out')) →
      ∃ ids ps tail, n = ids.length ∧ out' = filled out ids ∧
        LeftmostLongest v.addedBytes BpvAdded.id v.added x ps tail ∧
          ids.filter (fun id => v.added.any fun a => a.id = id) = ps.map fun p => p.2.id) := by
  obtain ⟨s, p, contents, -, hb, hhandle⟩ := convert_opened h ho
  have hv := ho.valid
  have hm := ho.matcher
  have hclosed := hb.base_closed hhandle hv
  have hencoded : ∀ {flags}, bpEncode shipped c x out flags = .ok (.ok n, (c', out')) →
      ∃ ids, encodeIds shipped v x flags = some ids ∧ n = ids.length ∧ out' = filled out ids := by
    intro flags hrun
    have hs := ho.encode hc x out flags
    rw [hrun] at hs
    generalize encodeIds shipped v x flags = value at hs
    cases hs with
    | done ids _ _ _ => exact ⟨ids, rfl, rfl, rfl⟩
  constructor
  · intro hrun
    obtain ⟨ids, hids, hn, hout⟩ := hencoded hrun
    refine ⟨ids, hn, hout, fun id hid a ha heq => ?_⟩
    have hbase : p.Base id := encodeIds_forall hv hm hclosed (fun _ h => h) (fun hflag => absurd hflag (by decide)) hids id hid
    have hno := hb.base_not_added hhandle hbase
    rw [isAdded_iff.2 ⟨a, ha, heq.symm⟩] at hno
    cases hno
  · intro hrun
    obtain ⟨ids, hids, hn, hout⟩ := hencoded hrun
    exact ⟨ids, _, _, hn, hout, cut_pieces hv hm x, encodeIds_added hv hm hclosed (fun id => hb.base_not_added hhandle) hids⟩

theorem convert_added_toy : ∃ (c c' : BpCtx) (n : Nat) (out' : List Nat),
    bpEncode shipped c [0x61, 0x3C, 0x78, 0x3E, 0x62] [0, 0, 0] 0 = .ok (.ok n, (c', out')) ∧
      ∃ ids ps tail, n = ids.length ∧ out' = filled [0, 0, 0] ids ∧ LeftmostLongest toy.vocab.addedBytes BpvAdded.id
        toy.vocab.added [0x61, 0x3C, 0x78, 0x3E, 0x62] ps tail ∧
          ids.filter (fun id => toy.vocab.added.any fun a => a.id = id) = ps.map fun p => p.2.id := by
  obtain ⟨c, hc, -, hgranted⟩ := toy_context
  have hids : encodeIds shipped toy.vocab [0x61, 0x3C, 0x78, 0x3E, 0x62] 0 = some [0x61, 258, 0x62] := by decide +kernel
  obtain ⟨c', hrun⟩ := (encodes_iff (Opens.valid toy_opens) (Opens.matcher toy_opens)).2 hids c hc hgranted [0, 0, 0]
  exact ⟨c, c', _, _, hrun, (convert_added toy_converts toy_opens hc _ _).2 hrun⟩

end Injection

end Bytepair.Convert
