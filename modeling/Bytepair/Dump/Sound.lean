import Bytepair.Convert.Trusted
import Bytepair.Dump.Converted

/-!
# What the inspector is good for

An inspected image needs no `tokenizer.json` to be trusted. `inspect_opens_iff`: of what passes the loader takes what
keeps within its limits. `inspect_opened`, `inspect_roundtrip`: what passes and opens is encoded by the book and
decoded to what it was.
-/

namespace Bytepair.Dump
open Support Support.Probing Bytepair.Convert

section Loader

variable {image : List UInt8}

/-- What the loader asks of an image and the inspector does not. -/
structure Limits (image : List UInt8) : Prop where
  profile : (BpvHeader.read image).profileId = BPV_PROFILE_GPT4
  count : (BpvHeader.read image).vocabCount ≤ 2 ^ 21
  added : (BpvHeader.read image).addedCount ≤ 64
  log2 : (BpvHeader.read image).pairSlotsLog2 ≤ 32
  len : ∀ a ∈ (Contents.read image).records, a.len ≤ 250
  sorted : (Contents.read image).records.Pairwise fun a b => a.id < b.id

/-- The loader's checks of an inspected image come down to its limits. -/
theorem Inspected.accepts_iff (h : Inspected image) : Accepts (BpvHeader.read image) image ↔ Limits image := by
  have hf := h.framed
  have hcount := Contents.read_vocabCount image
  have hadded := Contents.read_records image
  obtain ⟨hsections, hapart⟩ := hf.sectionsOk
  have hheader : headerOk (BpvHeader.read image) = true ↔ (BpvHeader.read image).profileId = BPV_PROFILE_GPT4 ∧
      (BpvHeader.read image).vocabCount ≤ 2 ^ 21 ∧ (BpvHeader.read image).addedCount ≤ 64 ∧
      (BpvHeader.read image).pairSlotsLog2 ≤ 32 := by
    have hne := Nat.ne_of_gt hf.count
    have hmagic : (BpvHeader.read image).magic = BPV_MAGIC := hf.magic
    have hversion : (BpvHeader.read image).formatVersion = 1 := hf.version
    unfold headerOk
    simp only [hmagic, hversion, hne, ne_eq, not_false_eq_true, decide_true, Bool.true_and, Bool.and_true, Bool.and_eq_true,
      decide_eq_true_eq, and_assoc]
  constructor
  · intro ok
    obtain ⟨hprofile, hcountLe, haddedLe, hlog2⟩ := hheader.1 ok.header
    exact ⟨hprofile, hcountLe, haddedLe, hlog2, fun a ha => (ok.added.1 a ha).len, ok.added.2⟩
  · intro hl
    obtain ⟨strings, hstrings⟩ := h.strings
    obtain ⟨hfour, hname⟩ := checkMeta_eq_ok hstrings
    have hslots : (BpvHeader.read image).slots = 2 ^ (Contents.read image).slotsLog2 := Nat.one_shiftLeft _
    have hblobSize := hf.length_bytes (s := (BpvHeader.read image).tokenBlob) (by simp [BpvHeader.sections])
    have hinfoSize := hf.length_bytes (s := (BpvHeader.read image).metaInfo) (by simp [BpvHeader.sections])
    constructor
    · exact hf.size
    · exact hheader.2 ⟨hl.profile, hl.count, hl.added, hl.log2⟩
    · exact hsections
    · exact hapart
    · rw [← hcount, ← hblobSize]
      exact ⟨h.tabled.mono, Nat.le_of_eq h.tabled.last⟩
    · rw [← hcount, hslots]
      constructor
      · intro t ht hne
        obtain ⟨hj, -⟩ := h.paired.merges t ht hne
        exact ⟨hj.left, hj.right, hj.merged⟩
      · have hload := h.paired.load
        show occupiedBelow (keyOf (Contents.read image).pairs) _ ≤ _
        omega
    · intro b hb
      rw [← hcount]
      exact h.tabled.byte b (List.mem_range.1 hb)
    · rw [← hcount]
      refine ⟨fun a ha => ?_, hl.sorted⟩
      have hr := h.listed a ha
      have hlen := hr.len
      have hoffset := hr.offset
      refine ⟨hr.id, hr.pos, hl.len a ha, hoffset, ?_⟩
      show offsetOf (Contents.read image).offsets _ = _
      omega
    · rwa [← hinfoSize]
    · rwa [← hinfoSize]

/-- **When the loader takes what passed.** Where memory is granted an image that passed the inspector opens exactly if it
keeps within the loader's limits: profile 1, at most 2^21 ids, 64 added tokens of at most 250 bytes in the order of
their ids, and 2^32 slots. -/
theorem inspect_opens_iff {samples : Int} (h : main samples (some image) = 0) (avx2 : Bool) :
    (∃ v, bpVocabOpen ⟨avx2, true, true⟩ image = .ok (.ok v)) ↔ Limits image := by
  have hsamples : 1 ≤ samples := by
    by_contra hno
    unfold main at h
    rw [if_pos (by omega)] at h
    cases h
  have hi := (main_eq_zero hsamples).1 h
  obtain ⟨r, hr, -, hopens⟩ := bpVocabOpen_loads ⟨avx2, true, true⟩ image
  rw [and_iff_left ⟨rfl, rfl⟩, hi.accepts_iff] at hopens
  rw [hr, ← hopens]
  constructor
  · rintro ⟨v, hv⟩
    exact ⟨v, Except.ok.inj hv⟩
  · rintro ⟨v, rfl⟩
    exact ⟨v, rfl⟩

theorem inspect_opens_iff_toy : Limits toy.image :=
  (inspect_opens_iff toy_inspected true).1 ⟨toy.vocab, toy_opens⟩

end Loader

section Opened

variable {image : List UInt8} {host : Host} {v : BpVocab}

/-- A slot as the handle has it: its ids, their bytes, and the way the probe takes to it. -/
structure Slot (v : BpVocab) (t : Nat) : Prop where
  left : v.HasId (keyOf v.pairs t >>> 32)
  right : v.HasId (keyOf v.pairs t % 2 ^ 32)
  merged : v.HasId (valueOf v.pairs t % 2 ^ 32)
  key : keyOf v.pairs t = pairKey (keyOf v.pairs t >>> 32) (keyOf v.pairs t % 2 ^ 32)
  bytes : v.span (keyOf v.pairs t >>> 32) ++ v.span (keyOf v.pairs t % 2 ^ 32) = v.span (valueOf v.pairs t % 2 ^ 32)
  found : v.lookup (keyOf v.pairs t >>> 32) (keyOf v.pairs t % 2 ^ 32) = valueOf v.pairs t

theorem Inspected.slot (h : Inspected image) (ho : Opens host image v) {t : Nat} (ht : t < v.hdr.slots)
    (hne : keyOf v.pairs t ≠ BPV_PAIR_EMPTY) : Slot v t := by
  have hv := ho.valid
  have hc := Opens.reads ho
  obtain ⟨hj, j, hlt, -, hhome, hbefore⟩ := h.paired.merges t (hc.slots ▸ ht) (hc.pairs ▸ hne)
  have hkey : keyOf v.pairs t = pairKey (keyOf v.pairs t >>> 32) (keyOf v.pairs t % 2 ^ 32) := by
    rw [pairKey_eq (Nat.mod_lt _ (by decide)), Nat.shiftRight_eq_div_pow]
    omega
  have hprobe : probe (stops (keyOf (Contents.read image).pairs) EMPTY_KEY (keyOf (Contents.read image).pairs t))
      (2 ^ (Contents.read image).slotsLog2) (2 ^ (Contents.read image).slotsLog2)
      (fmix64 (keyOf (Contents.read image).pairs t) % 2 ^ (Contents.read image).slotsLog2) = some t := by
    rw [probe_some_iff (Nat.mod_lt _ (Nat.two_pow_pos _))]
    refine ⟨j, hlt, hhome.symm, ?_, fun i hi => ?_⟩
    · unfold stops
      rw [decide_eq_true rfl]
      rfl
    · obtain ⟨hfull, hother⟩ := hbefore i hi
      unfold stops
      rw [decide_eq_false hother, decide_eq_false hfull]
      rfl
  have hfind : (Contents.read image).findPair (keyOf v.pairs t) = some (valueOf v.pairs t) := by
    unfold Contents.findPair
    rw [hc.pairs]
    rw [show probe (stops (keyOf (Contents.read image).pairs) Convert.EMPTY_KEY (keyOf (Contents.read image).pairs t))
      (2 ^ (Contents.read image).slotsLog2) (2 ^ (Contents.read image).slotsLog2)
      (Convert.fmix64 (keyOf (Contents.read image).pairs t) % 2 ^ (Contents.read image).slotsLog2) = some t from hprobe]
    dsimp only
    rw [if_pos rfl]
  have hleft : v.HasId (keyOf v.pairs t >>> 32) := by
    rw [BpVocab.HasId, hc.count, hc.pairs]
    exact hj.left
  have hright : v.HasId (keyOf v.pairs t % 2 ^ 32) := by
    rw [BpVocab.HasId, hc.count, hc.pairs]
    exact hj.right
  refine ⟨hleft, hright, ?_, hkey, ?_, ?_⟩
  · rw [BpVocab.HasId, hc.count, hc.pairs]
    exact hj.merged
  · unfold BpVocab.span
    rw [hc.tokOff, hc.blob, hc.pairs]
    exact hj.bytes
  · rw [lookup_findPair hc hv hleft hright, ← hkey, hfind]
    rfl

/-- **The rules of an inspected vocabulary are its slots.** -/
theorem Inspected.rule_iff (h : Inspected image) (ho : Opens host image v) {a b r m : Nat} (ha : v.HasId a) (hb : v.HasId b) :
    v.rule a b = some (r, m) ↔ ∃ t < v.hdr.slots, keyOf v.pairs t = pairKey a b ∧ valueOf v.pairs t >>> 32 = r ∧
      valueOf v.pairs t % 2 ^ 32 = m := by
  have hv := ho.valid
  have hcount := hv.countLe
  constructor
  · intro hrule
    obtain ⟨t, ht, hkey, hr, hm⟩ := hv.rule_slot hrule
    exact ⟨t, ht, hkey, hr, hm⟩
  · rintro ⟨t, ht, hkey, rfl, rfl⟩
    have hne : keyOf v.pairs t ≠ BPV_PAIR_EMPTY := by
      rw [hkey]
      exact Nat.ne_of_lt (pairKey_lt hcount ha hb).1
    have hs := h.slot ho ht hne
    have hfound := hs.found
    have hmerged := hs.merged
    unfold BpVocab.HasId at ha hb hmerged
    rw [hkey, pairKey_eq (by omega), Nat.shiftRight_eq_div_pow, show (a * 2 ^ 32 + b) / 2 ^ 32 = a by omega,
      show (a * 2 ^ 32 + b) % 2 ^ 32 = b by omega] at hfound
    have hvalue : v.lookup a b ≠ BPV_PAIR_EMPTY := by
      rw [hfound]
      unfold BPV_PAIR_EMPTY
      omega
    rw [rule_of_lookup hvalue, hfound]

theorem Inspected.byteCoherent (h : Inspected image) (ho : Opens host image v) : v.ByteCoherent := by
  have hcount := ho.valid.countLe
  intro a b r m ha hb hrule
  obtain ⟨t, ht, hkey, -, rfl⟩ := (h.rule_iff ho ha hb).1 hrule
  have hne : keyOf v.pairs t ≠ BPV_PAIR_EMPTY := by
    rw [hkey]
    exact Nat.ne_of_lt (pairKey_lt hcount ha hb).1
  have hbytes := (h.slot ho ht hne).bytes
  unfold BpVocab.HasId at ha hb
  rwa [hkey, pairKey_eq (by omega), Nat.shiftRight_eq_div_pow, show (a * 2 ^ 32 + b) / 2 ^ 32 = a by omega,
    show (a * 2 ^ 32 + b) % 2 ^ 32 = b by omega] at hbytes

/-- The ranks are those from 0 on, and each is that of one slot. -/
theorem Inspected.rank_iff (h : Inspected image) (ho : Opens host image v) :
    (∀ rank, (∃ t < v.hdr.slots, keyOf v.pairs t ≠ BPV_PAIR_EMPTY ∧ valueOf v.pairs t >>> 32 = rank) ↔
      rank < occupiedBelow (keyOf v.pairs) v.hdr.slots) ∧
    ∀ t < v.hdr.slots, ∀ u < v.hdr.slots, keyOf v.pairs t ≠ BPV_PAIR_EMPTY → keyOf v.pairs u ≠ BPV_PAIR_EMPTY →
      valueOf v.pairs t >>> 32 = valueOf v.pairs u >>> 32 → t = u := by
  have hc := Opens.reads ho
  rw [hc.slots, hc.pairs]
  constructor
  · intro rank
    rw [← h.paired.ranks rank]
    unfold ranksBelow
    rw [List.mem_map]
    constructor
    · rintro ⟨t, ht, hne, hrank⟩
      exact ⟨t, List.mem_filter.2 ⟨List.mem_range.2 ht, decide_eq_true hne⟩, hrank⟩
    · rintro ⟨t, hmem, hrank⟩
      obtain ⟨ht, hne⟩ := List.mem_filter.1 hmem
      exact ⟨t, List.mem_range.1 ht, of_decide_eq_true hne, hrank⟩
  · intro t ht u hu hne hne' heq
    have hdistinct := h.paired.distinct
    unfold ranksBelow at hdistinct
    apply List.inj_on_of_nodup_map hdistinct _ _ heq
    · exact List.mem_filter.2 ⟨List.mem_range.2 ht, decide_eq_true hne⟩
    · exact List.mem_filter.2 ⟨List.mem_range.2 hu, decide_eq_true hne'⟩

/-- Every route sees all merges of an inspected vocabulary. -/
theorem Inspected.route_eq (h : Inspected image) (ho : Opens host image v) (n : Nat) {a b : Nat} (ha : v.HasId a)
    (hb : v.HasId b) : routeRule v n a b = v.rule a b := by
  have hv := ho.valid
  unfold routeRule
  split
  · rfl
  · cases hrule : v.rule a b with
    | none =>
      cases hshort : shortRule v a b with
      | none => rfl
      | some q =>
        rw [(shortRule_eq_some.1 hshort).1] at hrule
        cases hrule
    | some q =>
      obtain ⟨r, m⟩ := q
      obtain ⟨t, ht, hkey, hr, -⟩ := (h.rule_iff ho ha hb).1 hrule
      have hne : keyOf v.pairs t ≠ BPV_PAIR_EMPTY := by
        rw [hkey]
        exact Nat.ne_of_lt (pairKey_lt hv.countLe ha hb).1
      have hrank := ((h.rank_iff ho).1 r).1 ⟨t, ht, hne, hr⟩
      -- less than two thirds of at most 2^32 slots
      have hload := h.paired.load
      have hc := Opens.reads ho
      rw [← hc.slots, ← hc.pairs] at hload
      have hslots : v.hdr.slots ≤ 2 ^ 32 := by
        unfold BpvHeader.slots
        rw [Nat.one_shiftLeft]
        exact Nat.pow_le_pow_right (by decide) hv.log2
      exact shortRule_eq_some.2 ⟨hrule, by omega⟩

end Opened

section Guarantees

variable {image : List UInt8} {facts : Facts} {host : Host} {v : BpVocab}

/-- **What the report is good for.** Of an image that passed the inspector and was opened, whoever wrote it: every pair
that is stored is looked up as it was stored, in at most as many probes as were reported; the ranks are those
below the number of pairs that was reported, each of one pair; merging joins bytes; and a pretoken below 2^31
bytes is merged greedily, on every route. -/
theorem inspect_opened (h : Image.parse image >>= integrityChecks = .ok facts) (ho : Opens host image v) :
    (∀ t < v.hdr.slots, keyOf v.pairs t ≠ BPV_PAIR_EMPTY →
      bpPairLookup v (keyOf v.pairs t >>> 32) (keyOf v.pairs t % 2 ^ 32) = .ok (valueOf v.pairs t) ∧
        ∃ j < facts.pairs.maxProbe, (pairHash v (keyOf v.pairs t) + j) % v.hdr.slots = t) ∧
    (∀ rank, (∃ a b m, v.HasId a ∧ v.HasId b ∧ v.rule a b = some (rank, m)) ↔ rank < facts.pairs.occupied) ∧
    (∀ a b a' b' rank m m', v.HasId a → v.HasId b → v.HasId a' → v.HasId b' → v.rule a b = some (rank, m) →
      v.rule a' b' = some (rank, m') → a = a' ∧ b = b') ∧
    v.ByteCoherent ∧
    ∀ p : List UInt8, p.length < 2 ^ 31 → Bytepair.Merges v p (greedy v.rule (p.map v.byteToken)) := by
  obtain ⟨hi, hl, -⟩ := inspect_sound h
  have hv := ho.valid
  have hc := Opens.reads ho
  have hcount := hv.countLe
  have hoccupied := hl.occupied
  rw [← hc.slots, ← hc.pairs] at hoccupied
  have hne : ∀ {a b t}, v.HasId a → v.HasId b → keyOf v.pairs t = pairKey a b → keyOf v.pairs t ≠ BPV_PAIR_EMPTY := by
    intro a b t ha hb hkey
    rw [hkey]
    exact Nat.ne_of_lt (pairKey_lt hcount ha hb).1
  refine ⟨fun t ht hfull => ?_, fun rank => ?_, ?_, hi.byteCoherent ho, fun p hlen => ?_⟩
  · have hs := hi.slot ho ht hfull
    rw [bpPairLookup_eq hv, hs.found]
    refine ⟨rfl, ?_⟩
    obtain ⟨-, j, -, hj, hhome, -⟩ := hl.merges t (hc.slots ▸ ht) (hc.pairs ▸ hfull)
    refine ⟨j, hj, ?_⟩
    have hlt := pairKey_lt hcount hs.left hs.right
    rw [← hs.key] at hlt
    unfold pairHash
    rw [← fmix64_eq (by have := hlt.1; unfold BPV_PAIR_EMPTY at this; omega), hc.slots, hc.pairs]
    exact hhome
  · rw [hoccupied, ← (hi.rank_iff ho).1 rank]
    constructor
    · rintro ⟨a, b, m, ha, hb, hrule⟩
      obtain ⟨t, ht, hkey, hr, -⟩ := (hi.rule_iff ho ha hb).1 hrule
      exact ⟨t, ht, hne ha hb hkey, hr⟩
    · rintro ⟨t, ht, hfull, hr⟩
      have hs := hi.slot ho ht hfull
      exact ⟨_, _, _, hs.left, hs.right, (hi.rule_iff ho hs.left hs.right).2 ⟨t, ht, hs.key, hr, rfl⟩⟩
  · intro a b a' b' rank m m' ha hb ha' hb' hrule hrule'
    obtain ⟨t, ht, hkey, hr, -⟩ := (hi.rule_iff ho ha hb).1 hrule
    obtain ⟨t', ht', hkey', hr', -⟩ := (hi.rule_iff ho ha' hb').1 hrule'
    obtain rfl := (hi.rank_iff ho).2 t ht t' ht' (hne ha hb hkey) (hne ha' hb' hkey') (hr.trans hr'.symm)
    rw [hkey, (pairKey_lt hcount ha hb).2, (pairKey_lt hcount ha' hb').2] at hkey'
    unfold BpVocab.HasId at ha hb ha' hb'
    omega
  · have hpretoken := pretokenIds_eq hv hlen
    have hgreedy := @greedy_map _ _ v.rule (routeRule v p.length) id v.HasId hv.closed.rule
      (fun a b ha hb => by
        rw [id, id, hi.route_eq ho p.length ha hb]
        cases v.rule a b with
        | none => rfl
        | some q => rfl)
      (p.map v.byteToken) (fun x hx => by
        obtain ⟨b, -, rfl⟩ := List.mem_map.1 hx
        exact (hv.byte b).1)
    rw [List.map_id, List.map_id] at hgreedy
    rw [hgreedy] at hpretoken
    exact (merges_iff ho hpretoken _).2 rfl

theorem inspect_opened_toy : ∃ facts, Image.parse toy.image >>= integrityChecks = .ok facts ∧ toy.vocab.ByteCoherent ∧
    Bytepair.Merges toy.vocab [0x61, 0x62, 0x63] (greedy toy.vocab.rule ([0x61, 0x62, 0x63].map toy.vocab.byteToken)) := by
  obtain ⟨facts, h⟩ := inspect_complete ((main_eq_zero (Int.le_refl 1)).1 toy_inspected)
  obtain ⟨-, -, -, hcoherent, hmerges⟩ := inspect_opened h toy_opens
  exact ⟨facts, h, hcoherent, hmerges _ (by decide)⟩

/-- Merging does not leave the ids that have bytes. -/
theorem Inspected.used_closed (h : Inspected image) (ho : Opens host image v) : v.Closed v.Used := by
  have hv := ho.valid
  constructor
  · intro b
    obtain ⟨hid, hspan⟩ := hv.byte b
    exact ⟨hid, by rw [hspan]; exact List.cons_ne_nil _ _⟩
  · rintro a b r m ⟨ha, hne⟩ ⟨hb, -⟩ hrule
    refine ⟨(hv.rule_spec ha hb hrule).2, ?_⟩
    rw [← h.byteCoherent ho a b r m ha hb hrule]
    exact List.append_ne_nil_of_left_ne_nil hne _

/-- What decoding restores of a text: the text where the NFC flag is clear; where it is set `bp_nfc` of a raw text, and else
of the gaps between the leftmost and longest matches. -/
structure Restored (v : BpVocab) (x : List UInt8) (flags : Nat) (y : List UInt8) : Prop where
  clear : v.hdr.flags &&& BPV_FLAG_NFC = 0 → y = x
  raw : flags &&& BP_RAW ≠ 0 → y = v.normal shipped x
  pieces : flags &&& BP_RAW = 0 → ∃ ps tail, LeftmostLongest v.addedBytes BpvAdded.id v.added x ps tail ∧
    y = ps.flatMap (fun p => v.normal shipped p.1 ++ v.addedBytes p.2) ++ v.normal shipped tail

/-- The flags that encoding looks at. -/
theorem encodeIds_flags (x : List UInt8) (flags : Nat) : encodeIds shipped v x (flags &&& BP_RAW) = encodeIds shipped v x flags := by
  unfold encodeIds
  rw [Nat.and_assoc, Nat.and_self]

/-- **A text comes to ids that stand for it**, where joined tokens have the bytes of both and merging leaves only ids that
have bytes. -/
theorem ids_restore {S : Nat → Prop} (ho : Opens host image v) (hcoherent : v.ByteCoherent) (hclosed : v.Closed S)
    (hS : ∀ id, S id → v.Used id) {x : List UInt8} {flags : Nat}
    (hlen : ∀ seg, v.IsSegment x flags seg → (v.normal shipped seg).length < 2 ^ 31) :
    ∃ ids, encodeIds shipped v x flags = some ids ∧ (∀ id ∈ ids, v.Used id) ∧ Restored v x flags (ids.flatMap v.span) := by
  have hv := ho.valid
  have hm := ho.matcher
  obtain ⟨ids, hids⟩ := encodeIds_isSome (T := shipped) hv x flags
  have hraw : flags &&& BP_RAW = 0 ∨ flags &&& BP_RAW = BP_RAW := by
    show flags &&& 1 = 0 ∨ flags &&& 1 = 1
    rw [Nat.and_one_is_mod]
    omega
  have hsegments : ∀ seg, v.IsSegment x (flags &&& BP_RAW) seg → (v.normal shipped seg).length < 2 ^ 31 := by
    intro seg hseg
    apply hlen
    unfold BpVocab.IsSegment at hseg ⊢
    rwa [Nat.and_assoc, Nat.and_self] at hseg
  obtain ⟨hwhole, hlook⟩ := encodeIds_flatMap shipped_scannable hv hm hcoherent hraw hsegments ((encodeIds_flags x flags).trans hids)
  have hcut := cut_pieces hv hm x
  refine ⟨ids, hids, encodeIds_forall hv hm hclosed hS (fun _ a ha => hv.added_used ha) hids, ?_, ?_, ?_⟩
  · intro hnfc
    rcases hraw with hzero | hset
    · rw [hlook hzero, restored_eq hnfc hcut]
    · rw [hwhole hset, normal_of_clear hnfc]
  · exact fun hset => hwhole (hraw.resolve_left hset)
  · exact fun hzero => ⟨_, _, hcut, hlook hzero⟩

/-- **Decoding undoes encoding of an inspected vocabulary**, whoever wrote it: as raw text up to `bp_nfc`, and where added
tokens are looked for up to `bp_nfc` of the gaps between the leftmost and longest matches. -/
theorem inspect_roundtrip (h : Image.parse image >>= integrityChecks = .ok facts) (ho : Opens host image v) {x : List UInt8}
    {flags : Nat} (hflags : flags = 0 ∨ flags = BP_RAW)
    (hlen : ∀ seg, v.IsSegment x flags seg → (v.normal shipped seg).length < 2 ^ 31) :
    ∃ ids y, Encodes v x flags ids ∧ Convert.DecodedAs v ids y ∧
      (v.hdr.flags &&& BPV_FLAG_NFC = 0 → y = x) ∧
      (flags = BP_RAW → y = v.normal shipped x) ∧
      (flags = 0 → ∃ ps tail, LeftmostLongest v.addedBytes BpvAdded.id v.added x ps tail ∧
        y = ps.flatMap (fun p => v.normal shipped p.1 ++ v.addedBytes p.2) ++ v.normal shipped tail) := by
  obtain ⟨hi, -, -⟩ := inspect_sound h
  obtain ⟨ids, hids, hused, hrestored⟩ := ids_restore ho (hi.byteCoherent ho) (hi.used_closed ho) (fun _ hid => hid) hlen
  refine ⟨ids, ids.flatMap v.span, (encodes_iff ho.valid ho.matcher).2 hids, decodes_used ho hused, hrestored.clear, ?_, ?_⟩
  · rintro rfl
    exact hrestored.raw (by decide)
  · rintro rfl
    exact hrestored.pieces (Nat.zero_and _)

theorem inspect_roundtrip_toy : ∃ ids y, Encodes toy.vocab [0x61, 0xC3, 0x3C, 0x78, 0x3E] 0 ids ∧
    Convert.DecodedAs toy.vocab ids y := by
  obtain ⟨facts, h⟩ := inspect_complete ((main_eq_zero (Int.le_refl 1)).1 toy_inspected)
  have hlen : ([0x61, 0xC3, 0x3C, 0x78, 0x3E] : List UInt8).length < 2 ^ 29 := by decide
  obtain ⟨ids, y, hencodes, hdecodes, -⟩ := inspect_roundtrip h toy_opens (.inl rfl)
    (length_segment_lt shipped_coherent (Opens.valid toy_opens) (Opens.matcher toy_opens) 0 hlen)
  exact ⟨ids, y, hencodes, hdecodes⟩

end Guarantees

end Bytepair.Dump
