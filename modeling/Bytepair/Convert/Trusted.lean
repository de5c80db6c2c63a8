import Bytepair.Convert.Selfcheck
import Bytepair.Convert.Textbook

/-!
# What a checked image holds

`verifyImage_faithful`: whoever wrote an image, if it passes `verify_image` for a document and the loader opens it,
its handle is the document on the ids of the document. The two checks together need nothing of the program that wrote it.
-/

namespace Bytepair.Convert
open Support Support.Probing

section Handle

variable {host : Host} {image : List UInt8} {v : BpVocab}

/-- The handle has what the image reads as. -/
theorem Opens.reads (ho : Opens host image v) : (Contents.read image).Handle v := by
  have hof := ho.image
  constructor
  · rw [hof.hdr]
    rfl
  · rw [hof.hdr, Contents.read_vocabCount]
  · rw [hof.hdr, BpvHeader.slots, Nat.one_shiftLeft]
    rfl
  · rw [hof.tokOff, hof.hdr]
    rfl
  · rw [hof.blob, hof.hdr]
    rfl
  · rw [hof.pairs, hof.hdr]
    rfl
  · rw [hof.byteId, hof.hdr]
    rfl
  · rw [hof.added, hof.hdr]
    rfl

/-- The loader's lookup is that of the check. -/
theorem lookup_findPair {c : Contents} (hc : c.Handle v) (hv : v.Valid) {a b : Nat} (ha : v.HasId a) (hb : v.HasId b) :
    v.lookup a b = (c.findPair (pairKey a b)).getD BPV_PAIR_EMPTY := by
  obtain ⟨hlt, -⟩ := pairKey_lt hv.countLe ha hb
  have hhash : pairHash v (pairKey a b) = fmix64 (pairKey a b) % 2 ^ c.slotsLog2 := by
    unfold pairHash
    rw [hc.slots, fmix64_eq (by unfold BPV_PAIR_EMPTY at hlt; omega)]
  unfold BpVocab.lookup Contents.findPair
  rw [hhash, hc.slots, hc.pairs, show BPV_PAIR_EMPTY = EMPTY_KEY from rfl]
  cases probe (stops (keyOf c.pairs) EMPTY_KEY (pairKey a b)) (2 ^ c.slotsLog2) (2 ^ c.slotsLog2)
      (fmix64 (pairKey a b) % 2 ^ c.slotsLog2) with
  | none => rfl
  | some t =>
    dsimp only
    split
    · rfl
    · rfl

end Handle

section Source

variable {c : Contents} {s : Source}

/-- A text of the vocabulary has an id of the image. -/
theorem Represents.vocabId_lt (h : Represents c s) {text : Str} {id : Nat} (hid : vocabId s.vocab text = some id) :
    id < c.vocabCount := by
  obtain ⟨j, hmem, hj⟩ := vocabId_eq_some hid
  obtain ⟨tid, -, htid, -, hlt, -⟩ := h.vocab text j hmem
  rw [hj] at htid
  cases htid
  exact hlt

/-- **The table has the merges and nothing else.** -/
theorem Represents.findPair_iff (h : Represents c s) (hcount : c.vocabCount < 2 ^ 32) {key value : Nat} (hkey : key ≠ EMPTY_KEY) :
    c.findPair key = some value ↔ ∃ rank a b m, s.Merge rank a b m ∧ key = pairKey a b ∧ value = rank <<< 32 ||| m := by
  have hpos : 0 < 2 ^ c.slotsLog2 := Nat.two_pow_pos _
  -- where a merge is found
  have hfound : ∀ rank, ∃ t, rank < s.merges.length → ∃ a b m, s.Merge rank a b m ∧ t < 2 ^ c.slotsLog2 ∧
      keyOf c.pairs t = pairKey a b ∧ valueOf c.pairs t = rank <<< 32 ||| m ∧ keyOf c.pairs t ≠ EMPTY_KEY ∧
      valueOf c.pairs t / 2 ^ 32 = rank := by
    intro rank
    by_cases hrank : rank < s.merges.length
    · obtain ⟨a, b, m, hjoins, hfind⟩ := h.merge rank _ (List.getElem?_eq_getElem hrank)
      obtain ⟨left, right, -, hleft, hright, hm⟩ := id hjoins
      have ha := h.vocabId_lt hleft
      have hb := h.vocabId_lt hright
      have hm := h.vocabId_lt hm
      unfold Contents.findPair at hfind
      split at hfind
      · next t hprobe =>
        split at hfind
        · next htkey =>
          have hvalue := Option.some.inj hfind
          have ht := probe_lt (Nat.mod_lt _ hpos) hprobe
          refine ⟨t, fun _ => ⟨a, b, m, ⟨_, List.getElem?_eq_getElem hrank, hjoins⟩, ht, htkey, hvalue, ?_, ?_⟩⟩
          · rw [htkey, pairKey_eq (by omega)]
            unfold EMPTY_KEY
            omega
          · rw [hvalue, ← Nat.shiftLeft_add_eq_or_of_lt (show m < 2 ^ 32 by omega), Nat.shiftLeft_eq]
            omega
        · cases hfind
      · cases hfind
    · exact ⟨0, fun hlt => absurd hlt hrank⟩
  choose slot hslot using hfound
  constructor
  · intro hfind
    unfold Contents.findPair at hfind
    split at hfind
    · next t hprobe =>
      split at hfind
      · next htkey =>
        have hvalue := Option.some.inj hfind
        have ht := probe_lt (Nat.mod_lt _ hpos) hprobe
        have hall := (@le_occupiedBelow (keyOf c.pairs) (2 ^ c.slotsLog2) s.merges.length slot
          (fun rank hrank => by
            obtain ⟨a, b, m, -, hlt, -, -, hne, -⟩ := hslot rank hrank
            exact ⟨hlt, hne⟩)
          (fun rank hrank rank' hrank' heq => by
            obtain ⟨-, -, -, -, -, -, -, -, hr⟩ := hslot rank hrank
            obtain ⟨-, -, -, -, -, -, -, -, hr'⟩ := hslot rank' hrank'
            rw [← hr, heq, hr'])).2 h.occupied
        obtain ⟨rank, hrank, rfl⟩ := hall t ht (by rwa [htkey])
        obtain ⟨a, b, m, hmerge, -, hk, hv, -, -⟩ := hslot rank hrank
        exact ⟨rank, a, b, m, hmerge, htkey.symm.trans hk, hvalue.symm.trans hv⟩
      · cases hfind
    · cases hfind
  · rintro ⟨rank, a, b, m, ⟨entry, hentry, hjoins⟩, rfl, rfl⟩
    obtain ⟨a', b', m', hjoins', hfind⟩ := h.merge rank entry hentry
    obtain ⟨rfl, rfl, rfl⟩ := hjoins.unique hjoins'
    exact hfind

/-- Where no two records have an id, every added token of the source has a record. -/
theorem Represents.records (h : Represents c s) (hsorted : (c.records.map BpvAdded.id).Nodup) :
    ∃ source, sourceAdded s.addedTokens = .ok source ∧ (∀ a ∈ c.records, Lists c source a) ∧
      ∀ id t, source.lookup id = some t → ∃ a ∈ c.records, a.id = id := by
  obtain ⟨source, hsource, hlen, hlists⟩ := h.added
  refine ⟨source, hsource, hlists, fun id t ht => ?_⟩
  have hsubset : c.records.map BpvAdded.id ⊆ source.map Prod.fst := by
    intro id hid
    obtain ⟨a, ha, rfl⟩ := List.mem_map.1 hid
    obtain ⟨t, ht, -⟩ := (hlists a ha).token
    exact key_mem ht
  have hperm := (List.subperm_of_subset hsorted hsubset).perm_of_length_le (by
    rw [List.length_map, List.length_map, hlen])
  exact List.mem_map.1 (hperm.mem_iff.2 (key_mem ht))

end Source

section Merging

variable {host : Host} {image : List UInt8} {v : BpVocab} {s : Source}

/-- What the loader's lookup finds of a pair. -/
theorem Represents.lookup_eq (h : Represents (.read image) s) (ho : Opens host image v) {a b : Nat} (ha : v.HasId a)
    (hb : v.HasId b) : (∀ rank m, s.Merge rank a b m → v.lookup a b = rank <<< 32 ||| m) ∧
      ((∀ rank m, ¬s.Merge rank a b m) → v.lookup a b = BPV_PAIR_EMPTY) := by
  have hc := Opens.reads ho
  have hv := ho.valid
  have hcountLe := hv.countLe
  have hcount : (Contents.read image).vocabCount < 2 ^ 32 := by
    rw [← hc.count]
    omega
  obtain ⟨hlt, -⟩ := pairKey_lt hcountLe ha hb
  have hfind : ∀ value, (Contents.read image).findPair (pairKey a b) = some value ↔
      ∃ rank m, s.Merge rank a b m ∧ value = rank <<< 32 ||| m := by
    intro value
    rw [h.findPair_iff hcount (Nat.ne_of_lt hlt)]
    constructor
    · rintro ⟨rank, a', b', m, hmerge, hkey, rfl⟩
      obtain ⟨entry, hentry, left, right, hparts, hleft, hright, hm⟩ := hmerge
      have ha' := h.vocabId_lt hleft
      have hb' := h.vocabId_lt hright
      unfold BpVocab.HasId at ha hb
      rw [pairKey_eq (show b < 2 ^ 32 by omega), pairKey_eq (show b' < 2 ^ 32 by omega)] at hkey
      obtain ⟨rfl, rfl⟩ : a = a' ∧ b = b' := by omega
      exact ⟨rank, m, ⟨entry, hentry, left, right, hparts, hleft, hright, hm⟩, rfl⟩
    · rintro ⟨rank, m, hmerge, rfl⟩
      exact ⟨rank, a, b, m, hmerge, rfl, rfl⟩
  rw [lookup_findPair hc hv ha hb]
  constructor
  · intro rank m hmerge
    rw [(hfind _).2 ⟨rank, m, hmerge, rfl⟩]
    rfl
  · intro hno
    cases hcase : (Contents.read image).findPair (pairKey a b) with
    | none => rfl
    | some value =>
      obtain ⟨rank, m, hmerge, -⟩ := (hfind value).1 hcase
      exact absurd hmerge (hno rank m)

/-- The bytes of a text of the vocabulary are the span of its id. -/
theorem Represents.text_eq (h : Represents (.read image) s) (ho : Opens host image v) {text : Str} {id : Nat}
    (hid : vocabId s.vocab text = some id) : v.HasId id ∧ text = (v.span id).map b2u := by
  have hc := Opens.reads ho
  obtain ⟨j, hmem, hj⟩ := vocabId_eq_some hid
  obtain ⟨tid, raw, htid, htext, hlt, hspan⟩ := h.vocab text j hmem
  rw [hj] at htid
  cases htid
  constructor
  · rwa [BpVocab.HasId, hc.count]
  · rw [htext, BpVocab.span, hc.tokOff, hc.blob, hspan]

/-- The records of a checked image are the added tokens of its document. -/
theorem Represents.added_eq (h : Represents (.read image) s) (ho : Opens host image v) :
    ∃ source, sourceAdded s.addedTokens = .ok source ∧
      (∀ a ∈ v.added, ∃ t, source.lookup a.id = some t ∧ contentBytes t = .ok (v.span a.id) ∧
        a.flags = if truthy (get t "special" (.bool false)) then 1 else 0) ∧
      ∀ id t, source.lookup id = some t → ∃ a ∈ v.added, a.id = id := by
  have hc := Opens.reads ho
  have hsorted : ((Contents.read image).records.map BpvAdded.id).Nodup := by
    rw [← hc.added]
    exact List.pairwise_map.2 (ho.valid.sorted.imp Nat.ne_of_lt)
  obtain ⟨source, hsource, hlists, hall⟩ := h.records hsorted
  rw [← hc.added] at hlists hall
  refine ⟨source, hsource, fun a ha => ?_, hall⟩
  have hl := hlists a ha
  obtain ⟨t, ht, hcontent, hspecial⟩ := hl.token
  refine ⟨t, ht, ?_, hspecial⟩
  have hlen := hl.len
  have hoffset := hl.offset
  rw [hcontent, BpVocab.span, spanOf, hc.tokOff, hc.blob, ← hl.offset]
  congr 2
  omega

/-- **A checked image merges by the list of its document.** -/
theorem Represents.book (h : Represents (.read image) s) (ho : Opens host image v) : Book s v := by
  have hc := Opens.reads ho
  have hv := ho.valid
  have hfew : s.merges.length < 0xFFFFFFFF := by
    -- the loader leaves a third of at most 2^32 slots empty
    obtain ⟨r, hr, -, hiff⟩ := bpVocabOpen_loads host image
    have hload := (hiff.1 ⟨v, Except.ok.inj (hr.symm.trans ho)⟩).1.pairs.2
    have hslots : v.hdr.slots ≤ 2 ^ 32 := by
      unfold BpvHeader.slots
      rw [Nat.one_shiftLeft]
      exact Nat.pow_le_pow_right (by decide) hv.log2
    rw [← ho.image.hdr, BpvHeader.readPairs, ← ho.image.pairs, hc.pairs, hc.slots, h.occupied] at hload
    rw [hc.slots] at hslots
    omega
  refine ⟨fun hid => (h.text_eq ho hid).1, fun hid hid' => ?_, fun hentry => ?_, fun ha hb => ?_, hfew⟩
  · rw [(h.text_eq ho hid).2, (h.text_eq ho hid').2]
  · obtain ⟨a, b, m, hjoins, -⟩ := h.merge _ _ hentry
    exact ⟨a, b, m, hjoins⟩
  · obtain ⟨hpresent, habsent⟩ := h.lookup_eq ho ha hb
    refine rule_iff_of_lookup hpresent habsent fun rank m hmerge => ?_
    obtain ⟨entry, hentry, left, right, -, -, -, hm⟩ := hmerge
    have hlt := h.vocabId_lt hm
    have hcount := hv.countLe
    rw [hc.count] at hcount
    exact ⟨Nat.lt_trans (List.getElem?_eq_some_iff.1 hentry).1 hfew, by omega⟩

end Merging

/-- **A checked image is its document** on the ids that the document has. Whatever wrote it: the tokens of an image that
passed `verify_image` and was opened are the vocabulary's, its lookup finds the merges and nothing else, its
records are the added tokens, and its NFC flag is the normalizer's. The check does not look at other ids, nor whether the byte
table names them; where it names ids of the document a pretoken is encoded by the book. -/
theorem verifyImage_faithful {image raw : List UInt8} {doc : Json} {name : Str} (h : verifyImage image raw doc name = .ok ())
    {host : Host} {v : BpVocab} (ho : Opens host image v) :
    ∃ s, doc.source = some s ∧
      (∀ text id, (text, id) ∈ s.vocab → ∃ tid bytes, tokenId id = some tid ∧ text = bytes.map b2u ∧ v.HasId tid ∧
        v.span tid = bytes) ∧
      (∀ a b, v.HasId a → v.HasId b →
        (∀ rank m, s.Merge rank a b m → bpPairLookup v a b = .ok (rank <<< 32 ||| m)) ∧
          ((∀ rank m, ¬s.Merge rank a b m) → bpPairLookup v a b = .ok BPV_PAIR_EMPTY)) ∧
      (∃ source, sourceAdded s.addedTokens = .ok source ∧
        (∀ a ∈ v.added, ∃ t, source.lookup a.id = some t ∧ contentBytes t = .ok (v.span a.id) ∧
          a.flags = if truthy (get t "special" (.bool false)) then 1 else 0) ∧
        ∀ id t, source.lookup id = some t → ∃ a ∈ v.added, a.id = id) ∧
      (v.hdr.flags = if isNull s.normalizer then 0 else FLAG_NFC) ∧
      ∀ p : List UInt8, p.length < 2 ^ 31 → (∀ b ∈ p, ∃ text, vocabId s.vocab text = some (v.byteToken b)) →
        ∃ ids, Merges v p ids ∧
          ids.map some = (greedy (textRule s.merges) (p.map fun b => [b2u b])).map (vocabId s.vocab) := by
  obtain ⟨s, hs, hverified⟩ := verifyImage_eq_ok.1 h
  have hr := hverified.source
  have hc := Opens.reads ho
  have hv := ho.valid
  refine ⟨s, hs, ?_, ?_, ?_, ?_, ?_⟩
  · intro text id hmem
    obtain ⟨tid, bytes, htid, htext, hlt, hspan⟩ := hr.vocab text id hmem
    refine ⟨tid, bytes, htid, htext, ?_, ?_⟩
    · rwa [BpVocab.HasId, hc.count]
    · rwa [BpVocab.span, hc.tokOff, hc.blob]
  · intro a b ha hb
    obtain ⟨hpresent, habsent⟩ := hr.lookup_eq ho ha hb
    rw [bpPairLookup_eq hv]
    constructor
    · exact fun rank m hmerge => congrArg Except.ok (hpresent rank m hmerge)
    · exact fun hno => congrArg Except.ok (habsent hno)
  · exact hr.added_eq ho
  · rw [hc.flags]
    exact hr.nfc
  · intro p hlen hknown
    apply (hr.book ho).merges ho _ hlen
    intro b hb
    obtain ⟨text, htext⟩ := hknown b hb
    -- the loader has checked that the id is that of the byte
    have hspan := (hr.text_eq ho htext).2
    rw [(hv.byte b).2] at hspan
    rw [hspan] at htext
    exact htext

theorem verifyImage_faithful_toy : ∃ s, (toyDoc [addedEntryOf (str "<x>") 258]).source = some s ∧
    ∀ rank m, s.Merge rank 0x61 0x62 m → bpPairLookup toy.vocab 0x61 0x62 = .ok (rank <<< 32 ||| m) := by
  have hlog2 : (BpvHeader.read toy.image).pairSlotsLog2 = 4 := by decide +kernel
  have hcount : toy.vocab.hdr.vocabCount = 259 := by decide +kernel
  have hid : ∀ id < 259, toy.vocab.HasId id := by
    intro id hid
    rwa [BpVocab.HasId, hcount]
  obtain ⟨s₀, p, c, hs₀, -, -, himage, hslots⟩ := convert_built toy_converts
  rw [himage.pairSlotsLog2, hslots] at hlog2
  obtain ⟨s₁, hs₁, hpasses, -⟩ := convert_verifies toy_converts (by decide)
  rw [hs₀] at hs₁
  cases hs₁
  obtain ⟨s, hs, -, hlookup, -⟩ := verifyImage_faithful (hpasses.2 (by omega)) toy_opens
  exact ⟨s, hs, (hlookup 0x61 0x62 (hid _ (by decide)) (hid _ (by decide))).1⟩

end Bytepair.Convert
