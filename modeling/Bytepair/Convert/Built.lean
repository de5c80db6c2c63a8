import Bytepair.Convert.Contents
import Bytepair.Convert.Table

/-!
# The contents of a converted image

`convert_written`: a conversion that ends with an image had a `tokenizer.json` with a vocabulary,
merges and added tokens in it, and the image holds what the passes over them made of them.
-/

namespace Bytepair.Convert
open Support

/-- What a `tokenizer.json` says. -/
structure Source where
  normalizer : Json
  vocab : List (Str × Json)
  merges : List Json
  addedTokens : List Json

/-- The parts of a document that a conversion reads. -/
def Json.source (doc : Json) : Option Source := do
  let doc ← items doc
  let model ← items (get doc "model" .null)
  let vocab ← items (get model "vocab" .null)
  let merges ← elements (get model "merges" .null)
  let addedTokens ← elements (get doc "added_tokens" (.arr []))
  pure ⟨get doc "normalizer" .null, vocab, merges, addedTokens⟩

/-- A vocabulary entry or an added token of the source owns the id and has the bytes. -/
def Source.Owns (s : Source) (id : Nat) (bytes : List UInt8) : Prop :=
  (∃ j, (bytes.map b2u, j) ∈ s.vocab ∧ tokenId j = some id) ∨
    ∃ entry ∈ s.addedTokens, ∃ t, validateAdded entry = .ok t ∧ t.tid = id ∧ encodeUtf8 t.content = .ok bytes

/-- What the passes of a conversion come to. -/
structure Passes where
  idToBytes : List (Nat × List UInt8)
  tokens : List AddedToken
  addedBytes : List (Nat × List UInt8)
  table : PairTable

/-- The passes over a source, and the contents they are laid out as. -/
structure Built (s : Source) (p : Passes) (c : Contents) : Prop where
  flags : c.flags = if isNull s.normalizer then 0 else FLAG_NFC
  decoded : Decoded s.vocab p.idToBytes
  tokens : ∃ out, s.addedTokens.mapM validateAdded = .ok out ∧ p.tokens.Perm out
  sorted : p.tokens.Pairwise fun t u => t.tid < u.tid
  contents : (p.tokens.map AddedToken.content).Nodup
  addedBytes : p.tokens.mapM (addedEntry p.idToBytes) = .ok p.addedBytes
  below : ∀ id ∈ p.idToBytes.map (·.1) ++ p.tokens.map AddedToken.tid, id < c.vocabCount
  top : ∃ id ∈ p.idToBytes.map (·.1) ++ p.tokens.map AddedToken.tid, id + 1 = c.vocabCount
  offsets : c.offsets = ((List.range c.vocabCount).map (pieceOf p.idToBytes p.addedBytes)).scanl
    (fun n piece => n + piece.length) 0
  blob : c.blob = ((List.range c.vocabCount).map (pieceOf p.idToBytes p.addedBytes)).flatten
  bytes : buildByteToId s.vocab = .ok c.byteIds
  filled : Filled s.vocab c.slotsLog2 s.merges.zipIdx p.table
  matched : p.table.byteMismatches = 0
  pairs : c.pairs = (p.table.keys.zip p.table.values).flatMap fun e => [e.1, e.2]
  load : 20 * s.merges.length ≤ 13 * 2 ^ c.slotsLog2
  records : c.records = p.tokens.map fun t =>
    ⟨t.tid, offsetOf c.offsets t.tid, ((p.addedBytes.lookup t.tid).getD []).length, if t.special then 1 else 0⟩
  info : ∃ name, encodeMeta [name, str CONVERTER_VERSION, str PROFILE1_REGEX] = .ok c.info

section Steps

/-- The NFC flag is set unless the normalizer is null. -/
theorem validateNormalizer_eq_ok {doc : List (Str × Json)} {flags : Nat} (h : validateNormalizer doc = .ok flags) :
    flags = if isNull (get doc "normalizer" .null) then 0 else FLAG_NFC := by
  unfold validateNormalizer at h
  split at h
  · next hnull =>
    cases h
    rw [hnull]
    rfl
  · next norm hnorm =>
    obtain ⟨_, -, h⟩ := bind_eq_ok.1 h
    cases h
    cases hval : get doc "normalizer" .null with
    | null => exact absurd hval hnorm
    | _ => rfl

/-- A model that passes is a dictionary with its vocabulary and merges. -/
theorem validateModel_eq_ok {doc : List (Str × Json)} {vocab : List (Str × Json)} {merges : List Json}
    (h : validateModel doc = .ok (vocab, merges)) :
    ∃ model, items (get doc "model" .null) = some model ∧ items (get model "vocab" .null) = some vocab ∧
      elements (get model "merges" .null) = some merges := by
  obtain ⟨model, hmodel, h⟩ := bind_eq_ok.1 h
  obtain ⟨_, -, h⟩ := bind_eq_ok.1 h
  obtain ⟨_, -, h⟩ := bind_eq_ok.1 h
  obtain ⟨vocab', hvocab, h⟩ := bind_eq_ok.1 h
  obtain ⟨merges', hmerges, h⟩ := bind_eq_ok.1 h
  cases h
  exact ⟨model, need_eq_ok.1 hmodel, need_eq_ok.1 hvocab, need_eq_ok.1 hmerges⟩

/-- Added tokens that pass are read one by one and sorted by their ids, and no two have an id or a text. -/
theorem validateAddedTokens_eq_ok {doc : List (Str × Json)} {tokens : List AddedToken}
    (h : validateAddedTokens doc = .ok tokens) :
    ∃ entries out, elements (get doc "added_tokens" (.arr [])) = some entries ∧ entries.mapM validateAdded = .ok out ∧
      tokens.Perm out ∧ (tokens.Pairwise fun t u => t.tid < u.tid) ∧ (tokens.map AddedToken.content).Nodup := by
  obtain ⟨entries, hentries, h⟩ := bind_eq_ok.1 h
  obtain ⟨out, hout, h⟩ := bind_eq_ok.1 h
  obtain ⟨_, hids, h⟩ := bind_eq_ok.1 h
  obtain ⟨_, htexts, h⟩ := bind_eq_ok.1 h
  cases h
  have hids := of_decide_eq_true (require_eq_ok.1 hids)
  have htexts := of_decide_eq_true (require_eq_ok.1 htexts)
  have hperm := List.perm_insertionSort (fun s t : AddedToken => s.tid ≤ t.tid) out
  have : Std.Total fun s t : AddedToken => s.tid ≤ t.tid := ⟨fun s t => Nat.le_total s.tid t.tid⟩
  have : IsTrans AddedToken fun s t => s.tid ≤ t.tid := ⟨fun s t u => Nat.le_trans⟩
  have hsorted := List.pairwise_insertionSort (fun s t : AddedToken => s.tid ≤ t.tid) out
  have hnodup : ((out.insertionSort fun s t => s.tid ≤ t.tid).map AddedToken.tid).Nodup :=
    (hperm.map AddedToken.tid).nodup_iff.2 hids
  refine ⟨entries, out, need_eq_ok.1 hentries, hout, hperm, ?_, (hperm.map AddedToken.content).nodup_iff.2 htexts⟩
  exact (hsorted.and (List.pairwise_map.1 hnodup)).imp fun ⟨hle, hne⟩ => Nat.lt_of_le_of_ne hle hne

theorem le_foldl_max (ids : List Nat) (n : Nat) : n ≤ ids.foldl max n ∧ ∀ id ∈ ids, id ≤ ids.foldl max n := by
  induction ids generalizing n with
  | nil => exact ⟨Nat.le_refl n, List.forall_mem_nil _⟩
  | cons m ids ih =>
    obtain ⟨hmax, hids⟩ := ih (max n m)
    rw [List.foldl_cons, List.forall_mem_cons]
    exact ⟨(Nat.le_max_left n m).trans hmax, (Nat.le_max_right n m).trans hmax, hids⟩

theorem foldl_max_mem (ids : List Nat) (n : Nat) : ids.foldl max n = n ∨ ids.foldl max n ∈ ids := by
  induction ids generalizing n with
  | nil => exact .inl rfl
  | cons m ids ih =>
    rw [List.foldl_cons]
    rcases ih (max n m) with heq | hmem
    · rw [heq]
      rcases Nat.le_total n m with hle | hle
      · rw [Nat.max_eq_right hle]
        exact .inr List.mem_cons_self
      · exact .inl (Nat.max_eq_left hle)
    · exact .inr (List.mem_cons_of_mem _ hmem)

/-- The largest of some ids is one of them. -/
theorem foldl_max_zero {ids : List Nat} (hne : ids ≠ []) : ids.foldl max 0 ∈ ids := by
  rcases foldl_max_mem ids 0 with hzero | hmem
  · obtain ⟨id, hid⟩ := List.exists_mem_of_ne_nil ids hne
    have hle := (le_foldl_max ids 0).2 id hid
    obtain rfl : id = 0 := by omega
    rwa [hzero]
  · exact hmem

/-- The byte table has the ids of the texts of one byte. -/
theorem buildByteToId_eq_ok {vocab : List (Str × Json)} {ids : List Nat} (h : buildByteToId vocab = .ok ids) :
    ids.length = 256 ∧ ∀ b : UInt8, vocabId vocab [b2u b] = some (ids[b.toNat]?.getD 0) := by
  obtain ⟨table, hall, h⟩ := bind_eq_ok.1 h
  obtain ⟨_, -, h⟩ := bind_eq_ok.1 h
  cases h
  have hall := mapM_eq_ok.1 hall
  have hlen := hall.length_eq
  rw [List.length_range] at hlen
  refine ⟨hlen.symm, fun b => ?_⟩
  have hlt := b.toNat_lt
  have hb : b.toNat < (List.range 256).length := by rwa [List.length_range]
  have hone := need_eq_ok.1 (hall.get hb (by omega))
  rw [List.get_eq_getElem, List.get_eq_getElem, List.getElem_range, UInt8.ofNat_toNat] at hone
  rw [List.getElem?_eq_getElem (by omega)]
  exact hone

theorem recordWords_map (offsets : List Nat) (addedBytes : List (Nat × List UInt8)) (tokens : List AddedToken) :
    (tokens.map fun t => (⟨t.tid, offsetOf offsets t.tid, ((addedBytes.lookup t.tid).getD []).length,
      if t.special then 1 else 0⟩ : BpvAdded)).flatMap (fun a => [a.id, a.offset, a.len, a.flags]) =
        tokens.flatMap (addedRecord offsets addedBytes) := by
  rw [List.flatMap_map]
  rfl

/-- The sections of an image, all of whose numbers fit. -/
theorem sections_eq_ok {offsets pairs byteIds records : List Nat} {blob : List UInt8} {texts : List Str}
    {payloads : List (List UInt8)}
    (h : [u32Array offsets, pure blob, u64Array pairs, u32Array byteIds, u32Array records, encodeMeta texts].mapM id =
      .ok payloads) :
    ∃ info, encodeMeta texts = .ok info ∧
      (∀ w ∈ offsets, w < 256 ^ 4) ∧ (∀ w ∈ pairs, w < 256 ^ 8) ∧ (∀ w ∈ byteIds, w < 256 ^ 4) ∧
      (∀ w ∈ records, w < 256 ^ 4) ∧
      payloads = [offsets.flatMap (toLittleEndian 4), blob, pairs.flatMap (toLittleEndian 8),
        byteIds.flatMap (toLittleEndian 4), records.flatMap (toLittleEndian 4), info] := by
  have hsections := mapM_eq_ok.1 h
  cases hsections with | cons h₀ hsections =>
  cases hsections with | cons h₁ hsections =>
  cases hsections with | cons h₂ hsections =>
  cases hsections with | cons h₃ hsections =>
  cases hsections with | cons h₄ hsections =>
  cases hsections with | @cons _ info _ _ h₅ hsections =>
  cases hsections
  obtain ⟨hoffsets, rfl⟩ := pack_eq_ok.1 h₀
  cases h₁
  obtain ⟨hpairs, rfl⟩ := pack_eq_ok.1 h₂
  obtain ⟨hbyteIds, rfl⟩ := pack_eq_ok.1 h₃
  obtain ⟨hrecords, rfl⟩ := pack_eq_ok.1 h₄
  exact ⟨info, h₅, hoffsets, hpairs, hbyteIds, hrecords, rfl⟩

end Steps

/-- How many slots the table of `n` merges has, as a power of two. -/
def tableLog2 (ceilLog2 : Nat → Nat) (n : Nat) : Nat :=
  if n = 0 then MIN_PAIR_SLOTS_LOG2 else max MIN_PAIR_SLOTS_LOG2 (ceilLog2 n)

/-- **What a conversion wrote**: the passes over the source, laid out under a header. -/
theorem convert_written {ceilLog2 : Nat → Nat} {raw : List UInt8} {doc : Json} {name : Str} {image : List UInt8}
    (h : convert ceilLog2 raw doc name = .ok image) :
    ∃ s p c, doc.source = some s ∧ Built s p c ∧ c.Sized ∧ c.slotsLog2 = tableLog2 ceilLog2 s.merges.length ∧
      encodeMeta [name, str CONVERTER_VERSION, str PROFILE1_REGEX] = .ok c.info ∧
      assemble c.flags c.vocabCount c.records.length c.slotsLog2 (fnv1a64 raw) c.payloads = .ok image := by
  obtain ⟨kvs, hkvs, h⟩ := bind_eq_ok.1 h
  obtain ⟨flags, hflags, h⟩ := bind_eq_ok.1 h
  obtain ⟨_, -, h⟩ := bind_eq_ok.1 h
  obtain ⟨⟨vocab, merges⟩, hmodel, h⟩ := bind_eq_ok.1 h
  obtain ⟨tokens, htokens, h⟩ := bind_eq_ok.1 h
  obtain ⟨idToBytes, hdecoded, h⟩ := bind_eq_ok.1 h
  obtain ⟨addedBytes, haddedBytes, h⟩ := bind_eq_ok.1 h
  obtain ⟨_, hsome, h⟩ := bind_eq_ok.1 h
  obtain ⟨_, hcount, h⟩ := bind_eq_ok.1 h
  obtain ⟨_, -, h⟩ := bind_eq_ok.1 h
  obtain ⟨byteIds, hbytes, h⟩ := bind_eq_ok.1 h
  obtain ⟨_, -, h⟩ := bind_eq_ok.1 h
  obtain ⟨_, hload, h⟩ := bind_eq_ok.1 h
  obtain ⟨⟨keys, values⟩, htable, h⟩ := bind_eq_ok.1 h
  obtain ⟨payloads, hpayloads, h⟩ := bind_eq_ok.1 h
  obtain ⟨model, hmodel, hvocab, hmerges⟩ := validateModel_eq_ok hmodel
  obtain ⟨entries, out, hentries, hout, hperm, hsorted, hcontents⟩ := validateAddedTokens_eq_ok htokens
  obtain ⟨t, hfilled, hmatched, rfl, rfl⟩ := buildPairTable_spec htable
  obtain ⟨info, hinfo, hoffsetsLt, hpairsLt, hbyteIdsLt, hrecordsLt, rfl⟩ := sections_eq_ok hpayloads
  have hlow := (le_foldl_max (idToBytes.map (·.1) ++ tokens.map AddedToken.tid) 0).2
  have hsome : idToBytes.map (·.1) ++ tokens.map AddedToken.tid ≠ [] := by
    intro hnil
    rw [hnil] at hsome
    exact absurd (require_eq_ok.1 hsome) (by decide)
  have htop := foldl_max_zero hsome
  have hload := of_decide_eq_true (require_eq_ok.1 hload)
  generalize (idToBytes.map (·.1) ++ tokens.map AddedToken.tid).foldl max 0 = top at hlow htop hoffsetsLt hrecordsLt h
  generalize hlog2 : (if merges.length = 0 then MIN_PAIR_SLOTS_LOG2 else max MIN_PAIR_SLOTS_LOG2 (ceilLog2 merges.length)) =
    slotsLog2 at hload hfilled h
  generalize hpieces : (List.range (top + 1)).map (pieceOf idToBytes addedBytes) = pieces at hoffsetsLt hrecordsLt h
  rw [← recordWords_map] at hrecordsLt h
  let c : Contents :=
    { flags
      slotsLog2
      offsets := pieces.scanl (fun n piece => n + piece.length) 0
      blob := pieces.flatten
      pairs := (t.keys.zip t.values).flatMap fun e => [e.1, e.2]
      byteIds
      records := tokens.map fun t => ⟨t.tid, offsetOf (pieces.scanl (fun n piece => n + piece.length) 0) t.tid,
        ((addedBytes.lookup t.tid).getD []).length, if t.special then 1 else 0⟩
      info }
  have hcount : c.vocabCount = top + 1 := by
    show (pieces.scanl _ 0).length - 1 = _
    rw [List.length_scanl, ← hpieces, List.length_map, List.length_range, Nat.add_sub_cancel]
  refine ⟨⟨get kvs "normalizer" .null, vocab, merges, entries⟩, ⟨idToBytes, tokens, addedBytes, t⟩, c, ?_, ?_, ?_, hlog2.symm, hinfo, ?_⟩
  · unfold Json.source
    simp only [need_eq_ok.1 hkvs, hmodel, hvocab, hmerges, hentries, Option.bind_eq_bind, Option.bind_some]
    rfl
  · constructor
    · exact validateNormalizer_eq_ok hflags
    · exact decodeVocab_spec hdecoded
    · exact ⟨out, hout, hperm⟩
    · exact hsorted
    · exact hcontents
    · exact haddedBytes
    · intro id hid
      rw [hcount]
      exact Nat.lt_succ_of_le (hlow id hid)
    · exact ⟨top, htop, hcount.symm⟩
    · rw [hcount, hpieces]
    · rw [hcount, hpieces]
    · exact hbytes
    · exact hfilled
    · exact hmatched
    · rfl
    · rwa [Nat.one_shiftLeft] at hload
    · rfl
    · exact ⟨name, hinfo⟩
  · constructor
    · exact Nat.lt_of_lt_of_eq (Nat.succ_pos _) List.length_scanl.symm
    · show ((t.keys.zip t.values).flatMap fun e => [e.1, e.2]).length = _
      rw [length_flatMap_pair, List.length_zip, hfilled.keys, hfilled.values, Nat.min_self]
    · exact (buildByteToId_eq_ok hbytes).1
    · exact hoffsetsLt
    · exact hpairsLt
    · exact hbyteIdsLt
    · exact hrecordsLt
  · show assemble flags c.vocabCount (tokens.map _).length slotsLog2 _ _ = _
    rw [hcount, List.length_map]
    exact h

/-- **What a conversion made.** -/
theorem convert_built {ceilLog2 : Nat → Nat} {raw : List UInt8} {doc : Json} {name : Str} {image : List UInt8}
    (h : convert ceilLog2 raw doc name = .ok image) :
    ∃ s p c, doc.source = some s ∧ Built s p c ∧ c.Sized ∧ c.IsImage image ∧
      c.slotsLog2 = tableLog2 ceilLog2 s.merges.length := by
  obtain ⟨s, p, c, hs, hb, hsized, hslots, -, hwritten⟩ := convert_written h
  exact ⟨s, p, c, hs, hb, hsized, assemble_read hwritten rfl, hslots⟩

end Bytepair.Convert
