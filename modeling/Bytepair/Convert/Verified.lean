import Bytepair.Convert.Framed

/-!
# What the converter's own check finds out

`verifyImage_eq_ok`: an image passes `verify_image` exactly if it is framed, its tables hold together, and it says
what the document says: `Verified`.
-/

namespace Bytepair.Convert
open Support Support.Probing

section Outcome

theorem vrequire_eq_ok {cond : Bool} {template : String} {args : List Arg} {u : Unit} :
    vrequire cond template args = .ok u ↔ cond = true := by
  unfold vrequire
  cases cond with
  | false => simp
  | true => simp

theorem expect_eq_ok {α : Type} {x : Option α} {a : α} : expect x = .ok a ↔ x = some a := by
  cases x with
  | none => simp [expect]
  | some a => simp [expect]

theorem toOption_eq_some {ε α : Type} {x : Except ε α} {a : α} : x.toOption = some a ↔ x = .ok a := by
  cases x with
  | error e => simp [Except.toOption]
  | ok b => simp [Except.toOption]

/-- A check that has nothing to hand on. -/
theorem check_bind {cond : Bool} {template : String} {args : List Arg} {α : Type} {k : Except VerifyFailure α} {a : α} :
    (vrequire cond template args >>= fun _ => k) = .ok a ↔ cond = true ∧ k = .ok a := by
  rw [bind_eq_ok]
  constructor
  · rintro ⟨_, hcheck, hk⟩
    exact ⟨vrequire_eq_ok.1 hcheck, hk⟩
  · rintro ⟨hcond, hk⟩
    exact ⟨(), vrequire_eq_ok.2 hcond, hk⟩

/-- A part of the check, and what follows it. -/
theorem part_bind {ε α : Type} {x : Except ε Unit} {k : Except ε α} {a : α} :
    (x >>= fun _ => k) = .ok a ↔ x = .ok () ∧ k = .ok a := by
  rw [bind_eq_ok]
  constructor
  · rintro ⟨_, hx, hk⟩
    exact ⟨hx, hk⟩
  · rintro ⟨hx, hk⟩
    exact ⟨(), hx, hk⟩

end Outcome

section Frame

theorem verifySections_eq_ok {size start : Nat} {table : List (Nat × Nat)} {names : List String} {u : Unit}
    (hlen : names.length = table.length) :
    verifySections size start (names.zip table) = .ok u ↔ InOrder size start table := by
  induction table generalizing start names with
  | nil =>
    rw [List.zip_nil_right]
    exact iff_of_true rfl (inOrder_nil size start)
  | cons s table ih =>
    obtain ⟨name, names, rfl⟩ := List.exists_cons_of_length_eq_add_one hlen
    rw [List.zip_cons_cons, verifySections, check_bind, check_bind, check_bind, ih (Nat.succ.inj hlen), inOrder_cons]
    simp only [decide_eq_true_eq]

theorem shiftRight_one_eq_zero {n : Nat} : n >>> 1 = 0 ↔ n < 2 := by
  rw [Nat.shiftRight_eq_div_pow]
  omega

/-- The fixed fields as the converter's own check wants them. -/
theorem verifyHeader_eq_ok {image raw : List UInt8} {u : Unit} : verifyHeader image raw = .ok u ↔
    HEADER_SIZE ≤ image.length ∧ image.length % SECTION_ALIGN = 0 ∧ (BpvHeader.read image).magic = MAGIC ∧
      (BpvHeader.read image).formatVersion = FORMAT_VERSION ∧ (BpvHeader.read image).flags < 2 ∧
      (BpvHeader.read image).profileId = PROFILE_ID_GPT4_STYLE ∧ wordAt 4 image 28 = 0 ∧
      0 < (BpvHeader.read image).vocabCount ∧ MIN_PAIR_SLOTS_LOG2 ≤ (BpvHeader.read image).pairSlotsLog2 ∧
      (BpvHeader.read image).pairSlotsLog2 ≤ 40 ∧ (image.drop 136).take 56 = List.replicate 56 0 ∧
      wordAt 8 image 128 = fnv1a64 raw := by
  unfold verifyHeader
  simp only [check_bind, vrequire_eq_ok, decide_eq_true_eq, Bool.and_eq_true, shiftRight_one_eq_zero, BpvHeader.read,
    Nat.mul_zero, Nat.mul_one, Nat.reduceMul, and_assoc]

end Frame

section Tables

theorem verifyOffsets_eq_ok {count : Nat} {offsets : List Nat} {blob : List UInt8} {u : Unit} :
    verifyOffsets count offsets blob = .ok u ↔ offsetOf offsets 0 = 0 ∧ offsetOf offsets count = blob.length ∧
      ∀ i < count, offsetOf offsets i ≤ offsetOf offsets (i + 1) := by
  unfold verifyOffsets
  simp only [part_bind, vrequire_eq_ok, forM_eq_ok, decide_eq_true_eq, List.mem_range]
  constructor
  · rintro ⟨hzero, hlast, hmono, -⟩
    exact ⟨hzero, hlast, hmono⟩
  · rintro ⟨hzero, hlast, hmono⟩
    exact ⟨hzero, hlast, hmono, Nat.le_of_eq hlast⟩

theorem verifyByteIds_eq_ok {count : Nat} {token : Nat → List UInt8} {byteIds : List Nat} {u : Unit} :
    verifyByteIds count token byteIds = .ok u ↔
      (∀ b < 256, byteIds[b]?.getD 0 < count ∧ token (byteIds[b]?.getD 0) = [UInt8.ofNat b]) ∧ byteIds.Nodup := by
  unfold verifyByteIds
  simp only [part_bind, vrequire_eq_ok, forM_eq_ok, decide_eq_true_eq, List.mem_range]

/-- What the contents hold for a pair. -/
def Contents.findPair (c : Contents) (key : Nat) : Option Nat :=
  match probe (stops (keyOf c.pairs) EMPTY_KEY key) (2 ^ c.slotsLog2) (2 ^ c.slotsLog2) (fmix64 key % 2 ^ c.slotsLog2) with
  | some t => if keyOf c.pairs t = key then some (valueOf c.pairs t) else none
  | none => none

/-- A word of the table is there. -/
theorem getD_keyOf {pairs : List Nat} {n slot : Nat} (hlen : pairs.length = n * 2) (hs : slot < n) :
    pairs[2 * slot]?.getD 0 = keyOf pairs slot ∧ pairs[2 * slot + 1]?.getD 0 = valueOf pairs slot := by
  unfold keyOf valueOf
  rw [Nat.mul_comm 2 slot, List.getElem?_eq_getElem (show slot * 2 < pairs.length by omega),
    List.getElem?_eq_getElem (show slot * 2 + 1 < pairs.length by omega)]
  exact ⟨rfl, rfl⟩

/-- The check's own lookup is a probe. -/
theorem lookupPair_eq {pairs : List Nat} {k key : Nat} (hlen : pairs.length = 2 ^ k * 2) (bound : Nat) {slot : Nat}
    (hs : slot < 2 ^ k) : lookupPair pairs (2 ^ k - 1) key bound slot =
      match probe (stops (keyOf pairs) EMPTY_KEY key) (2 ^ k) bound slot with
      | some t => .ok (if keyOf pairs t = key then some (valueOf pairs t) else none)
      | none => .error .hang := by
  induction bound generalizing slot with
  | zero => rfl
  | succ bound ih =>
    obtain ⟨hkey, hvalue⟩ := getD_keyOf hlen hs
    rw [lookupPair, probe, hkey, hvalue, Nat.and_two_pow_sub_one_eq_mod]
    by_cases hmatch : keyOf pairs slot = key
    · have hstop : stops (keyOf pairs) EMPTY_KEY key slot = true := by simp [stops, hmatch]
      rw [if_pos hmatch, if_pos hstop]
      dsimp only
      rw [if_pos hmatch]
    · by_cases hempty : keyOf pairs slot = EMPTY_KEY
      · have hstop : stops (keyOf pairs) EMPTY_KEY key slot = true := by simp [stops, hempty]
        rw [if_neg hmatch, if_pos hempty, if_pos hstop]
        dsimp only
        rw [if_neg hmatch]
      · have hstop : stops (keyOf pairs) EMPTY_KEY key slot = false := by simp [stops, hmatch, hempty]
        rw [if_neg hmatch, if_neg hempty, hstop, if_neg Bool.false_ne_true]
        exact ih (Nat.mod_lt _ (Nat.two_pow_pos k))

variable {vocab : List (Str × Json)} {c : Contents}

/-- A merge passes if it is in the table with its rank and its id. -/
theorem verifyMerge_eq_ok (hlen : c.pairs.length = 2 ^ c.slotsLog2 * 2) {entry : Json} {rank : Nat} {u : Unit} :
    verifyMerge vocab c.pairs (2 ^ c.slotsLog2) (entry, rank) = .ok u ↔
      ∃ a b m, Joins vocab rank entry a b m ∧ c.findPair (pairKey a b) = some (rank <<< 32 ||| m) := by
  have hlookup : ∀ key value, lookupPair c.pairs (2 ^ c.slotsLog2 - 1) key (2 ^ c.slotsLog2)
      (fmix64 key &&& (2 ^ c.slotsLog2 - 1)) = .ok (some value) ↔ c.findPair key = some value := by
    intro key value
    have hhash : fmix64 key % 2 ^ c.slotsLog2 < 2 ^ c.slotsLog2 := Nat.mod_lt _ (Nat.two_pow_pos _)
    rw [Nat.and_two_pow_sub_one_eq_mod, lookupPair_eq hlen _ hhash]
    unfold Contents.findPair
    split
    · rw [Except.ok.injEq]
    · simp
  unfold verifyMerge
  dsimp only
  constructor
  · intro h
    obtain ⟨⟨left, right⟩, hparts, h⟩ := bind_eq_ok.1 h
    obtain ⟨a, ha, h⟩ := bind_eq_ok.1 h
    obtain ⟨b, hb, h⟩ := bind_eq_ok.1 h
    obtain ⟨value, hvalue, h⟩ := bind_eq_ok.1 h
    obtain ⟨_, -, h⟩ := bind_eq_ok.1 h
    obtain ⟨m, hm, h⟩ := bind_eq_ok.1 h
    obtain rfl := of_decide_eq_true (vrequire_eq_ok.1 h)
    refine ⟨a, b, m, ⟨left, right, toOption_eq_some.1 (expect_eq_ok.1 hparts), expect_eq_ok.1 ha, expect_eq_ok.1 hb,
      expect_eq_ok.1 hm⟩, ?_⟩
    exact (hlookup _ _).1 hvalue
  · rintro ⟨a, b, m, ⟨left, right, hparts, ha, hb, hm⟩, hfind⟩
    have hvalue := (hlookup _ _).2 hfind
    unfold pairKey at hvalue
    refine bind_eq_ok.2 ⟨(left, right), expect_eq_ok.2 (toOption_eq_some.2 hparts), ?_⟩
    refine bind_eq_ok.2 ⟨a, expect_eq_ok.2 ha, bind_eq_ok.2 ⟨b, expect_eq_ok.2 hb, ?_⟩⟩
    refine bind_eq_ok.2 ⟨_, hvalue, bind_eq_ok.2 ⟨(), rfl, bind_eq_ok.2 ⟨m, expect_eq_ok.2 hm, ?_⟩⟩⟩
    exact vrequire_eq_ok.2 (decide_eq_true rfl)

/-- As many slots are occupied as there are merges, and every merge is found. -/
theorem verifyPairs_eq_ok (hlen : c.pairs.length = 2 ^ c.slotsLog2 * 2) {merges : List Json} {u : Unit} :
    verifyPairs vocab merges c.pairs (2 ^ c.slotsLog2) = .ok u ↔
      occupiedBelow (keyOf c.pairs) (2 ^ c.slotsLog2) = merges.length ∧
        ∀ rank entry, merges[rank]? = some entry → ∃ a b m, Joins vocab rank entry a b m ∧
          c.findPair (pairKey a b) = some (rank <<< 32 ||| m) := by
  have hcount : ((List.range (2 ^ c.slotsLog2)).countP fun s => decide (c.pairs[2 * s]?.getD 0 ≠ EMPTY_KEY)) =
      occupiedBelow (keyOf c.pairs) (2 ^ c.slotsLog2) := by
    unfold occupiedBelow
    apply List.countP_congr
    intro slot hslot
    rw [(getD_keyOf hlen (List.mem_range.1 hslot)).1]
    rfl
  unfold verifyPairs
  rw [check_bind, forM_eq_ok, hcount, decide_eq_true_eq, and_congr_right_iff]
  intro _
  constructor
  · intro h rank entry hentry
    exact (verifyMerge_eq_ok hlen).1 (h (entry, rank) (List.mem_zipIdx_iff_getElem?.2 hentry))
  · rintro h ⟨entry, rank⟩ hmem
    exact (verifyMerge_eq_ok hlen).2 (h rank entry (List.mem_zipIdx_iff_getElem?.1 hmem))

/-- A text of the alphabet reads as its bytes. -/
theorem mapM_u2b_eq_some {text : Str} {raw : List UInt8} : text.mapM u2b = some raw ↔ text = raw.map b2u := by
  induction text generalizing raw with
  | nil =>
    rw [List.mapM_nil]
    constructor
    · rintro ⟨⟩
      rfl
    · intro h
      rw [List.map_eq_nil_iff.1 h.symm]
      rfl
  | cons ch text ih =>
    rw [List.mapM_cons]
    constructor
    · intro h
      obtain ⟨b, hb, h⟩ := Option.bind_eq_some_iff.1 h
      obtain ⟨raw', hraw', h⟩ := Option.bind_eq_some_iff.1 h
      cases h
      rw [List.map_cons, b2u_of_u2b hb, ← ih.1 hraw']
    · intro h
      cases raw with
      | nil => cases h
      | cons b raw =>
        obtain ⟨rfl, rfl⟩ := List.cons.inj h
        rw [u2b_b2u, ih.2 rfl]
        rfl

theorem verifyVocab_eq_ok {count : Nat} {token : Nat → List UInt8} {u : Unit} :
    verifyVocab count token vocab = .ok u ↔ ∀ text id, (text, id) ∈ vocab →
      ∃ tid raw, tokenId id = some tid ∧ text = raw.map b2u ∧ tid < count ∧ token tid = raw := by
  unfold verifyVocab
  rw [forM_eq_ok, Prod.forall]
  refine forall_congr' fun text => forall_congr' fun id => imp_congr_right fun _ => ?_
  constructor
  · intro h
    obtain ⟨tid, htid, h⟩ := bind_eq_ok.1 h
    obtain ⟨hlt, h⟩ := check_bind.1 h
    obtain ⟨raw, hraw, h⟩ := bind_eq_ok.1 h
    refine ⟨tid, raw, expect_eq_ok.1 htid, mapM_u2b_eq_some.1 (expect_eq_ok.1 hraw), of_decide_eq_true hlt, ?_⟩
    exact of_decide_eq_true (vrequire_eq_ok.1 h)
  · rintro ⟨tid, raw, htid, htext, hlt, htoken⟩
    refine bind_eq_ok.2 ⟨tid, expect_eq_ok.2 htid, check_bind.2 ⟨decide_eq_true hlt, ?_⟩⟩
    refine bind_eq_ok.2 ⟨raw, expect_eq_ok.2 (mapM_u2b_eq_some.2 htext), ?_⟩
    exact vrequire_eq_ok.2 (decide_eq_true htoken)

end Tables

section Added

variable {c : Contents}

/-- A record that says what the added token of its id does. -/
structure Lists (c : Contents) (source : List (Nat × List (Str × Json))) (a : BpvAdded) : Prop where
  id : a.id < c.vocabCount
  inside : a.offset + a.len ≤ c.blob.length
  flags : a.flags < 2
  offset : a.offset = offsetOf c.offsets a.id
  len : (a.len : Int) = offsetOf c.offsets (a.id + 1) - offsetOf c.offsets a.id
  token : ∃ t, source.lookup a.id = some t ∧ contentBytes t = .ok ((c.blob.drop a.offset).take a.len) ∧
    a.flags = if truthy (get t "special" (.bool false)) then 1 else 0

theorem verifyRecord_eq_ok {source : List (Nat × List (Str × Json))} {a : BpvAdded} {i : Nat} {u : Unit} :
    verifyRecord c.vocabCount c.offsets c.blob source (a, i) = .ok u ↔ Lists c source a := by
  unfold verifyRecord
  dsimp only
  constructor
  · intro h
    obtain ⟨hid, h⟩ := check_bind.1 h
    obtain ⟨hinside, h⟩ := check_bind.1 h
    obtain ⟨hflags, h⟩ := check_bind.1 h
    obtain ⟨hfound, h⟩ := check_bind.1 h
    obtain ⟨bytes, hbytes, h⟩ := bind_eq_ok.1 h
    obtain ⟨hcontent, h⟩ := check_bind.1 h
    obtain ⟨hspan, h⟩ := check_bind.1 h
    have hspecial := of_decide_eq_true (vrequire_eq_ok.1 h)
    obtain ⟨t, ht⟩ := Option.isSome_iff_exists.1 hfound
    rw [ht] at hbytes hspecial
    have hflags := shiftRight_one_eq_zero.1 (of_decide_eq_true hflags)
    rw [Nat.mod_eq_of_lt hflags] at hspecial
    obtain ⟨hoffset, hlen⟩ := Bool.and_eq_true_iff.1 hspan
    rw [← of_decide_eq_true hcontent] at hbytes
    exact ⟨of_decide_eq_true hid, of_decide_eq_true hinside, hflags, of_decide_eq_true hoffset, of_decide_eq_true hlen,
      t, ht, hbytes, hspecial⟩
  · rintro ⟨hid, hinside, hflags, hoffset, hlen, t, ht, hbytes, hspecial⟩
    refine check_bind.2 ⟨decide_eq_true hid, check_bind.2 ⟨decide_eq_true hinside, ?_⟩⟩
    refine check_bind.2 ⟨decide_eq_true (shiftRight_one_eq_zero.2 hflags), check_bind.2 ⟨by rw [ht]; rfl, ?_⟩⟩
    rw [ht]
    refine bind_eq_ok.2 ⟨_, hbytes, check_bind.2 ⟨decide_eq_true rfl, check_bind.2 ⟨?_, ?_⟩⟩⟩
    · exact Bool.and_eq_true_iff.2 ⟨decide_eq_true hoffset, decide_eq_true hlen⟩
    · rw [Nat.mod_eq_of_lt hflags]
      exact vrequire_eq_ok.2 (decide_eq_true hspecial)

theorem verifyAdded_eq_ok {entries : List Json} {u : Unit} :
    verifyAdded c.vocabCount c.records.length c.offsets c.blob entries c.records = .ok u ↔
      ∃ source, sourceAdded entries = .ok source ∧ source.length = c.records.length ∧ ∀ a ∈ c.records, Lists c source a := by
  unfold verifyAdded
  rw [bind_eq_ok]
  refine exists_congr fun source => and_congr_right fun _ => ?_
  rw [check_bind, decide_eq_true_eq, forM_eq_ok, and_congr_right_iff]
  intro _
  constructor
  · intro h a ha
    obtain ⟨i, hi, rfl⟩ := List.mem_iff_getElem.1 ha
    exact verifyRecord_eq_ok.1 (h (c.records[i], i) (List.mem_zipIdx_iff_getElem?.2 (List.getElem?_eq_getElem hi)))
  · rintro h ⟨a, i⟩ hmem
    exact verifyRecord_eq_ok.2 (h a (List.mem_of_getElem? (List.mem_zipIdx_iff_getElem?.1 hmem)))

end Added

section Image

/-- What an image says of a source. -/
structure Represents (c : Contents) (s : Source) : Prop where
  occupied : occupiedBelow (keyOf c.pairs) (2 ^ c.slotsLog2) = s.merges.length
  merge : ∀ rank entry, s.merges[rank]? = some entry → ∃ a b m, Joins s.vocab rank entry a b m ∧
    c.findPair (pairKey a b) = some (rank <<< 32 ||| m)
  vocab : ∀ text id, (text, id) ∈ s.vocab → ∃ tid raw, tokenId id = some tid ∧ text = raw.map b2u ∧
    tid < c.vocabCount ∧ spanOf c.offsets c.blob tid = raw
  added : ∃ source, sourceAdded s.addedTokens = .ok source ∧ source.length = c.records.length ∧
    ∀ a ∈ c.records, Lists c source a
  nfc : c.flags = if isNull s.normalizer then 0 else FLAG_NFC

/-- What `verify_image` finds out of an image. -/
structure Verified (image raw : List UInt8) (s : Source) (name : Str) : Prop where
  framed : Framed image
  blocks : image.length % SECTION_ALIGN = 0
  profile : (BpvHeader.read image).profileId = PROFILE_ID_GPT4_STYLE
  log2 : MIN_PAIR_SLOTS_LOG2 ≤ (BpvHeader.read image).pairSlotsLog2
  hash : wordAt 8 image 128 = fnv1a64 raw
  tabled : Tabled (.read image)
  source : Represents (.read image) s
  info : verifyMeta name ((BpvHeader.read image).metaInfo.bytes image) = .ok ()

/-- The parts of a document, one after the other. -/
theorem source_eq_some {doc : Json} {s : Source} : doc.source = some s ↔ ∃ kvs model, items doc = some kvs ∧
    items (get kvs "model" .null) = some model ∧ items (get model "vocab" .null) = some s.vocab ∧
    elements (get model "merges" .null) = some s.merges ∧
    elements (get kvs "added_tokens" (.arr [])) = some s.addedTokens ∧ get kvs "normalizer" .null = s.normalizer := by
  unfold Json.source
  constructor
  · intro h
    obtain ⟨kvs, hkvs, h⟩ := Option.bind_eq_some_iff.1 h
    obtain ⟨model, hmodel, h⟩ := Option.bind_eq_some_iff.1 h
    obtain ⟨vocab, hvocab, h⟩ := Option.bind_eq_some_iff.1 h
    obtain ⟨merges, hmerges, h⟩ := Option.bind_eq_some_iff.1 h
    obtain ⟨entries, hentries, h⟩ := Option.bind_eq_some_iff.1 h
    cases h
    exact ⟨kvs, model, hkvs, hmodel, hvocab, hmerges, hentries, rfl⟩
  · rintro ⟨kvs, model, hkvs, hmodel, hvocab, hmerges, hentries, hnormalizer⟩
    simp only [hkvs, hmodel, hvocab, hmerges, hentries, hnormalizer, Option.bind_eq_bind, Option.bind_some]
    rfl

variable {image raw : List UInt8} {doc : Json} {name : Str}

/-- The check, part by part, of the contents the image reads as. -/
theorem verifyImage_parts {c : Contents} (hc : c = .read image) {u : Unit} : verifyImage image raw doc name = .ok u ↔
    verifyHeader image raw = .ok () ∧
      InOrder image.length HEADER_SIZE ((BpvHeader.read image).sections.map fun s => (s.off, s.size)) ∧
      (BpvHeader.read image).tokenOffsets.off = HEADER_SIZE ∧
      (BpvHeader.read image).tokenOffsets.size = 4 * ((BpvHeader.read image).vocabCount + 1) ∧
      verifyOffsets c.vocabCount c.offsets c.blob = .ok () ∧ (BpvHeader.read image).byteToId.size = 1024 ∧
      verifyByteIds c.vocabCount (spanOf c.offsets c.blob) c.byteIds = .ok () ∧
      (BpvHeader.read image).pairTable.size = 16 * (BpvHeader.read image).slots ∧
      ∃ s, doc.source = some s ∧ verifyPairs s.vocab s.merges c.pairs (2 ^ c.slotsLog2) = .ok () ∧
        verifyVocab c.vocabCount (spanOf c.offsets c.blob) s.vocab = .ok () ∧
        (BpvHeader.read image).added.size = 16 * (BpvHeader.read image).addedCount ∧
        verifyAdded c.vocabCount c.records.length c.offsets c.blob s.addedTokens c.records = .ok () ∧
        verifyMeta name c.info = .ok () ∧ c.flags % 2 = if isNull s.normalizer then 0 else FLAG_NFC := by
  have hslots : 1 <<< (BpvHeader.read image).pairSlotsLog2 = 2 ^ (BpvHeader.read image).pairSlotsLog2 := Nat.one_shiftLeft _
  have hcount := Contents.read_vocabCount image
  have hadded := Contents.read_records image
  have hpairsSize : (BpvHeader.read image).pairTable.size = 2 ^ (BpvHeader.read image).pairSlotsLog2 * 16 ↔
      (BpvHeader.read image).pairTable.size = 16 * (BpvHeader.read image).slots := by
    rw [Nat.mul_comm, BpvHeader.slots, hslots]
  have hread : c = { c with
      offsets := (BpvHeader.read image).readOffsets image
      blob := (BpvHeader.read image).tokenBlob.bytes image
      pairs := words 8 (2 * 2 ^ (BpvHeader.read image).pairSlotsLog2) ((BpvHeader.read image).pairTable.bytes image)
      byteIds := (BpvHeader.read image).readByteIds image
      records := (BpvHeader.read image).readAdded image
      info := (BpvHeader.read image).metaInfo.bytes image
      slotsLog2 := (BpvHeader.read image).pairSlotsLog2
      flags := (BpvHeader.read image).flags } := by
    rw [hc, Nat.mul_comm 2, ← hslots]
    rfl
  rw [← hc] at hcount hadded
  rw [hcount, hadded, hread]
  dsimp only
  unfold verifyImage
  dsimp only
  rw [hslots, part_bind, part_bind, check_bind, check_bind, part_bind, check_bind, part_bind, check_bind,
    verifySections_eq_ok rfl]
  simp only [decide_eq_true_eq, hpairsSize, source_eq_some]
  repeat refine and_congr_right fun _ => ?_
  constructor
  · intro h
    obtain ⟨kvs, hkvs, h⟩ := bind_eq_ok.1 h
    obtain ⟨model, hmodel, h⟩ := bind_eq_ok.1 h
    obtain ⟨vocab, hvocabItems, h⟩ := bind_eq_ok.1 h
    obtain ⟨merges, hmerges, h⟩ := bind_eq_ok.1 h
    obtain ⟨hmergesOk, h⟩ := part_bind.1 h
    obtain ⟨hvocabOk, h⟩ := part_bind.1 h
    obtain ⟨haddedSize, h⟩ := check_bind.1 h
    obtain ⟨entries, hentries, h⟩ := bind_eq_ok.1 h
    obtain ⟨haddedOk, h⟩ := part_bind.1 h
    obtain ⟨hinfo, h⟩ := part_bind.1 h
    exact ⟨⟨get kvs "normalizer" .null, vocab, merges, entries⟩, ⟨kvs, model, expect_eq_ok.1 hkvs, expect_eq_ok.1 hmodel,
      expect_eq_ok.1 hvocabItems, expect_eq_ok.1 hmerges, expect_eq_ok.1 hentries, rfl⟩, hmergesOk, hvocabOk,
      of_decide_eq_true haddedSize, haddedOk, hinfo, of_decide_eq_true (vrequire_eq_ok.1 h)⟩
  · rintro ⟨s, ⟨kvs, model, hkvs, hmodel, hvocab, hmerges, hentries, hnormalizer⟩, hmergesOk, hvocabOk, haddedSize,
      haddedOk, hinfo, hnfc⟩
    refine bind_eq_ok.2 ⟨kvs, expect_eq_ok.2 hkvs, bind_eq_ok.2 ⟨model, expect_eq_ok.2 hmodel, ?_⟩⟩
    refine bind_eq_ok.2 ⟨_, expect_eq_ok.2 hvocab, bind_eq_ok.2 ⟨_, expect_eq_ok.2 hmerges, ?_⟩⟩
    refine part_bind.2 ⟨hmergesOk, part_bind.2 ⟨hvocabOk, check_bind.2 ⟨decide_eq_true haddedSize, ?_⟩⟩⟩
    refine bind_eq_ok.2 ⟨_, expect_eq_ok.2 hentries, part_bind.2 ⟨haddedOk, part_bind.2 ⟨hinfo, ?_⟩⟩⟩
    rw [hnormalizer]
    exact vrequire_eq_ok.2 (decide_eq_true hnfc)

/-- **What passes**: the converter's own check accepts the images that say what the document says. -/
theorem verifyImage_eq_ok {u : Unit} :
    verifyImage image raw doc name = .ok u ↔ ∃ s, doc.source = some s ∧ Verified image raw s name := by
  have hpairs : (Contents.read image).pairs.length = 2 ^ (Contents.read image).slotsLog2 * 2 := by
    show (words 8 _ _).length = _
    rw [length_words, BpvHeader.slots, Nat.one_shiftLeft]
    rfl
  have hbyteIds : (Contents.read image).byteIds.length = 256 := length_words 4 _ _
  rw [verifyImage_parts rfl, verifyHeader_eq_ok, verifyOffsets_eq_ok, verifyByteIds_eq_ok]
  simp only [verifyPairs_eq_ok hpairs, verifyVocab_eq_ok, verifyAdded_eq_ok]
  constructor
  · rintro ⟨⟨hsize, hblocks, hmagic, hversion, hflags, hprofile, hreserved, hvocab, hlow, hlog2, hpadding, hhash⟩,
      hsections, hfirst, hoffsetsSize, ⟨hzero, hlast, hmono⟩, hbytesSize, ⟨hbyte, -⟩, hpairsSize, s, hs,
      ⟨hoccupied, hmerge⟩, hvocabOk, haddedSize, haddedOk, hinfo, hnfc⟩
    rw [show (Contents.read image).flags % 2 = _ from Nat.mod_eq_of_lt hflags] at hnfc
    refine ⟨s, hs, ?_, hblocks, hprofile, hlow, hhash, ⟨hzero, hmono, hlast, hbyte⟩,
      ⟨hoccupied, hmerge, hvocabOk, haddedOk, hnfc⟩, hinfo⟩
    exact ⟨hsize, hmagic, hversion, hflags, hreserved, hvocab, hlog2, hpadding, hsections, hfirst, hoffsetsSize,
      hpairsSize, hbytesSize, haddedSize⟩
  · rintro ⟨s, hs, hframed, hblocks, hprofile, hlow, hhash, htabled, hsource, hinfo⟩
    have hdistinct := htabled.distinct hbyteIds
    refine ⟨⟨hframed.size, hblocks, hframed.magic, hframed.version, hframed.flags, hprofile, hframed.reserved,
      hframed.count, hlow, hframed.log2, hframed.padding, hhash⟩, hframed.sections, hframed.first, hframed.offsets,
      ⟨htabled.zero, htabled.last, htabled.mono⟩, hframed.byteIds, ⟨htabled.byte, hdistinct⟩, hframed.pairs, s, hs,
      ⟨hsource.occupied, hsource.merge⟩, hsource.vocab, hframed.added, hsource.added, hinfo, ?_⟩
    rw [show (Contents.read image).flags % 2 = _ from Nat.mod_eq_of_lt hframed.flags]
    exact hsource.nfc

end Image

end Bytepair.Convert
