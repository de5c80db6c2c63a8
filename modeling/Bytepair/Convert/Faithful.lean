import Bytepair.Convert.Built
import Bytepair.Encode.Opened

/-!
# The handle of a converted image

`convert_faithful`: what the loader makes of a converted image is the source: its tokens, its
merges, its byte tokens and its added tokens. `Faithful` collects what the encoder relies on.
-/

namespace Bytepair.Convert
open Support Support.Probing

/-- Merge number `rank` of the source joins the tokens `a` and `b` to `c`. -/
def Source.Merge (s : Source) (rank a b c : Nat) : Prop :=
  ∃ entry, s.merges[rank]? = some entry ∧ Joins s.vocab rank entry a b c

section Lists

theorem getElem?_flatMap_pair {α β : Type} (f g : α → β) (es : List α) (i : Nat) :
    (es.flatMap fun e => [f e, g e])[i * 2]? = es[i]?.map f ∧ (es.flatMap fun e => [f e, g e])[i * 2 + 1]? = es[i]?.map g := by
  induction es generalizing i with
  | nil => exact ⟨rfl, rfl⟩
  | cons e es ih =>
    cases i with
    | zero => exact ⟨rfl, rfl⟩
    | succ i =>
      obtain ⟨hf, hg⟩ := ih i
      rw [Nat.succ_mul]
      exact ⟨hf, hg⟩

/-- The words of a table, by slot. -/
theorem keyOf_zip {keys values : List Nat} (h : keys.length = values.length) :
    keyOf ((keys.zip values).flatMap fun e => [e.1, e.2]) = slotKey keys ∧
      valueOf ((keys.zip values).flatMap fun e => [e.1, e.2]) = slotValue values := by
  have hfst : (keys.zip values).map Prod.fst = keys := List.map_fst_zip (Nat.le_of_eq h)
  have hsnd : (keys.zip values).map Prod.snd = values := List.map_snd_zip (Nat.le_of_eq h.symm)
  constructor
  · funext s
    unfold keyOf slotKey
    rw [(getElem?_flatMap_pair Prod.fst Prod.snd _ s).1, ← List.getElem?_map, hfst]
    rfl
  · funext s
    unfold valueOf slotValue
    rw [(getElem?_flatMap_pair Prod.fst Prod.snd _ s).2, ← List.getElem?_map, hsnd]

/-- Two lists that agree element by element: what is in one has its like in the other. -/
theorem forall₂_mem {α β : Type} {R : α → β → Prop} {xs : List α} {ys : List β} (h : List.Forall₂ R xs ys) :
    (∀ x ∈ xs, ∃ y ∈ ys, R x y) ∧ ∀ y ∈ ys, ∃ x ∈ xs, R x y := by
  induction h with
  | nil => exact ⟨List.forall_mem_nil _, List.forall_mem_nil _⟩
  | cons hhead _ ih =>
    rw [List.forall_mem_cons, List.forall_mem_cons]
    refine ⟨⟨⟨_, List.mem_cons_self, hhead⟩, fun x hx => ?_⟩, ⟨_, List.mem_cons_self, hhead⟩, fun y hy => ?_⟩
    · obtain ⟨y, hy, hxy⟩ := ih.1 x hx
      exact ⟨y, List.mem_cons_of_mem _ hy, hxy⟩
    · obtain ⟨x, hx, hxy⟩ := ih.2 y hy
      exact ⟨x, List.mem_cons_of_mem _ hx, hxy⟩

end Lists

namespace Built

variable {s : Source} {p : Passes} {c : Contents}

/-- An added token is outside the vocabulary, and has bytes. -/
theorem added_bytes (h : Built s p c) : List.Forall₂ (fun (t : AddedToken) (e : Nat × List UInt8) =>
    p.idToBytes.lookup t.tid = none ∧ e.1 = t.tid ∧ encodeUtf8 t.content = .ok e.2) p.tokens p.addedBytes := by
  apply (mapM_eq_ok.1 h.addedBytes).imp
  intro t e he
  obtain ⟨_, hfree, he⟩ := bind_eq_ok.1 he
  obtain ⟨bytes, hbytes, he⟩ := bind_eq_ok.1 he
  cases he
  exact ⟨Option.isNone_iff_eq_none.1 (require_eq_ok.1 hfree), rfl, hbytes⟩

theorem lookup_added (h : Built s p c) {t : AddedToken} (ht : t ∈ p.tokens) :
    ∃ bytes, p.addedBytes.lookup t.tid = some bytes ∧ encodeUtf8 t.content = .ok bytes := by
  have hall := h.added_bytes
  have hsorted := h.sorted
  generalize p.tokens = tokens at *
  generalize p.addedBytes = addedBytes at *
  induction hall with
  | nil => cases ht
  | cons hhead hall ih =>
    obtain ⟨hfirst, hsorted⟩ := List.pairwise_cons.1 hsorted
    obtain ⟨-, hid, hbytes⟩ := hhead
    rw [List.lookup_cons]
    rcases List.mem_cons.1 ht with rfl | ht
    · rw [hid, beq_self_eq_true]
      exact ⟨_, rfl, hbytes⟩
    · have hlt := hfirst t ht
      rw [hid, beq_false_of_ne (Nat.ne_of_gt hlt)]
      exact ih ht hsorted

/-- The added tokens are those of the source. -/
theorem mem_tokens (h : Built s p c) {t : AddedToken} :
    t ∈ p.tokens ↔ ∃ entry ∈ s.addedTokens, validateAdded entry = .ok t := by
  obtain ⟨out, hout, hperm⟩ := h.tokens
  have hall := forall₂_mem (mapM_eq_ok.1 hout)
  rw [hperm.mem_iff]
  constructor
  · exact hall.2 t
  · rintro ⟨entry, hentry, ht⟩
    obtain ⟨t', ht', heq⟩ := hall.1 entry hentry
    rw [ht] at heq
    cases heq
    exact ht'

/-- **Who owns an id**: the passes have the bytes of every id that something owns. -/
theorem owns_iff (h : Built s p c) {id : Nat} {bytes : List UInt8} :
    s.Owns id bytes ↔ (p.idToBytes.lookup id).or (p.addedBytes.lookup id) = some bytes := by
  constructor
  · rintro (⟨j, hmem, hj⟩ | ⟨entry, hentry, t, ht, rfl, hbytes⟩)
    · obtain ⟨tid, raw, htid, htext, hlookup⟩ := h.decoded.entry _ _ hmem
      rw [hj] at htid
      cases htid
      rw [hlookup, b2u_injective.list_map htext]
      rfl
    · have ht := h.mem_tokens.2 ⟨entry, hentry, ht⟩
      obtain ⟨bytes', hlookup, hbytes'⟩ := h.lookup_added ht
      obtain ⟨e, -, hfree, -⟩ := (forall₂_mem h.added_bytes).1 t ht
      rw [hbytes] at hbytes'
      cases hbytes'
      rw [hfree, hlookup]
      rfl
  · intro hlookup
    rcases Option.or_eq_some_iff.1 hlookup with hbase | ⟨-, hadded⟩
    · exact .inl (h.decoded.owner id bytes hbase)
    · obtain ⟨t, ht, -, hid, hbytes⟩ := (forall₂_mem h.added_bytes).2 _ (mem_of_lookup hadded)
      obtain ⟨entry, hentry, hvalid⟩ := h.mem_tokens.1 ht
      exact .inr ⟨entry, hentry, t, hvalid, hid.symm, hbytes⟩

theorem owns_lt (h : Built s p c) {id : Nat} {bytes : List UInt8} (howns : s.Owns id bytes) : id < c.vocabCount := by
  apply h.below
  rcases Option.or_eq_some_iff.1 (h.owns_iff.1 howns) with hbase | ⟨-, hadded⟩
  · exact List.mem_append_left _ (List.mem_map.2 ⟨_, mem_of_lookup hbase, rfl⟩)
  · obtain ⟨t, ht, -, hid, -⟩ := (forall₂_mem h.added_bytes).2 _ (mem_of_lookup hadded)
    exact List.mem_append_right _ (List.mem_map.2 ⟨t, ht, hid.symm⟩)

/-- The span of an id is the bytes of its owner. -/
theorem span_eq (h : Built s p c) {id : Nat} (hid : id < c.vocabCount) :
    spanOf c.offsets c.blob id = ((p.idToBytes.lookup id).or (p.addedBytes.lookup id)).getD [] := by
  have hlen : id < ((List.range c.vocabCount).map (pieceOf p.idToBytes p.addedBytes)).length := by
    rwa [List.length_map, List.length_range]
  rw [h.offsets, h.blob, spanOf_flatten _ hlen, List.getElem_map, List.getElem_range]
  rfl

theorem span_owned (h : Built s p c) {id : Nat} {bytes : List UInt8} (howns : s.Owns id bytes) :
    spanOf c.offsets c.blob id = bytes := by
  rw [h.span_eq (h.owns_lt howns), h.owns_iff.1 howns]
  rfl

theorem span_unowned (h : Built s p c) {id : Nat} (hid : id < c.vocabCount) (hno : ∀ bytes, ¬s.Owns id bytes) :
    spanOf c.offsets c.blob id = [] := by
  rw [h.span_eq hid]
  cases hlookup : (p.idToBytes.lookup id).or (p.addedBytes.lookup id) with
  | none => rfl
  | some bytes => exact absurd (h.owns_iff.2 hlookup) (hno bytes)

/-- The token of a byte. -/
theorem byte_id (h : Built s p c) (b : UInt8) : vocabId s.vocab [b2u b] = some (c.byteIds[b.toNat]?.getD 0) :=
  (buildByteToId_eq_ok h.bytes).2 b

/-- A text of the vocabulary owns its id. -/
theorem owns_text (h : Built s p c) {raw : List UInt8} {id : Nat} (hid : vocabId s.vocab (raw.map b2u) = some id) :
    s.Owns id raw := by
  rw [h.owns_iff, h.decoded.bytes_map hid]
  rfl

end Built

section Handle

/-- The handle has the contents of the image. -/
structure Contents.Handle (c : Contents) (v : BpVocab) : Prop where
  flags : v.hdr.flags = c.flags
  count : v.hdr.vocabCount = c.vocabCount
  slots : v.hdr.slots = 2 ^ c.slotsLog2
  tokOff : v.tokOff = c.offsets
  blob : v.blob = c.blob
  pairs : v.pairs = c.pairs
  byteId : v.byteId = c.byteIds
  added : v.added = c.records

variable {s : Source} {p : Passes} {c : Contents} {host : Host} {image : List UInt8} {v : BpVocab}

theorem Contents.handle (hs : c.Sized) (himage : c.IsImage image) (ho : Opens host image v) : c.Handle v := by
  have hr := himage.reads hs
  have hof := ho.image
  have hhdr := hof.hdr
  constructor
  · rw [hhdr, himage.flags]
  · rw [hhdr, himage.vocabCount]
  · rw [hhdr, Contents.slots_eq himage]
  · rw [hof.tokOff, hhdr]
    exact hr.offsets
  · rw [hof.blob, hhdr]
    exact hr.blob
  · rw [hof.pairs, hhdr]
    exact hr.pairs
  · rw [hof.byteId, hhdr]
    exact hr.byteIds
  · rw [hof.added, hhdr]
    exact hr.records

theorem pairKey_eq {a b : Nat} (hb : b < 2 ^ 32) : pairKey a b = a * 2 ^ 32 + b := by
  unfold pairKey
  rw [← Nat.shiftLeft_add_eq_or_of_lt hb, Nat.shiftLeft_eq]

theorem fmix64_eq {key : Nat} (h : key < 2 ^ 64) : fmix64 key = bpFmix64 key := by
  unfold fmix64 bpFmix64
  rw [Nat.mod_eq_of_lt h]

theorem Joins.unique {vocab : List (Str × Json)} {rank : Nat} {entry : Json} {a b c a' b' c' : Nat}
    (h : Joins vocab rank entry a b c) (h' : Joins vocab rank entry a' b' c') : a = a' ∧ b = b' ∧ c = c' := by
  obtain ⟨left, right, hparts, ha, hb, hc⟩ := h
  obtain ⟨left', right', hparts', ha', hb', hc'⟩ := h'
  rw [hparts] at hparts'
  cases hparts'
  rw [ha] at ha'
  rw [hb] at hb'
  rw [hc] at hc'
  exact ⟨Option.some.inj ha', Option.some.inj hb', Option.some.inj hc'⟩

/-- **The lookup is the merge list**: the loader's probe finds the merge of a pair, and nothing for a pair
that has none. -/
theorem Built.lookup_eq (h : Built s p c) (hc : c.Handle v) (hv : v.Valid) {a b : Nat} (ha : v.HasId a) (hb : v.HasId b) :
    (∀ rank m, s.Merge rank a b m → v.lookup a b = rank <<< 32 ||| m) ∧
      ((∀ rank m, ¬s.Merge rank a b m) → v.lookup a b = BPV_PAIR_EMPTY) := by
  obtain ⟨hkey, hvalue⟩ := keyOf_zip (h.filled.keys.trans h.filled.values.symm)
  rw [← h.pairs, ← hc.pairs] at hkey hvalue
  obtain ⟨hlt, heq⟩ := pairKey_lt hv.countLe ha hb
  have hhash : pairHash v (pairKey a b) = fmix64 (pairKey a b) % 2 ^ c.slotsLog2 := by
    unfold pairHash
    rw [hc.slots, fmix64_eq (by unfold BPV_PAIR_EMPTY at hlt; omega)]
  have hbound : fmix64 (pairKey a b) % 2 ^ c.slotsLog2 < 2 ^ c.slotsLog2 := Nat.mod_lt _ (Nat.two_pow_pos _)
  unfold BpVocab.lookup
  rw [hhash, hc.slots, hkey, hvalue]
  constructor
  · rintro rank m ⟨entry, hentry, hjoins⟩
    obtain ⟨a', b', m', t, hjoins', ht, hne, htkey, htvalue⟩ :=
      h.filled.merge h.matched entry rank (List.mem_zipIdx_iff_getElem?.2 hentry)
    obtain ⟨rfl, rfl, rfl⟩ := hjoins.unique hjoins'
    have hpresent := probe_present h.filled.reach ht hne (by rw [htkey]; exact hbound)
    rw [htkey] at hpresent
    rw [show BPV_PAIR_EMPTY = EMPTY_KEY from rfl, hpresent]
    dsimp only
    rw [if_pos htkey, htvalue]
  · intro hno
    split
    · next t hprobe =>
      have ht := probe_lt hbound hprobe
      apply if_neg
      intro htkey
      -- an occupied slot is one of the merges
      have hne : slotKey p.table.keys t ≠ EMPTY_KEY := by
        rw [htkey]
        exact Nat.ne_of_lt hlt
      obtain ⟨entry, rank, a', b', m, hmem, hjoins, ha', hb', -, htkey', -⟩ := h.filled.slot t ht hne
      rw [htkey, pairKey_eq hb', heq] at htkey'
      have hcount := hv.countLe
      unfold BpVocab.HasId at ha hb
      obtain ⟨rfl, rfl⟩ : a = a' ∧ b = b' := by omega
      exact hno rank m ⟨entry, List.mem_zipIdx_iff_getElem?.1 hmem, hjoins⟩
    · rfl

/-- The rank of a merge is below the number of merges, and the merged id fits its word. -/
theorem Built.merge_lt (h : Built s p c) {rank a b m : Nat} (hmerge : s.Merge rank a b m) :
    rank < s.merges.length ∧ m < c.vocabCount := by
  obtain ⟨entry, hentry, left, right, -, -, -, hm⟩ := hmerge
  obtain ⟨raw, htext, -⟩ := h.decoded.bytes hm
  rw [htext] at hm
  exact ⟨(List.getElem?_eq_some_iff.1 hentry).1, h.owns_lt (h.owns_text hm)⟩

/-- Ranks stay below where the short path starts its search. -/
theorem Built.merges_lt (h : Built s p c) (hc : c.Handle v) (hv : v.Valid) : s.merges.length < 0xFFFFFFFF := by
  have hload := h.load
  have hslots : v.hdr.slots ≤ 2 ^ 32 := by
    unfold BpvHeader.slots
    rw [Nat.one_shiftLeft]
    exact Nat.pow_le_pow_right (by decide) hv.log2
  rw [hc.slots] at hslots
  omega

/-- The merge rule of a handle, by what its lookup finds of a pair. -/
theorem rule_iff_of_lookup {a b : Nat} {M : Nat → Nat → Prop} (hpresent : ∀ rank m, M rank m → v.lookup a b = rank <<< 32 ||| m)
    (habsent : (∀ rank m, ¬M rank m) → v.lookup a b = BPV_PAIR_EMPTY)
    (hlow : ∀ rank m, M rank m → rank < 0xFFFFFFFF ∧ m < 2 ^ 32) {rank m : Nat} : v.rule a b = some (rank, m) ↔ M rank m := by
  have hmerge : ∀ rank m, M rank m → v.rule a b = some (rank, m) := by
    intro rank m hmerge
    obtain ⟨hrank, hm⟩ := hlow rank m hmerge
    have hvalue : v.lookup a b = rank * 2 ^ 32 + m := by
      rw [hpresent rank m hmerge, ← Nat.shiftLeft_add_eq_or_of_lt hm, Nat.shiftLeft_eq]
    have hne : v.lookup a b ≠ BPV_PAIR_EMPTY := by
      unfold BPV_PAIR_EMPTY
      omega
    rw [rule_of_lookup hne, hvalue, Nat.shiftRight_eq_div_pow, Option.some.injEq, Prod.mk.injEq]
    omega
  constructor
  · intro hrule
    by_contra hno
    have hnone : v.rule a b = none := by
      refine lookup_eq_empty_iff.1 (habsent fun rank' m' hmerge' => hno ?_)
      rw [hmerge rank' m' hmerge'] at hrule
      cases hrule
      exact hmerge'
    rw [hnone] at hrule
    cases hrule
  · exact hmerge rank m

/-- **The merge rule of the handle is the merge list.** -/
theorem Built.rule_iff (h : Built s p c) (hc : c.Handle v) (hv : v.Valid) {a b rank m : Nat} (ha : v.HasId a)
    (hb : v.HasId b) : v.rule a b = some (rank, m) ↔ s.Merge rank a b m := by
  obtain ⟨hpresent, habsent⟩ := h.lookup_eq hc hv ha hb
  have hmerges := h.merges_lt hc hv
  have hcount := hv.countLe
  rw [hc.count] at hcount
  refine rule_iff_of_lookup hpresent habsent fun rank m hmerge => ?_
  obtain ⟨hrank, hm⟩ := h.merge_lt hmerge
  exact ⟨Nat.lt_trans hrank hmerges, by omega⟩

/-- The record of an added token. -/
theorem Built.records_eq (h : Built s p c) : List.Forall₂ (fun (t : AddedToken) (a : BpvAdded) =>
    a.id = t.tid ∧ encodeUtf8 t.content = .ok (spanOf c.offsets c.blob a.id) ∧ a.flags = if t.special then 1 else 0)
      p.tokens c.records := by
  rw [h.records, List.forall₂_map_right_iff, List.forall₂_same]
  intro t ht
  obtain ⟨bytes, -, hbytes⟩ := h.lookup_added ht
  obtain ⟨entry, hentry, hvalid⟩ := h.mem_tokens.1 ht
  refine ⟨rfl, ?_, rfl⟩
  rw [h.span_owned (.inr ⟨entry, hentry, t, hvalid, rfl, hbytes⟩)]
  exact hbytes

/-- **Fidelity.** The handle of a converted image is the source. The bytes of an id are those of the entry or
the added token that owns it, and none where nothing does; the lookup of a pair of ids finds merge number
`rank` as `(rank << 32) | merged`, and `BPV_PAIR_EMPTY` where there is none; a byte has the id of its
one-byte token; the records are the added tokens by id with their special flags; the NFC flag is the
normalizer's. -/
theorem convert_faithful {ceilLog2 : Nat → Nat} {raw : List UInt8} {doc : Json} {name : Str} {image : List UInt8}
    (h : convert ceilLog2 raw doc name = .ok image) {host : Host} {v : BpVocab} (ho : Opens host image v) :
    ∃ s, doc.source = some s ∧
      (∀ id bytes, s.Owns id bytes → v.HasId id ∧ v.span id = bytes) ∧
      (∀ id, v.HasId id → (∀ bytes, ¬s.Owns id bytes) → v.span id = []) ∧
      (∀ a b, v.HasId a → v.HasId b →
        (∀ rank m, s.Merge rank a b m → bpPairLookup v a b = .ok (rank <<< 32 ||| m)) ∧
          ((∀ rank m, ¬s.Merge rank a b m) → bpPairLookup v a b = .ok BPV_PAIR_EMPTY)) ∧
      (∀ b : UInt8, vocabId s.vocab [b2u b] = some (v.byteToken b)) ∧
      (∃ tokens sorted, s.addedTokens.mapM validateAdded = .ok tokens ∧ sorted.Perm tokens ∧
        (sorted.Pairwise fun t u => t.tid < u.tid) ∧
        List.Forall₂ (fun (t : AddedToken) (a : BpvAdded) => a.id = t.tid ∧ encodeUtf8 t.content = .ok (v.span a.id) ∧
          a.flags = if t.special then 1 else 0) sorted v.added) ∧
      (v.hdr.flags &&& BPV_FLAG_NFC ≠ 0 ↔ ¬isNull s.normalizer) := by
  obtain ⟨s, p, c, hs, hb, hsized, himage, -⟩ := convert_built h
  have hc := Contents.handle hsized himage ho
  have hv := ho.valid
  have hspan : ∀ id, v.span id = spanOf c.offsets c.blob id := by
    intro id
    rw [BpVocab.span, hc.tokOff, hc.blob]
  refine ⟨s, hs, fun id bytes howns => ?_, fun id hid hno => ?_, fun a b ha hb' => ?_, fun b => ?_, ?_, ?_⟩
  · constructor
    · rw [BpVocab.HasId, hc.count]
      exact hb.owns_lt howns
    · rw [hspan, hb.span_owned howns]
  · rw [BpVocab.HasId, hc.count] at hid
    rw [hspan, hb.span_unowned hid hno]
  · obtain ⟨hpresent, habsent⟩ := hb.lookup_eq hc hv ha hb'
    rw [bpPairLookup_eq hv]
    exact ⟨fun rank m hmerge => by rw [hpresent rank m hmerge], fun hno => by rw [habsent hno]⟩
  · rw [BpVocab.byteToken, hc.byteId]
    exact hb.byte_id b
  · obtain ⟨out, hout, hperm⟩ := hb.tokens
    refine ⟨out, p.tokens, hout, hperm, hb.sorted, ?_⟩
    rw [hc.added]
    simp only [hspan]
    exact hb.records_eq
  · rw [hc.flags, hb.flags]
    cases isNull s.normalizer <;> decide

end Handle

section Toy

def key (s : String) (j : Json) : Str × Json := (str s, j)

/-- A `tokenizer.json` with the tokens of bytes, two merges and some added tokens. -/
def toyDoc (addedTokens : List Json) : Json := .obj
  [key "normalizer" (.obj [key "type" (.str (str "NFC"))]),
    key "pre_tokenizer" (.obj [key "type" (.str (str "Sequence")), key "pretokenizers" (.arr
      [.obj [key "type" (.str (str "Split")), key "pattern" (.obj [key "Regex" (.str (str PROFILE1_REGEX))]),
          key "behavior" (.str (str "Isolated")), key "invert" (.bool false)],
        .obj [key "type" (.str (str "ByteLevel")), key "add_prefix_space" (.bool false), key "use_regex" (.bool false)]])]),
    key "model" (.obj [key "type" (.str (str "BPE")),
      key "vocab" (.obj ((List.range 256).map (fun b => ([b2u (UInt8.ofNat b)], Json.int b)) ++
        [key "ab" (.int 256), key "abc" (.int 257)])),
      key "merges" (.arr [.str (str "a b"), .arr [.str (str "ab"), .str (str "c")]])]),
    key "added_tokens" (.arr addedTokens)]

/-- An entry of `added_tokens`. -/
def addedEntryOf (content : Str) (id : Nat) : Json :=
  .obj [key "content" (.str content), key "id" (.int id), key "special" (.bool true)]

theorem ok_of_toOption {α : Type} {x : Except Failure α} {a : α} (h : x.toOption = some a) : x = .ok a := by
  cases x with
  | error e => cases h
  | ok b => exact congrArg _ (Option.some.inj h)

/-- The smallest power of two that keeps the load of `n` merges at 0.65 or below. -/
def loadLog2 (n : Nat) : Nat := Nat.log2 ((20 * n + 12) / 13 - 1) + 1

theorem get_here (k : String) (j : Json) (kvs : List (Str × Json)) (default : Json) :
    get (key k j :: kvs) k default = j := by
  unfold get key
  rw [List.lookup_cons, beq_self_eq_true]
  rfl

theorem str_injective : Function.Injective str := by
  intro k k' h
  have hcode : Function.Injective Char.toNat := fun a b h => Char.ext (UInt32.toNat.inj h)
  unfold str at h
  exact String.ext (List.map_injective_iff.2 hcode h)

theorem get_skip {k k' : String} (h : k ≠ k') (j : Json) (kvs : List (Str × Json)) (default : Json) :
    get (key k' j :: kvs) k default = get kvs k default := by
  unfold get key
  rw [List.lookup_cons, beq_eq_false_iff_ne.2 fun heq => h (str_injective heq)]

def toyItems (addedTokens : List Json) : List (Str × Json) := (items (toyDoc addedTokens)).getD []

def toyVocab : List (Str × Json) := (List.range 256).map byteEntry ++ [key "ab" (.int 256), key "abc" (.int 257)]

def toyMerges : List Json := [.str (str "a b"), .arr [.str (str "ab"), .str (str "c")]]

def toyIds : List (Nat × List UInt8) := (257, [0x61, 0x62, 0x63]) :: (256, [0x61, 0x62]) :: byteIds 256

theorem toy_model (addedTokens : List Json) : validateModel (toyItems addedTokens) = .ok (toyVocab, toyMerges) := by
  have hmodel : get (toyItems addedTokens) "model" .null =
      .obj [key "type" (.str (str "BPE")), key "vocab" (.obj toyVocab), key "merges" (.arr toyMerges)] := by
    show get (key _ _ :: key _ _ :: key _ _ :: _) _ _ = _
    rw [get_skip (by decide), get_skip (by decide), get_here]
    rfl
  have hvocab : get [key "type" (.str (str "BPE")), key "vocab" (.obj toyVocab), key "merges" (.arr toyMerges)] "vocab" .null =
      .obj toyVocab := by
    rw [get_skip (by decide), get_here]
  have hmerges : get [key "type" (.str (str "BPE")), key "vocab" (.obj toyVocab), key "merges" (.arr toyMerges)] "merges" .null =
      .arr toyMerges := by
    rw [get_skip (by decide), get_skip (by decide), get_here]
  unfold validateModel
  rw [hmodel]
  refine bind_eq_ok.2 ⟨_, rfl, bind_eq_ok.2 ⟨(), ?_, bind_eq_ok.2 ⟨(), ?_, ?_⟩⟩⟩
  · exact ok_of_toOption (by decide +kernel)
  · exact ok_of_toOption (by decide +kernel)
  · rw [hvocab, hmerges]
    rfl

theorem toy_decoded : decodeVocab toyVocab = .ok toyIds := by
  unfold decodeVocab toyVocab
  rw [List.foldlM_append, bytes_decoded]
  exact ok_of_toOption (by decide +kernel)

theorem toy_bytes : buildByteToId toyVocab = .ok (List.range 256) := by
  refine bind_eq_ok.2 ⟨List.range 256, ?_, bind_eq_ok.2 ⟨(), ?_, rfl⟩⟩
  · rw [mapM_eq_ok, List.forall₂_same]
    intro b hb
    have hlt := List.mem_range.1 hb
    have hnat : (UInt8.ofNat b).toNat = b := UInt8.toNat_ofNat_of_lt' hlt
    rw [need_eq_ok]
    unfold vocabId toyVocab
    rw [bytes_lookup (Nat.le_refl 256) (by rwa [hnat]), hnat]
    rfl
  · exact require_eq_ok.2 (decide_eq_true List.nodup_range)

theorem toy_table : buildPairTable toyMerges toyVocab toyIds 16 = .ok (toy.slots.map (·.1), toy.slots.map (·.2)) :=
  ok_of_toOption (by decide +kernel)

example : toy.slots.length = 16 := by decide +kernel

/-- An entry with a content is fine. -/
theorem validateAdded_entry {content : Str} (h : content ≠ []) (id : Nat) :
    validateAdded (addedEntryOf content id) = .ok ⟨id, content, true⟩ := by
  have hcontent : get [key "content" (.str content), key "id" (.int id), key "special" (.bool true)] "content" .null =
      .str content := get_here _ _ _ _
  have hid : get [key "content" (.str content), key "id" (.int id), key "special" (.bool true)] "id" .null = .int id := by
    rw [get_skip (by decide), get_here]
  have hspecial : get [key "content" (.str content), key "id" (.int id), key "special" (.bool true)] "special" (.bool false) =
      .bool true := by
    rw [get_skip (by decide), get_skip (by decide), get_here]
  have hoff : ∀ field ∈ ["single_word", "lstrip", "rstrip", "normalized"],
      get [key "content" (.str content), key "id" (.int id), key "special" (.bool true)] field (.bool false) = .bool false := by
    intro field hfield
    have hother : field ≠ "content" ∧ field ≠ "id" ∧ field ≠ "special" := by
      revert field
      decide
    rw [get_skip hother.1, get_skip hother.2.1, get_skip hother.2.2]
    rfl
  refine bind_eq_ok.2 ⟨_, rfl, ?_⟩
  refine bind_eq_ok.2 ⟨content, ?_, bind_eq_ok.2 ⟨id, ?_, bind_eq_ok.2 ⟨(), ?_, ?_⟩⟩⟩
  · rw [hcontent, need_eq_ok]
    exact if_pos h
  · rw [hid]
    rfl
  · rw [forM_eq_ok]
    intro field hfield
    rw [hoff field hfield]
    rfl
  · rw [hspecial]
    rfl

theorem toy_added {content : Str} (h : content ≠ []) :
    validateAddedTokens (toyItems [addedEntryOf content 258]) = .ok [⟨258, content, true⟩] := by
  have hentries : get (toyItems [addedEntryOf content 258]) "added_tokens" (.arr []) = .arr [addedEntryOf content 258] := by
    show get (key _ _ :: key _ _ :: key _ _ :: key _ _ :: _) _ _ = _
    rw [get_skip (by decide), get_skip (by decide), get_skip (by decide), get_here]
  refine bind_eq_ok.2 ⟨[addedEntryOf content 258], ?_, bind_eq_ok.2 ⟨_, mapM_eq_ok.2 (.cons (validateAdded_entry h 258) .nil), ?_⟩⟩
  · rw [hentries]
    rfl
  · exact bind_eq_ok.2 ⟨(), rfl, bind_eq_ok.2 ⟨(), require_eq_ok.2 (decide_eq_true (List.nodup_singleton _)), rfl⟩⟩

/-- What is left of the conversion of the toy, behind its checks and its tables. -/
def toyLaidOut (t : AddedToken) (bytes : List UInt8) : Except Failure (List UInt8) := do
  let pieces := (List.range 259).map (pieceOf toyIds [(258, bytes)])
  let blob := pieces.flatten
  let offsets := pieces.scanl (fun n piece => n + piece.length) 0
  require (blob.length < 2 ^ 32) "token blob does not fit in u32 offsets" []
  let payloads ← [u32Array offsets, pure blob,
    u64Array (((toy.slots.map (·.1)).zip (toy.slots.map (·.2))).flatMap fun s => [s.1, s.2]),
    u32Array (List.range 256), u32Array ([t].flatMap (addedRecord offsets [(258, bytes)])),
    encodeMeta [[], str CONVERTER_VERSION, str PROFILE1_REGEX]].mapM id
  assemble 1 259 1 4 (fnv1a64 []) payloads

theorem toy_limits : (toyIds.lookup 258).isNone = true ∧ (toyIds.map Prod.fst ++ [258]).foldl max 0 + 1 = 259 ∧
    (if toyMerges.length = 0 then MIN_PAIR_SLOTS_LOG2 else max MIN_PAIR_SLOTS_LOG2 (loadLog2 toyMerges.length)) = 4 ∧
    ((List.range 256).zipIdx.forM fun (tid, b) => require ((toyIds.lookup tid).getD [] = [UInt8.ofNat b])
      "single-byte token for 0x%02X decodes to %d bytes, not 1"
      [.int b, .int ((toyIds.lookup tid).getD []).length]).toOption = some () := by decide +kernel

/-- The toy with an added token of some content passes its checks, and gets its tables. -/
theorem toy_convert {content : Str} (hne : content ≠ []) {bytes : List UInt8} (hbytes : encodeUtf8 content = .ok bytes) :
    convert loadLog2 [] (toyDoc [addedEntryOf content 258]) [] = toyLaidOut ⟨258, content, true⟩ bytes := by
  have hnormalizer : validateNormalizer (toyItems [addedEntryOf content 258]) = .ok 1 := by
    have hget : get (toyItems [addedEntryOf content 258]) "normalizer" .null = get (toyItems []) "normalizer" .null := by
      show get (key _ _ :: _) _ _ = get (key _ _ :: _) _ _
      rw [get_here, get_here]
    unfold validateNormalizer
    rw [hget]
    exact ok_of_toOption (by decide +kernel)
  have hpre : validatePreTokenizer (toyItems [addedEntryOf content 258]) = .ok () := by
    have hget : get (toyItems [addedEntryOf content 258]) "pre_tokenizer" .null =
        get (toyItems []) "pre_tokenizer" .null := by
      show get (key _ _ :: key _ _ :: _) _ _ = get (key _ _ :: key _ _ :: _) _ _
      rw [get_skip (by decide), get_here, get_skip (by decide), get_here]
    unfold validatePreTokenizer
    rw [hget]
    exact ok_of_toOption (by decide +kernel)
  obtain ⟨hfree, hmax, hslots, hsingle⟩ := toy_limits
  have hentry : addedEntry toyIds ⟨258, content, true⟩ = .ok (258, bytes) :=
    bind_eq_ok.2 ⟨(), require_eq_ok.2 hfree, bind_eq_ok.2 ⟨bytes, hbytes, rfl⟩⟩
  have htop : (toyIds.map (·.1) ++ [(⟨258, content, true⟩ : AddedToken)].map AddedToken.tid).foldl max 0 + 1 = 259 := by
    exact hmax
  have hsome : (!(toyIds.map (·.1) ++ [(⟨258, content, true⟩ : AddedToken)].map AddedToken.tid).isEmpty) = true := rfl
  have hcount : require (decide (259 < 2 ^ 32)) "vocab_count does not fit in u32" [] = .ok () := rfl
  have hload : require (decide (20 * toyMerges.length ≤ 13 * 16))
      "internal: computed pair table load factor exceeds %.2f" [] = .ok () := rfl
  have hnslots : 1 <<< 4 = 16 := rfl
  have hadded := mapM_eq_ok.2 (.cons hentry .nil)
  have hdoc : need (items (toyDoc [addedEntryOf content 258])) "input JSON is not an object" [] =
      .ok (toyItems [addedEntryOf content 258]) := rfl
  unfold convert toyLaidOut
  rw [hdoc, ok_bind, hnormalizer, ok_bind, hpre, ok_bind, toy_model, ok_bind]
  dsimp only
  rw [toy_added hne, ok_bind, toy_decoded, ok_bind, hadded, ok_bind]
  rw [htop, hslots, (require_eq_ok (u := ())).2 hsome, ok_bind, hcount, ok_bind]
  simp only [toy_bytes, ok_bind, ok_of_toOption hsingle, hload, hnslots, toy_table]
  rw [List.length_singleton]

theorem toy_converts : convert loadLog2 [] (toyDoc [addedEntryOf (str "<x>") 258]) [] = .ok toy.image := by
  rw [toy_convert (by decide +kernel) (ok_of_toOption (a := [0x3C, 0x78, 0x3E]) (by decide +kernel))]
  exact ok_of_toOption (by decide +kernel)

example : bpPairLookup toy.vocab 0x61 0x62 = .ok 256 := by decide +kernel

theorem convert_faithful_toy : ∃ s, (toyDoc [addedEntryOf (str "<x>") 258]).source = some s ∧
    ∀ rank m, s.Merge rank 0x61 0x62 m → bpPairLookup toy.vocab 0x61 0x62 = .ok (rank <<< 32 ||| m) := by
  have hid : ∀ id < 259, toy.vocab.HasId id := by
    have hcount : toy.vocab.hdr.vocabCount = 259 := by decide +kernel
    intro id hid
    rwa [BpVocab.HasId, hcount]
  obtain ⟨s, hs, -, -, hlookup, -⟩ := convert_faithful toy_converts toy_opens
  exact ⟨s, hs, (hlookup 0x61 0x62 (hid _ (by decide)) (hid _ (by decide))).1⟩

end Toy

end Bytepair.Convert
