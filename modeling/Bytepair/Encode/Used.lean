import Bytepair.Encode.Origin

/-!
# Used ids

A merged id may be unused: the loader only asks that the vocabulary has it. `bpEncode_used` says when a text comes to
used ids alone, from which decoding gives bytes, and `unused_emitted` is a text that does not.
-/

namespace Bytepair
open Support

variable {host : Host} {map : List UInt8} {v : BpVocab}

section Used

/-- An id that has bytes. -/
def BpVocab.Used (v : BpVocab) (id : Nat) : Prop := v.HasId id ∧ v.span id ≠ []

/-- Used ids are decoded. -/
theorem decodeIds_used {ids : List Nat} (h : ∀ id ∈ ids, v.Used id) :
    decodeIds v 0 ids = .ok (ids.flatMap v.span) := by
  induction ids with
  | nil => rfl
  | cons id ids ih =>
    obtain ⟨⟨hid, hspan⟩, hids⟩ := List.forall_mem_cons.1 h
    have hone : decodeOne v 0 id = .ok (v.span id) := by
      rw [decodeOne, if_neg (Nat.not_le.2 hid), if_neg (fun hskip => hskip.1 (Nat.zero_and _)), if_neg hspan]
    rw [decodeIds, hone, ih hids]
    rfl

/-- Added tokens are used. -/
theorem BpVocab.Valid.added_used (hv : v.Valid) {a : BpvAdded} (ha : a ∈ v.added) : v.Used a.id :=
  ⟨(hv.record a ha).id, hv.addedBytes_ne_nil ha⟩

/-- No merge that is made on the bytes, greedily and by the pairs their number lets the encoder see, is to an id without
bytes. -/
def BpVocab.MergesUsed (v : BpVocab) (p : List UInt8) : Prop :=
  ∀ ids, Reaches (routeRule v p.length) ((linked p).map v.byteToken) ids → ∀ id ∈ ids, v.span id ≠ []

/-- No id without bytes can be formed from a part of the bytes, in whatever order pairs are merged. -/
def BpVocab.FormsUsed (v : BpVocab) (p : List UInt8) : Prop :=
  ∀ s, s <:+: p → ∀ id, Forms (routeRule v p.length) (s.map v.byteToken) id → v.span id ≠ []

theorem BpVocab.FormsUsed.merges {p : List UInt8} (h : v.FormsUsed p) : v.MergesUsed p := by
  intro ids hreach id hid
  obtain ⟨part, hpart, hforms⟩ := hreach.forms hid
  obtain ⟨a, b, hcut⟩ := hpart
  obtain ⟨as, bs, hp, has, -⟩ := List.map_eq_append_iff.1 hcut.symm
  obtain ⟨front, s, rfl, -, rfl⟩ := List.map_eq_append_iff.1 has
  apply h s _ id hforms
  apply List.IsInfix.trans _ (List.take_prefix _ p).isInfix
  show s <:+: linked p
  rw [hp]
  exact (List.suffix_append _ _).isInfix.trans (List.prefix_append _ _).isInfix

/-- No pair of the table has a part without bytes. -/
def BpVocab.PartsUsed (v : BpVocab) : Prop := ∀ a b r c, v.rule a b = some (r, c) → v.span a ≠ [] ∧ v.span b ≠ []

/-- Where no pair takes an id without bytes up, one that was made is still there at the end. -/
theorem mergesUsed_of_ids (hv : v.Valid) (hparts : v.PartsUsed) {p : List UInt8} (hlen : p.length < 2 ^ 31) {xs : List Nat}
    (hxs : pretokenIds v p = some xs) (hused : ∀ id ∈ xs, v.span id ≠ []) : v.MergesUsed p := by
  intro ids hreach id hid hnone
  rw [linked_of_le (Nat.le_of_lt hlen)] at hreach
  rw [pretokenIds_eq hv hlen, Option.some.injEq] at hxs
  refine hused id ?_ hnone
  rw [← hxs, hreach.greedy_eq]
  refine (reaches_greedy ids).stays ?_ hid
  intro a b r c hab
  obtain ⟨ha, hb⟩ := hparts a b r c (routeRule_eq_some hab)
  constructor
  · rintro rfl
    exact ha hnone
  · rintro rfl
    exact hb hnone

/-- What a text comes to is used, if its pretokens are merged so. -/
theorem encodeIds_used (hv : v.Valid) (hm : v.MatcherOk) {x : List UInt8} {flags : Nat}
    (hused : ∀ ps, v.IsPretoken shipped x flags ps → v.MergesUsed (encodeUnits ps)) {ids : List Nat}
    (hids : encodeIds shipped v x flags = some ids) : ∀ id ∈ ids, v.Used id := by
  intro id hid
  cases hadded : v.isAdded id with
  | true =>
    obtain ⟨a, ha, rfl⟩ := isAdded_iff.1 hadded
    exact hv.added_used ha
  | false =>
    obtain ⟨ps, xs, hps, hxs, hidx⟩ := encodeIds_origin hv hm hids hid hadded
    obtain ⟨ys, hreach, hstart⟩ := pretokenIds_reached hv hxs
    exact ⟨encodeIds_known hv hm hids id hid, hused ps hps ys hreach id (hstart.subset hidx)⟩

/-- **When only used ids are emitted.** If the pretokens of a text are merged to used ids, for which it is enough that no
others can be formed from a part of one of them, the text comes to used ids, and decoding them succeeds. Where no pair of the
table takes an unused id up again, that is the exact condition on texts whose pretokens stay below 2^31 bytes. -/
theorem bpEncode_used (h : Opens host map v) {x : List UInt8} {flags : Nat} :
    ((∀ ps, v.IsPretoken shipped x flags ps → v.FormsUsed (encodeUnits ps)) →
      ∀ ps, v.IsPretoken shipped x flags ps → v.MergesUsed (encodeUnits ps)) ∧
    ((∀ ps, v.IsPretoken shipped x flags ps → v.MergesUsed (encodeUnits ps)) →
      ∀ c : BpCtx, c.Reached shipped v → ∀ out n c' out', bpEncode shipped c x out flags = .ok (.ok n, (c', out')) →
        ∃ ids, n = ids.length ∧ out' = filled out ids ∧ (∀ id ∈ ids, v.span id ≠ []) ∧
          ∀ buf, ∃ bytes, bpDecode c' ids buf 0 = .ok (.ok bytes.length, filled buf bytes)) ∧
    (v.PartsUsed → (∀ ps, v.IsPretoken shipped x flags ps → (encodeUnits ps).length < 2 ^ 31) →
      ((∀ ids, Encodes v x flags ids → ∀ id ∈ ids, v.span id ≠ []) ↔
        ∀ ps, v.IsPretoken shipped x flags ps → v.MergesUsed (encodeUnits ps))) := by
  have hv := h.valid
  refine ⟨fun hforms ps hps => (hforms ps hps).merges, ?_, fun hparts hshort => ⟨?_, ?_⟩⟩
  · intro hused c hc out n c' out' hrun
    have hs := h.encode hc x out flags
    rw [hrun] at hs
    generalize hids : encodeIds shipped v x flags = value at hs
    cases hs with
    | done ids _ coherent _ =>
      have hall := encodeIds_used hv h.matcher hused hids
      refine ⟨ids, rfl, rfl, fun id hid => (hall id hid).2, fun buf => ⟨ids.flatMap v.span, ?_⟩⟩
      have hdecode := bpDecode_eq hv coherent.handle 0 ids buf
      rwa [decodeIds_used hall] at hdecode
  · intro hall ps hps
    obtain ⟨ids, hids⟩ := encodeIds_isSome (T := shipped) hv x flags
    obtain ⟨xs, hxs, hsub⟩ := encodeIds_pretoken hids hps
    apply mergesUsed_of_ids hv hparts (hshort ps hps) hxs
    exact fun id hid => hall ids ((encodes_iff hv h.matcher).2 hids) id (hsub hid)
  · intro hmerges ids hids id hid
    exact (encodeIds_used hv h.matcher hmerges ((encodes_iff hv h.matcher).1 hids) id hid).2

/-- One merge, to an id without bytes. -/
def unusedMerge : Convert.Sample where
  flags := 0
  tokens := [[]]
  merges := [(0x61, 0x62, 0, 256)]
  added := []
  info := [0, 0, 0, 0]
  sourceHash := 0

theorem unusedMerge_opens : unusedMerge.Opens := Convert.Sample.opens (by decide +kernel)

example : unusedMerge.vocab.span 256 = [] := by decide +kernel

theorem unusedMerge_facts : unusedMerge.vocab.hdr.addedCount = 0 ∧
    (splitRegex shipped).spans (units (unusedMerge.vocab.normal shipped [0x78, 0x79, 0x7A])) = [[0x78, 0x79, 0x7A]] ∧
    encodeUnits [0x78, 0x79, 0x7A] = [0x78, 0x79, 0x7A] ∧
    [0x78, 0x79, 0x7A].map unusedMerge.vocab.byteToken = [0x78, 0x79, 0x7A] ∧
    (∀ a ∈ [0x78, 0x79, 0x7A], ∀ b ∈ [0x78, 0x79, 0x7A], routeRule unusedMerge.vocab 3 a b = none) ∧
    (∀ id ∈ [0x78, 0x79, 0x7A], unusedMerge.vocab.span id ≠ []) ∧
    encodeIds shipped unusedMerge.vocab [0x78, 0x79, 0x7A] 0 = some [0x78, 0x79, 0x7A] := by decide +kernel

/-- Of the letters `xyz` no pair is merged. -/
theorem unusedMerge_forms {ps : List Nat} (hps : unusedMerge.vocab.IsPretoken shipped [0x78, 0x79, 0x7A] 0 ps) :
    unusedMerge.vocab.FormsUsed (encodeUnits ps) := by
  obtain ⟨hcount, hspans, hbytes, htokens, hrule, hused, -⟩ := unusedMerge_facts
  obtain ⟨seg, hseg, hps⟩ := hps
  rw [BpVocab.IsSegment, if_pos (.inr hcount)] at hseg
  rw [hseg, hspans] at hps
  rw [List.mem_singleton.1 hps, hbytes]
  intro s hs id hforms
  apply hused
  refine @Forms.closed _ _ (· ∈ [0x78, 0x79, 0x7A]) ?_ _ _ hforms ?_
  · intro a b r c ha hb hab
    have hnone : routeRule unusedMerge.vocab 3 a b = some (r, c) := hab
    rw [hrule a ha b hb] at hnone
    cases hnone
  · have hpart := (hs.map unusedMerge.vocab.byteToken).subset
    rw [htokens] at hpart
    exact hpart

theorem bpEncode_used_unusedMerge : ∃ (c c' : BpCtx) (n : Nat) (out' : List Nat),
    bpEncode shipped c [0x78, 0x79, 0x7A] [0, 0, 0] 0 = .ok (.ok n, (c', out')) ∧
    ∃ ids, n = ids.length ∧ out' = filled [0, 0, 0] ids ∧
      ∀ buf, ∃ bytes, bpDecode c' ids buf 0 = .ok (.ok bytes.length, filled buf bytes) := by
  have hopens : Opens ⟨true, true, true⟩ unusedMerge.image unusedMerge.vocab := unusedMerge_opens
  obtain ⟨-, -, -, -, -, -, hids⟩ := unusedMerge_facts
  obtain ⟨c, hc, hgranted⟩ := exists_context unusedMerge.vocab
  obtain ⟨c', hrun⟩ := (encodes_iff hopens.valid hopens.matcher).2 hids c hc hgranted [0, 0, 0]
  obtain ⟨hmerges, hdecodes, -⟩ := @bpEncode_used _ _ _ hopens [0x78, 0x79, 0x7A] 0
  obtain ⟨ids, hn, hout, -, hdecode⟩ := hdecodes (hmerges fun ps => unusedMerge_forms) c hc _ _ _ _ hrun
  exact ⟨c, c', _, _, hrun, ids, hn, hout, hdecode⟩

/-- The loader takes a merge into an unused id; the encoder emits the id, and the decoder refuses it. -/
theorem unused_emitted : Opens ⟨true, true, true⟩ unusedMerge.image unusedMerge.vocab ∧
    unusedMerge.vocab.span 256 = [] ∧ Encodes unusedMerge.vocab [0x61, 0x62] 0 [256] ∧
    (∀ c : BpCtx, c.Reached shipped unusedMerge.vocab → ∀ buf, ∃ out,
      bpDecode c [256] buf 0 = .ok (.error .range, out)) ∧
    ¬∀ (host : Host) (map : List UInt8) (v : BpVocab), Opens host map v → ∀ (x : List UInt8) (flags : Nat) (ids : List Nat),
      Encodes v x flags ids → ∀ id ∈ ids, v.span id ≠ [] := by
  have hopens : Opens ⟨true, true, true⟩ unusedMerge.image unusedMerge.vocab := unusedMerge_opens
  have hspan : unusedMerge.vocab.span 256 = [] := by decide +kernel
  have hids : encodeIds shipped unusedMerge.vocab [0x61, 0x62] 0 = some [256] := by decide +kernel
  have hencodes := (encodes_iff hopens.valid hopens.matcher).2 hids
  refine ⟨hopens, hspan, hencodes, fun c hc buf => ?_, fun hall => ?_⟩
  · have hone : decodeId unusedMerge.vocab 0 256 = .ok (.error .range) := by decide +kernel
    rw [bpDecode, (hopens.coherent hc).handle, decodeFrom, hone]
    exact ⟨buf, rfl⟩
  · exact hall _ _ _ hopens _ _ _ hencodes 256 List.mem_cons_self hspan

end Used

end Bytepair
