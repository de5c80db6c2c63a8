import Bytepair.Encode.Opened

/-!
# The bytes behind the ids

Where merging joins the bytes of two tokens to those of the merged one, ids stand for the
text they came of: `segmentIds_flatMap` for a segment and `piecesIds_flatMap` for a text that
is cut at its added tokens. Decoding gives these bytes back.
-/

namespace Bytepair
open Support

/-- Merging joins the bytes of the two tokens. -/
def BpVocab.ByteCoherent (v : BpVocab) : Prop :=
  ∀ a b r c, v.HasId a → v.HasId b → v.rule a b = some (r, c) → v.span a ++ v.span b = v.span c

section Coherent

variable {v : BpVocab} {T : Tables}

/-- A vocabulary is byte coherent if each slot of its table is. -/
theorem byteCoherent_of_slots (hv : v.Valid)
    (h : ∀ s < v.hdr.slots, keyOf v.pairs s ≠ BPV_PAIR_EMPTY →
      v.span (keyOf v.pairs s / 2 ^ 32) ++ v.span (keyOf v.pairs s % 2 ^ 32) = v.span (valueOf v.pairs s % 2 ^ 32)) :
    v.ByteCoherent := by
  intro a b r c ha hb hrule
  obtain ⟨s, hs, hkey, -, hvalue⟩ := hv.rule_slot hrule
  obtain ⟨hlt, heq⟩ := pairKey_lt hv.countLe ha hb
  have hnarrow : b < 2 ^ 32 := by
    have hcount := hv.countLe
    have hb : b < v.hdr.vocabCount := hb
    omega
  have hslot := h s hs (by rw [hkey]; exact Nat.ne_of_lt hlt)
  rw [hkey, heq, hvalue, Nat.mul_comm, Nat.mul_add_div (by decide), Nat.div_eq_of_lt hnarrow, Nat.add_zero,
    Nat.mul_add_mod, Nat.mod_eq_of_lt hnarrow] at hslot
  exact hslot

theorem routeRule_closed (hv : v.Valid) {n : Nat} (a b r c : Nat) (ha : v.HasId a) (hb : v.HasId b)
    (h : routeRule v n a b = some (r, c)) : v.HasId c := (hv.rule_spec ha hb (routeRule_eq_some h)).2

theorem byteTokens_known (hv : v.Valid) (p : List UInt8) : ∀ id ∈ p.map v.byteToken, v.HasId id := by
  intro id hid
  obtain ⟨b, -, rfl⟩ := List.mem_map.1 hid
  exact (hv.byte b).1

theorem byteTokens_flatMap (hv : v.Valid) (p : List UInt8) : (p.map v.byteToken).flatMap v.span = p := by
  induction p with
  | nil => rfl
  | cons b p ih =>
    rw [List.map_cons, List.flatMap_cons, (hv.byte b).2, ih]
    rfl

/-- The ids of a pretoken stand for its bytes. -/
theorem pretokenIds_flatMap (hv : v.Valid) (hb : v.ByteCoherent) {p : List UInt8} (hlen : p.length < 2 ^ 31)
    {ids : List Nat} (h : pretokenIds v p = some ids) : ids.flatMap v.span = p := by
  rw [pretokenIds_eq hv hlen] at h
  cases h
  have hjoins : ∀ a b r c, v.HasId a → v.HasId b → routeRule v p.length a b = some (r, c) →
      v.span a ++ v.span b = v.span c := fun a b r c ha hb' hrule => hb a b r c ha hb' (routeRule_eq_some hrule)
  rw [greedy_flatMap (routeRule_closed hv) hjoins (byteTokens_known hv p), byteTokens_flatMap hv]

theorem spansIds_flatMap (hv : v.Valid) (hb : v.ByteCoherent) {ps : List (List UInt8)}
    (hlen : ∀ p ∈ ps, p.length < 2 ^ 31) {ids : List Nat} (h : spansIds v ps = some ids) :
    ids.flatMap v.span = ps.flatten := by
  induction ps generalizing ids with
  | nil =>
    cases h
    rfl
  | cons p ps ih =>
    obtain ⟨xs, hxs, h⟩ := Option.bind_eq_some_iff.1 h
    obtain ⟨ys, hys, rfl⟩ := Option.map_eq_some_iff.1 h
    obtain ⟨hp, hps⟩ := List.forall_mem_cons.1 hlen
    rw [List.flatMap_append, pretokenIds_flatMap hv hb hp hxs, ih hps hys, List.flatten_cons]

/-- **The ids of a segment stand for its normal form.** -/
theorem segmentIds_flatMap (hS : T.Scannable) (hv : v.Valid) (hb : v.ByteCoherent) {t : List UInt8}
    (hlen : (v.normal T t).length < 2 ^ 31) {ids : List Nat} (h : segmentIds T v t = some ids) :
    ids.flatMap v.span = v.normal T t := by
  have hcat := (splitSpans_flatten hS.toSplits (v.normal T t)).1
  have hspans : ∀ p ∈ splitSpans T (v.normal T t), p.length < 2 ^ 31 := by
    intro p hp
    have hle := (List.sublist_flatten_of_mem hp).length_le
    rw [hcat] at hle
    exact Nat.lt_of_le_of_lt hle hlen
  rw [spansIds_flatMap hv hb hspans h, hcat]

/-- The text the pieces stand for: the normal form of each gap, with the added token behind it, and the normal
form of what is left. -/
def BpVocab.restored (v : BpVocab) (T : Tables) (tail : List UInt8) (ps : List (List UInt8 × BpvAdded)) : List UInt8 :=
  ps.flatMap (fun p => v.normal T p.1 ++ v.addedBytes p.2) ++ v.normal T tail

theorem piecesIds_flatMap (hS : T.Scannable) (hv : v.Valid) (hb : v.ByteCoherent) {tail : List UInt8}
    {ps : List (List UInt8 × BpvAdded)} (htail : (v.normal T tail).length < 2 ^ 31)
    (hgap : ∀ p ∈ ps, (v.normal T p.1).length < 2 ^ 31) {ids : List Nat} (h : piecesIds T v tail ps = some ids) :
    ids.flatMap v.span = v.restored T tail ps := by
  induction ps generalizing ids with
  | nil => exact segmentIds_flatMap hS hv hb htail h
  | cons p ps ih =>
    obtain ⟨hp, hps⟩ := List.forall_mem_cons.1 hgap
    obtain ⟨xs, hxs, h⟩ := Option.bind_eq_some_iff.1 h
    obtain ⟨zs, hzs, rfl⟩ := Option.map_eq_some_iff.1 h
    obtain ⟨ys, hys, rfl⟩ := Option.map_eq_some_iff.1 hzs
    have hmore := ih hps hys
    unfold BpVocab.restored at hmore ⊢
    rw [List.flatMap_append, segmentIds_flatMap hS hv hb hp hxs, List.flatMap_cons, hmore, List.flatMap_cons]
    simp only [List.append_assoc]
    rfl

/-- Without added tokens a text is left whole. -/
theorem cut_whole (hv : v.Valid) (hm : v.MatcherOk) (hcount : v.hdr.addedCount = 0) (x : List UInt8) :
    cut v.findAdded v.addedBytes x = ([], x) := by
  have hcut := cut_pieces hv hm x
  have hnone : v.added = [] := List.eq_nil_of_length_eq_zero (hv.addedCount.trans hcount)
  generalize cut v.findAdded v.addedBytes x = r at hcut
  obtain ⟨ps, tail⟩ := r
  cases ps with
  | nil => exact congrArg _ hcut.text
  | cons p ps =>
    have hmem := hcut.mem p List.mem_cons_self
    rw [hnone] at hmem
    cases hmem

/-- **The ids of a text stand for it**: for its normal form as raw text, and else for its pieces. -/
theorem encodeIds_flatMap (hS : T.Scannable) (hv : v.Valid) (hm : v.MatcherOk) (hb : v.ByteCoherent) {x : List UInt8}
    {flags : Nat} (hflags : flags = 0 ∨ flags = BP_RAW)
    (hlen : ∀ seg, v.IsSegment x flags seg → (v.normal T seg).length < 2 ^ 31) {ids : List Nat}
    (h : encodeIds T v x flags = some ids) :
    (flags = BP_RAW → ids.flatMap v.span = v.normal T x) ∧ (flags = 0 → ids.flatMap v.span =
      v.restored T (cut v.findAdded v.addedBytes x).2 (cut v.findAdded v.addedBytes x).1) := by
  unfold encodeIds at h
  unfold BpVocab.IsSegment at hlen
  split at h
  · next hwhole =>
    rw [segmentIds_flatMap hS hv hb (hlen x (by rw [if_pos hwhole])) h]
    refine ⟨fun _ => rfl, ?_⟩
    rintro rfl
    rw [cut_whole hv hm (hwhole.resolve_left fun hflag => hflag (Nat.zero_and _))]
    rfl
  · next hlook =>
    simp only [if_neg hlook] at hlen
    rw [cutIds_nil] at h
    constructor
    · rintro rfl
      exact absurd (.inl (by decide)) hlook
    · intro _
      exact piecesIds_flatMap hS hv hb (hlen _ (.inl rfl)) (fun p hp => hlen _ (.inr ⟨p, hp, rfl⟩)) h

theorem normal_of_clear (hnfc : v.hdr.flags &&& BPV_FLAG_NFC = 0) (t : List UInt8) : v.normal T t = t := by
  unfold BpVocab.normal nfcText
  rw [decide_eq_false (not_not.2 hnfc)]
  rfl

/-- Without normalization the pieces stand for the text. -/
theorem restored_eq (hnfc : v.hdr.flags &&& BPV_FLAG_NFC = 0) {x tail : List UInt8} {ps : List (List UInt8 × BpvAdded)}
    (h : LeftmostLongest v.addedBytes BpvAdded.id v.added x ps tail) : v.restored T tail ps = x := by
  rw [← h.text]
  unfold BpVocab.restored
  simp only [normal_of_clear hnfc]

end Coherent

section Added

variable {v : BpVocab} {T : Tables} {S : Nat → Prop}

/-- The id is that of an added token. -/
def BpVocab.isAdded (v : BpVocab) (id : Nat) : Bool := v.added.any fun a => a.id = id

theorem isAdded_iff {id : Nat} : v.isAdded id = true ↔ ∃ a ∈ v.added, a.id = id := by
  unfold BpVocab.isAdded
  simp

/-- Where merging leads to no added token, the added tokens among the ids are those the text was cut at. -/
theorem piecesIds_added (hv : v.Valid) (hS : v.Closed S) (hbase : ∀ id, S id → v.isAdded id = false) {tail : List UInt8}
    {ps : List (List UInt8 × BpvAdded)} (hadded : ∀ p ∈ ps, p.2 ∈ v.added) {ids : List Nat}
    (h : piecesIds T v tail ps = some ids) : ids.filter v.isAdded = ps.map fun p => p.2.id := by
  have hsegment : ∀ {t : List UInt8} {xs : List Nat}, segmentIds T v t = some xs → xs.filter v.isAdded = [] := by
    intro t xs hxs
    rw [List.filter_eq_nil_iff]
    intro id hid
    rw [hbase id (segmentIds_forall hv hS hxs id hid)]
    exact Bool.false_ne_true
  induction ps generalizing ids with
  | nil => exact hsegment h
  | cons p ps ih =>
    obtain ⟨hp, hps⟩ := List.forall_mem_cons.1 hadded
    obtain ⟨xs, hxs, h⟩ := Option.bind_eq_some_iff.1 h
    obtain ⟨zs, hzs, rfl⟩ := Option.map_eq_some_iff.1 h
    obtain ⟨ys, hys, rfl⟩ := Option.map_eq_some_iff.1 hzs
    rw [List.filter_append, hsegment hxs, List.nil_append, List.filter_cons_of_pos (isAdded_iff.2 ⟨p.2, hp, rfl⟩),
      ih hps hys, List.map_cons]

/-- What is emitted for a text when added tokens are looked for. -/
theorem encodeIds_added (hv : v.Valid) (hm : v.MatcherOk) (hS : v.Closed S) (hbase : ∀ id, S id → v.isAdded id = false)
    {x : List UInt8} {ids : List Nat} (h : encodeIds T v x 0 = some ids) :
    ids.filter v.isAdded = (cut v.findAdded v.addedBytes x).1.map fun p => p.2.id := by
  unfold encodeIds at h
  split at h
  · next hwhole =>
    rw [cut_whole hv hm (hwhole.resolve_left fun hflag => hflag (Nat.zero_and _))]
    rw [List.map_nil, List.filter_eq_nil_iff]
    intro id hid
    rw [hbase id (segmentIds_forall hv hS h id hid)]
    exact Bool.false_ne_true
  · rw [cutIds_nil] at h
    exact piecesIds_added hv hS hbase (cut_pieces hv hm x).mem h

end Added

end Bytepair
