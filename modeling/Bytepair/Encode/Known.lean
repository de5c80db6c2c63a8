import Bytepair.Encode.Calls
import Bytepair.Bpe.Closed
import Bytepair.Bpe.Wrap
import Bytepair.Nfc.Normal

/-!
# What a text comes to

`encodeIds_forall`: whatever a text comes to, its ids are of every set that merging does not
leave. `encodeIds_isSome`: every text comes to ids. Which route a pretoken takes only matters
for the rule in force on it, `routeRule`.
-/

namespace Bytepair
open Support

variable {v : BpVocab} {T : Tables}

section Routes

/-- The pairs the route of a length can see. -/
def routeRule (v : BpVocab) (n : Nat) : Nat → Nat → Option (Nat × Nat) :=
  if n ≤ 2 ∨ SHORT_MAX < n then v.rule else shortRule v

/-- A pretoken whose bytes can all be linked comes to its greedy merges. -/
theorem pretokenIds_of_le (hv : v.Valid) {p : List UInt8} (hlen : p.length ≤ 2 ^ 31) :
    pretokenIds v p = some (greedy (routeRule v p.length) (p.map v.byteToken)) := by
  unfold pretokenIds routeRule
  split
  · next hlow => rw [if_pos (.inl hlow)]
  · next hlow =>
    split
    · next hlong => rw [if_pos (.inr hlong), longIds, longRun_eq hv (by omega) (by omega), linked_of_le hlen]
    · next hlong => rw [if_neg (not_or.2 ⟨hlow, hlong⟩)]

/-- **A pretoken comes to its greedy merges**, whichever route it takes. -/
theorem pretokenIds_eq (hv : v.Valid) {p : List UInt8} (hlen : p.length < 2 ^ 31) :
    pretokenIds v p = some (greedy (routeRule v p.length) (p.map v.byteToken)) := pretokenIds_of_le hv (Nat.le_of_lt hlen)

theorem routeRule_eq_some {n a b r c : Nat} (h : routeRule v n a b = some (r, c)) : v.rule a b = some (r, c) := by
  unfold routeRule at h
  split at h
  · exact h
  · exact (shortRule_eq_some.1 h).1

/-- **A pretoken of whatever length** comes to the first ids of a state of the greedy run on the bytes it can link. -/
theorem pretokenIds_reached (hv : v.Valid) {p : List UInt8} {ids : List Nat} (h : pretokenIds v p = some ids) :
    ∃ ys, Reaches (routeRule v p.length) ((linked p).map v.byteToken) ys ∧ ids <+: ys := by
  rcases Nat.lt_or_ge SHORT_MAX p.length with hlong | hshort
  · have hlow : ¬p.length ≤ 2 := by
      unfold SHORT_MAX at hlong
      omega
    obtain ⟨ids', ys, hids, hreach, hstart⟩ := longIds_exists hv (show 0 < p.length by omega)
    rw [pretokenIds, if_neg hlow, if_pos hlong, hids] at h
    cases h
    rw [routeRule, if_pos (.inr hlong)]
    exact ⟨ys, hreach, hstart⟩
  · have hlen : p.length ≤ 2 ^ 31 := Nat.le_trans hshort (by decide)
    rw [pretokenIds_of_le hv hlen] at h
    cases h
    rw [linked_of_le hlen]
    exact ⟨_, reaches_greedy _, List.prefix_refl _⟩

end Routes

section Cuts

/-- The pieces a text is cut into. -/
theorem cut_pieces (hv : v.Valid) (hm : v.MatcherOk) (t : List UInt8) :
    LeftmostLongest v.addedBytes BpvAdded.id v.added t (cut v.findAdded v.addedBytes t).1
      (cut v.findAdded v.addedBytes t).2 := by
  apply cut_leftmostLongest
  · exact fun a ha => hv.addedBytes_ne_nil ha
  · exact fun t a h => BpVocab.findAdded_some hv hm h
  · exact fun t h => BpVocab.findAdded_none hm h

theorem cutIds_nil (t : List UInt8) :
    cutIds T v [] t = piecesIds T v (cut v.findAdded v.addedBytes t).2 (cut v.findAdded v.addedBytes t).1 := rfl

end Cuts

section Sets

variable {S Q : Nat → Prop}

theorem spansIds_forall (hv : v.Valid) (hS : v.Closed S) {ps : List (List UInt8)} {ids : List Nat}
    (h : spansIds v ps = some ids) : ∀ id ∈ ids, S id := by
  induction ps generalizing ids with
  | nil =>
    cases h
    exact fun id hid => nomatch hid
  | cons p ps ih =>
    obtain ⟨xs, hxs, h⟩ := Option.bind_eq_some_iff.1 h
    obtain ⟨ys, hys, rfl⟩ := Option.map_eq_some_iff.1 h
    rw [List.forall_mem_append]
    constructor
    · exact pretokenIds_forall hv hS hxs
    · exact ih hys

theorem segmentIds_forall (hv : v.Valid) (hS : v.Closed S) {t : List UInt8} {ids : List Nat}
    (h : segmentIds T v t = some ids) : ∀ id ∈ ids, S id := spansIds_forall hv hS h

theorem piecesIds_forall (hv : v.Valid) (hS : v.Closed S) (hQ : ∀ id, S id → Q id)
    {ps : List (List UInt8 × BpvAdded)} {tail : List UInt8} (hadded : ∀ p ∈ ps, Q p.2.id) {ids : List Nat}
    (h : piecesIds T v tail ps = some ids) : ∀ id ∈ ids, Q id := by
  induction ps generalizing ids with
  | nil => exact fun id hid => hQ id (segmentIds_forall hv hS h id hid)
  | cons p ps ih =>
    obtain ⟨ha, hadded⟩ := List.forall_mem_cons.1 hadded
    obtain ⟨xs, hxs, h⟩ := Option.bind_eq_some_iff.1 h
    obtain ⟨zs, hzs, rfl⟩ := Option.map_eq_some_iff.1 h
    obtain ⟨ys, hys, rfl⟩ := Option.map_eq_some_iff.1 hzs
    rw [List.forall_mem_append]
    constructor
    · exact fun id hid => hQ id (segmentIds_forall hv hS hxs id hid)
    · exact List.forall_mem_cons.2 ⟨ha, ih hadded hys⟩

/-- **What a text comes to** is of a set that merging does not leave, but for the added tokens where they
are looked for. -/
theorem encodeIds_forall (hv : v.Valid) (hm : v.MatcherOk) (hS : v.Closed S) (hQ : ∀ id, S id → Q id)
    {t : List UInt8} {flags : Nat} (hadded : flags &&& BP_RAW = 0 → ∀ a ∈ v.added, Q a.id) {ids : List Nat}
    (h : encodeIds T v t flags = some ids) : ∀ id ∈ ids, Q id := by
  unfold encodeIds at h
  split at h
  · exact fun id hid => hQ id (segmentIds_forall hv hS h id hid)
  · next hraw =>
    rw [cutIds_nil] at h
    have hlook := hadded (not_not.1 (not_or.1 hraw).1)
    exact piecesIds_forall hv hS hQ (fun p hp => hlook _ ((cut_pieces hv hm t).mem p hp)) h

/-- The ids of the vocabulary. -/
theorem BpVocab.Valid.closed (hv : v.Valid) : v.Closed v.HasId where
  byte b := (hv.byte b).1
  rule _ _ _ _ ha hb h := (hv.rule_spec ha hb h).2

theorem encodeIds_known (hv : v.Valid) (hm : v.MatcherOk) {t : List UInt8} {flags : Nat} {ids : List Nat}
    (h : encodeIds T v t flags = some ids) : ∀ id ∈ ids, v.HasId id :=
  encodeIds_forall hv hm hv.closed (fun _ hid => hid) (fun _ a ha => (hv.record a ha).id) h

end Sets

section Bounds

/-- The text a segment is split as. -/
def BpVocab.normal (v : BpVocab) (T : Tables) (t : List UInt8) : List UInt8 :=
  nfcText T (v.hdr.flags &&& BPV_FLAG_NFC ≠ 0) t

theorem segmentIds_eq (t : List UInt8) : segmentIds T v t = spansIds v (splitSpans T (v.normal T t)) := rfl

theorem length_normal_le (hT : T.Coherent) (t : List UInt8) : (v.normal T t).length ≤ 3 * t.length := by
  unfold BpVocab.normal
  cases decide (v.hdr.flags &&& BPV_FLAG_NFC ≠ 0) with
  | false =>
    show t.length ≤ 3 * t.length
    omega
  | true => exact hT.length_nfcText_le t

theorem spansIds_isSome (hv : v.Valid) (ps : List (List UInt8)) : ∃ ids, spansIds v ps = some ids := by
  induction ps with
  | nil => exact ⟨[], rfl⟩
  | cons p ps ih =>
    obtain ⟨xs, hxs⟩ := pretokenIds_exists hv p
    obtain ⟨ids, hids⟩ := ih
    rw [spansIds, hxs, hids]
    exact ⟨_, rfl⟩

theorem piecesIds_isSome (hv : v.Valid) (tail : List UInt8) (ps : List (List UInt8 × BpvAdded)) :
    ∃ ids, piecesIds T v tail ps = some ids := by
  induction ps with
  | nil => exact spansIds_isSome hv _
  | cons p ps ih =>
    obtain ⟨xs, hxs⟩ := spansIds_isSome hv (splitSpans T (v.normal T p.1))
    obtain ⟨ys, hys⟩ := ih
    rw [piecesIds, segmentIds_eq, hxs, hys]
    exact ⟨_, rfl⟩

/-- The segments of a text: what is between its added tokens, or all of it. -/
def BpVocab.IsSegment (v : BpVocab) (t : List UInt8) (flags : Nat) (seg : List UInt8) : Prop :=
  if flags &&& BP_RAW ≠ 0 ∨ v.hdr.addedCount = 0 then seg = t
  else seg = (cut v.findAdded v.addedBytes t).2 ∨ ∃ p ∈ (cut v.findAdded v.addedBytes t).1, seg = p.1

/-- The pretokens of a text, as units: what the regex matches in the normal form of a segment. -/
def BpVocab.IsPretoken (v : BpVocab) (T : Tables) (t : List UInt8) (flags : Nat) (ps : List Nat) : Prop :=
  ∃ seg, v.IsSegment t flags seg ∧ ps ∈ (splitRegex T).spans (units (v.normal T seg))

/-- **A text comes to ids.** -/
theorem encodeIds_isSome (hv : v.Valid) (t : List UInt8) (flags : Nat) : ∃ ids, encodeIds T v t flags = some ids := by
  unfold encodeIds
  split
  · exact spansIds_isSome hv _
  · rw [cutIds_nil]
    exact piecesIds_isSome hv _ _

/-- A segment is a part of the text. -/
theorem BpVocab.IsSegment.part (hv : v.Valid) (hm : v.MatcherOk) {t seg : List UInt8} {flags : Nat}
    (h : v.IsSegment t flags seg) : seg <:+: t := by
  unfold BpVocab.IsSegment at h
  have hcut := (cut_pieces hv hm t).parts
  split at h
  · subst h
    exact List.infix_rfl
  · rcases h with rfl | ⟨p, hp, rfl⟩
    · exact hcut.2
    · exact hcut.1 p hp

theorem length_segment_lt (hT : T.Coherent) (hv : v.Valid) (hm : v.MatcherOk) {t : List UInt8} (flags : Nat)
    (hlen : t.length < 2 ^ 29) (seg : List UInt8) (h : v.IsSegment t flags seg) : (v.normal T seg).length < 2 ^ 31 := by
  have hle := (h.part hv hm).length_le
  have := length_normal_le (v := v) hT seg
  omega

end Bounds

end Bytepair
