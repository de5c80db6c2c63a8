import Bytepair.Encode.Merges
import Bytepair.Encode.Spans

/-!
# Where an id comes from

An id that a text comes to and that is no added token's is one of the ids of a pretoken of a segment of the
text. Where merging joins bytes, the pretoken has the id's bytes at the id's place, and these bytes by
themselves come to that id alone: `pretokenIds_origin`. Both hold of texts and pretokens of
whatever length.
-/

namespace Bytepair
open Support

variable {v : BpVocab} {T : Tables}

section Formable

/-- The ids that merging can form from the tokens of bytes. -/
inductive BpVocab.Formable (v : BpVocab) : Nat → Prop
  | byte (b : UInt8) : Formable v (v.byteToken b)
  | merge {a b r c : Nat} (left : Formable v a) (right : Formable v b) (rule : v.rule a b = some (r, c)) : Formable v c

theorem BpVocab.Formable.hasId (hv : v.Valid) {id : Nat} (h : v.Formable id) : v.HasId id := by
  induction h with
  | byte b => exact (hv.byte b).1
  | merge _ _ hrule iha ihb => exact (hv.rule_spec iha ihb hrule).2

/-- Merges of tokens that have bytes have bytes. -/
theorem BpVocab.Formable.span_ne_nil (hv : v.Valid) (hb : v.ByteCoherent) {id : Nat} (h : v.Formable id) :
    v.span id ≠ [] := by
  induction h with
  | byte b =>
    rw [(hv.byte b).2]
    exact List.cons_ne_nil _ _
  | merge ha hb' hrule iha _ =>
    rw [← hb _ _ _ _ (ha.hasId hv) (hb'.hasId hv) hrule]
    exact List.append_ne_nil_of_left_ne_nil iha _

theorem byteTokens_formable (p : List UInt8) : ∀ id ∈ p.map v.byteToken, v.Formable id := by
  intro id hid
  obtain ⟨b, -, rfl⟩ := List.mem_map.1 hid
  exact .byte b

end Formable

section Pretokens

/-- **Where an id of a pretoken comes from.** The bytes of the ids before it are before its own bytes in the pretoken,
and its own bytes by themselves are merged to it. -/
theorem pretokenIds_origin (hv : v.Valid) (hb : v.ByteCoherent) {p : List UInt8} {us vs : List Nat} {t : Nat}
    (h : pretokenIds v p = some (us ++ t :: vs)) :
    v.Formable t ∧ ∃ rest, linked p = us.flatMap v.span ++ (v.span t ++ rest) ∧
      greedy (routeRule v p.length) ((v.span t).map v.byteToken) = [t] := by
  obtain ⟨ys, hreach, more, hys⟩ := pretokenIds_reached hv h
  have hclosed : ∀ a b r c, v.Formable a → v.Formable b → routeRule v p.length a b = some (r, c) → v.Formable c :=
    fun a b r c ha hb' hab => .merge ha hb' (routeRule_eq_some hab)
  have hjoins : ∀ a b r c, v.Formable a → v.Formable b → routeRule v p.length a b = some (r, c) →
      v.span a ++ v.span b = v.span c :=
    fun a b r c ha hb' hab => hb a b r c (ha.hasId hv) (hb'.hasId hv) (routeRule_eq_some hab)
  have hstart := byteTokens_formable (v := v) (linked p)
  have hys : ys = us ++ ([t] ++ (vs ++ more)) := by rw [← hys]; simp
  have hformable : v.Formable t := hreach.forall hclosed hstart t (by rw [hys]; simp)
  obtain ⟨L, M, R, hcut, hL, hM⟩ := hreach.cut hclosed hjoins hstart hys
  have hM : M.flatMap v.span = v.span t := by simpa using hM
  obtain ⟨l, mr, hp, hl, hmr⟩ := List.map_eq_append_iff.1 hcut
  obtain ⟨m, r, rfl, hm, hr⟩ := List.map_eq_append_iff.1 hmr
  rw [← hl, byteTokens_flatMap hv] at hL
  rw [← hm, byteTokens_flatMap hv] at hM
  refine ⟨hformable, r, by rw [hp, hL, hM], ?_⟩
  rw [← hM, hm]
  apply hreach.range hclosed hjoins (fun a ha => ha.span_ne_nil hv hb) hstart hcut hys
  · rw [← hl, byteTokens_flatMap hv, hL]
  · rw [← hm, byteTokens_flatMap hv, hM]
    simp

end Pretokens

section Texts

theorem spansIds_mem {ps : List (List UInt8)} {ids : List Nat} (h : spansIds v ps = some ids) {t : Nat} (ht : t ∈ ids) :
    ∃ p ∈ ps, ∃ xs, pretokenIds v p = some xs ∧ t ∈ xs := by
  induction ps generalizing ids with
  | nil =>
    cases h
    cases ht
  | cons p ps ih =>
    obtain ⟨xs, hxs, h⟩ := Option.bind_eq_some_iff.1 h
    obtain ⟨ys, hys, rfl⟩ := Option.map_eq_some_iff.1 h
    rcases List.mem_append.1 ht with ht | ht
    · exact ⟨p, List.mem_cons_self, xs, hxs, ht⟩
    · obtain ⟨q, hq, hmore⟩ := ih hys ht
      exact ⟨q, List.mem_cons_of_mem p hq, hmore⟩

theorem piecesIds_mem {tail : List UInt8} {ps : List (List UInt8 × BpvAdded)} {ids : List Nat}
    (h : piecesIds T v tail ps = some ids) {t : Nat} (ht : t ∈ ids) :
    (∃ p ∈ ps, t = p.2.id) ∨
      ∃ seg, (seg = tail ∨ ∃ p ∈ ps, seg = p.1) ∧ ∃ xs, segmentIds T v seg = some xs ∧ t ∈ xs := by
  induction ps generalizing ids with
  | nil => exact .inr ⟨tail, .inl rfl, ids, h, ht⟩
  | cons p ps ih =>
    obtain ⟨xs, hxs, h⟩ := Option.bind_eq_some_iff.1 h
    obtain ⟨zs, hzs, rfl⟩ := Option.map_eq_some_iff.1 h
    obtain ⟨ys, hys, rfl⟩ := Option.map_eq_some_iff.1 hzs
    rcases List.mem_append.1 ht with ht | ht
    · exact .inr ⟨p.1, .inr ⟨p, List.mem_cons_self, rfl⟩, xs, hxs, ht⟩
    · rcases List.mem_cons.1 ht with rfl | ht
      · exact .inl ⟨p, List.mem_cons_self, rfl⟩
      · rcases ih hys ht with ⟨q, hq, rfl⟩ | ⟨seg, hseg, hmore⟩
        · exact .inl ⟨q, List.mem_cons_of_mem p hq, rfl⟩
        · refine .inr ⟨seg, ?_, hmore⟩
          rcases hseg with rfl | ⟨q, hq, rfl⟩
          · exact .inl rfl
          · exact .inr ⟨q, List.mem_cons_of_mem p hq, rfl⟩

/-- **Where an id of a text comes from.** An id that is no added token's is one of the ids of a pretoken of the text. -/
theorem encodeIds_origin (hv : v.Valid) (hm : v.MatcherOk) {x : List UInt8} {flags : Nat} {ids : List Nat}
    (h : encodeIds T v x flags = some ids) {t : Nat} (ht : t ∈ ids) (hadded : v.isAdded t = false) :
    ∃ ps xs, v.IsPretoken T x flags ps ∧ pretokenIds v (encodeUnits ps) = some xs ∧ t ∈ xs := by
  have hsegment : ∀ {seg xs}, v.IsSegment x flags seg → segmentIds T v seg = some xs → t ∈ xs →
      ∃ ps xs, v.IsPretoken T x flags ps ∧ pretokenIds v (encodeUnits ps) = some xs ∧ t ∈ xs := by
    intro seg xs hseg hxs htx
    rw [segmentIds_eq] at hxs
    obtain ⟨p, hp, zs, hzs, htz⟩ := spansIds_mem hxs htx
    obtain ⟨ps, hps, rfl⟩ := List.mem_map.1 hp
    exact ⟨ps, zs, ⟨seg, hseg, hps⟩, hzs, htz⟩
  unfold encodeIds at h
  unfold BpVocab.IsSegment at hsegment
  split at h
  · next hwhole => exact hsegment (by rw [if_pos hwhole]) h ht
  · next hlook =>
    rw [cutIds_nil] at h
    rcases piecesIds_mem h ht with ⟨p, hp, rfl⟩ | ⟨seg, hseg, xs, hxs, htx⟩
    · have hyes := isAdded_iff.2 ⟨p.2, (cut_pieces hv hm x).mem p hp, rfl⟩
      rw [hadded] at hyes
      cases hyes
    · exact hsegment (by rw [if_neg hlook]; exact hseg) hxs htx

/-- The ids of each pretoken are among those of the pretokens. -/
theorem spansIds_subset {ps : List (List UInt8)} {ids : List Nat} (h : spansIds v ps = some ids) {p : List UInt8}
    (hp : p ∈ ps) : ∃ xs, pretokenIds v p = some xs ∧ xs ⊆ ids := by
  induction ps generalizing ids with
  | nil => cases hp
  | cons q ps ih =>
    obtain ⟨xs, hxs, h⟩ := Option.bind_eq_some_iff.1 h
    obtain ⟨ys, hys, rfl⟩ := Option.map_eq_some_iff.1 h
    rcases List.mem_cons.1 hp with rfl | hp
    · exact ⟨xs, hxs, List.subset_append_left xs ys⟩
    · obtain ⟨zs, hzs, hsub⟩ := ih hys hp
      exact ⟨zs, hzs, List.Subset.trans hsub (List.subset_append_right xs ys)⟩

theorem piecesIds_subset {tail : List UInt8} {ps : List (List UInt8 × BpvAdded)} {ids : List Nat}
    (h : piecesIds T v tail ps = some ids) {seg : List UInt8} (hseg : seg = tail ∨ ∃ p ∈ ps, seg = p.1) :
    ∃ xs, segmentIds T v seg = some xs ∧ xs ⊆ ids := by
  induction ps generalizing ids with
  | nil =>
    rcases hseg with rfl | ⟨p, hp, -⟩
    · exact ⟨ids, h, List.Subset.refl ids⟩
    · cases hp
  | cons q ps ih =>
    obtain ⟨xs, hxs, h⟩ := Option.bind_eq_some_iff.1 h
    obtain ⟨zs, hzs, rfl⟩ := Option.map_eq_some_iff.1 h
    obtain ⟨ys, hys, rfl⟩ := Option.map_eq_some_iff.1 hzs
    have hrest : (seg = tail ∨ ∃ p ∈ ps, seg = p.1) → ∃ zs, segmentIds T v seg = some zs ∧ zs ⊆ xs ++ q.2.id :: ys := by
      intro hseg
      obtain ⟨zs, hzs, hsub⟩ := ih hys hseg
      exact ⟨zs, hzs, fun id hid => List.mem_append_right xs (List.mem_cons_of_mem _ (hsub hid))⟩
    rcases hseg with htail | ⟨p, hp, rfl⟩
    · exact hrest (.inl htail)
    · rcases List.mem_cons.1 hp with rfl | hp
      · exact ⟨xs, hxs, List.subset_append_left xs _⟩
      · exact hrest (.inr ⟨p, hp, rfl⟩)

/-- The ids of each pretoken of a text are among those of the text. -/
theorem encodeIds_pretoken {x : List UInt8} {flags : Nat} {ids : List Nat} (h : encodeIds T v x flags = some ids)
    {ps : List Nat} (hps : v.IsPretoken T x flags ps) : ∃ xs, pretokenIds v (encodeUnits ps) = some xs ∧ xs ⊆ ids := by
  obtain ⟨seg, hseg, hps⟩ := hps
  have hspan : encodeUnits ps ∈ splitSpans T (v.normal T seg) := List.mem_map.2 ⟨ps, hps, rfl⟩
  have hsegment : ∃ ys, segmentIds T v seg = some ys ∧ ys ⊆ ids := by
    unfold encodeIds at h
    unfold BpVocab.IsSegment at hseg
    split at h
    · next hwhole =>
      rw [if_pos hwhole] at hseg
      exact ⟨ids, hseg ▸ h, List.Subset.refl ids⟩
    · next hlook =>
      rw [if_neg hlook] at hseg
      rw [cutIds_nil] at h
      exact piecesIds_subset h hseg
  obtain ⟨ys, hys, hsub⟩ := hsegment
  rw [segmentIds_eq] at hys
  obtain ⟨xs, hxs, hin⟩ := spansIds_subset hys hspan
  exact ⟨xs, hxs, List.Subset.trans hin hsub⟩

end Texts

end Bytepair
