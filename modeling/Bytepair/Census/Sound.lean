import Bytepair.Census.Segments

/-!
# The proofs of the census

When a verdict `impossible` of the prover holds. The prover argues about the characters of pretokens, and such are the
units of every segment of a text that is well formed; added tokens can cut a text inside a character, and
then one is not. Of the normal form it argues whether or not the vocabulary asks for one, and it reads a token
as 260 characters at most.
-/

namespace Bytepair
open Support

section Reasons

variable {host : Host} {map : List UInt8} {v : BpVocab} {c c' : BpCtx} {t : Nat} {deep : Bool} {r : CensusResult}

/-- What a reason of the prover rests on. -/
theorem proved_reason (h : Opens host map v) (hc : c.Reached shipped v) (ht : v.HasId t)
    (hrun : censusToken shipped v c t deep = .ok (r, c')) (hverdict : r.verdict = .impossible)
    (hreason : r.reason ≠ .mergeOrder) : v.isAdded t = false ∧ proveImpossible shipped (v.span t) = r.reason := by
  have hready : Ready v c.scratch.Granted c := ⟨h.coherent hc, fun hg => hg⟩
  obtain ⟨r₁, c₁, hrun₁, -, hjudged⟩ := censusToken_spec h hready ht deep
  rw [hrun] at hrun₁
  cases hrun₁
  obtain ⟨hadded, -, ⟨hmerge, -⟩ | ⟨-, -, hproved⟩⟩ := hjudged.of_impossible hverdict
  · exact absurd hmerge hreason
  · exact ⟨hadded, hproved⟩

/-- Nothing is proved of no bytes. -/
theorem span_ne_nil_of_proved (h : proveImpossible shipped (v.span t) ≠ .none) : v.span t ≠ [] := by
  have hnil : proveImpossible shipped [] = .none := by decide
  intro heq
  rw [heq, hnil] at h
  exact h rfl

/-- What the prover finds of bytes that some characters of a pretoken have: it proves nothing, or it proves that they
read as units of which one is of quick-check No, or there are too many of them. -/
theorem proveImpossible_pretoken {x s : List UInt8} {ps ms : List Nat} (hps : v.IsPretoken shipped x 0 ps)
    (hms : ms <:+: ps) (hscalar : ∀ u ∈ ms, IsScalar u) (hs : s <:+: encodeUnits ms) :
    proveImpossible shipped s = .none ∨ proveImpossible shipped s = .invalidUtf8 ∨
      proveImpossible shipped s = .nfcExcluded ∧ ∃ u ∈ ms, shipped.bpNfcQc u = 0 := by
  obtain ⟨-, us, -, -, hne, rfl⟩ := hps.taken
  obtain ⟨vs, ws, hcut⟩ := hms
  have hblocked := contraction_pretoken shipped_worded hne (by rw [← hcut, List.append_assoc]) hscalar hs
  rcases proveImpossible_fragment hscalar hs hblocked with hnone | ⟨hinvalid, -⟩ | ⟨rs, bits, qcno, hrs, hreads, heq⟩
  · exact .inl hnone
  · exact .inr (.inl hinvalid)
  · have hpart : rs <:+: us.take (splitUnits shipped us) := hrs.trans ⟨vs, ws, hcut⟩
    have hfits := fits_of_shape shipped_worded.toSplits (shape_splitUnits shipped_worded hne) hpart hreads.admits
    rw [hfits, if_pos rfl] at heq
    cases qcno with
    | false => exact .inl heq
    | true =>
      obtain ⟨u, hu, hqc⟩ := hreads.excluded rfl
      exact .inr (.inr ⟨heq, u, hrs.subset hu, hqc⟩)

/-- **When a verdict on the bytes of a token is right of a text.** If bytes that only units of some kind have are in no
pretoken, the bytes of the token are in none of the text, and the text does not come to the token,
exactly if all units that have bytes of it in a pretoken are of the kind. -/
theorem absent_iff (h : Opens host map v) (hb : v.ByteCoherent) (hadded : v.isAdded t = false) (hne : v.span t ≠ [])
    {P : Nat → Prop} (hno : ∀ x ps ms, v.IsPretoken shipped x 0 ps → ms <:+: ps → (∀ u ∈ ms, P u) →
      ¬v.span t <:+: encodeUnits ms) (x : List UInt8) :
    ((∀ ps, v.IsPretoken shipped x 0 ps → ¬v.span t <:+: encodeUnits ps) ∧ NeverEmitted v t (· = x)) ↔
      v.CarriedBy P x (v.span t) := by
  constructor
  · rintro ⟨habsent, -⟩ ps hps ms hms hcarries
    exact absurd (hcarries.within.trans (encodeUnits_inside hms)) (habsent ps hps)
  · intro hcarried
    have habsent : ∀ ps, v.IsPretoken shipped x 0 ps → ¬v.span t <:+: encodeUnits ps := by
      intro ps hps hinside
      obtain ⟨ms, hms, hcarries⟩ := exists_carries hne hinside
      exact hno x ps ms hps hms (hcarried ps hps ms hms hcarries) hcarries.within
    refine ⟨habsent, .of_ids h ?_⟩
    rintro _ rfl ids hids ht
    obtain ⟨ps, hps, hinside⟩ := emitted_inside h hb hids ht hadded
    exact habsent ps hps hinside

/-- **The language of the pretokens is sound** of characters. Of a token that is called impossible by its shape or by a
contraction, and of a text: the bytes of the token are in no pretoken, and the text does not come to it,
exactly if no byte of it is in a pretoken a byte of no character. So it is for every text if the token is whole
characters, and for the well-formed ones if the added tokens are well formed. -/
theorem pretoken_language_sound (h : Opens host map v) (hb : v.ByteCoherent) (hc : c.Reached shipped v) (ht : v.HasId t)
    (hrun : censusToken shipped v c t deep = .ok (r, c')) (hverdict : r.verdict = .impossible)
    (hreason : r.reason = .pretokenShape ∨ r.reason = .contraction) :
    (∀ x, ((∀ ps, v.IsPretoken shipped x 0 ps → ¬v.span t <:+: encodeUnits ps) ∧ NeverEmitted v t (· = x)) ↔
      v.CarriedBy IsScalar x (v.span t)) ∧
    (WellFormed (v.span t) → NeverEmitted v t fun _ => True) ∧ (v.AddedWellFormed → NeverEmitted v t WellFormed) := by
  have hother : r.reason ≠ .mergeOrder := by
    rcases hreason with heq | heq <;> rw [heq] <;> decide
  obtain ⟨hadded, hproved⟩ := proved_reason h hc ht hrun hverdict hother
  have hne : v.span t ≠ [] := by
    apply span_ne_nil_of_proved
    rw [hproved]
    rcases hreason with heq | heq <;> rw [heq] <;> decide
  have hno : ∀ x ps ms, v.IsPretoken shipped x 0 ps → ms <:+: ps → (∀ u ∈ ms, IsScalar u) →
      ¬v.span t <:+: encodeUnits ms := by
    intro x ps ms hps hms hscalar hinside
    have hfound := proveImpossible_pretoken hps hms hscalar hinside
    rw [hproved] at hfound
    rcases hreason with heq | heq <;> rw [heq] at hfound <;> simp at hfound
  have hiff := absent_iff h hb hadded hne hno
  refine ⟨hiff, fun hwf => ?_, fun hall => ?_⟩
  · exact .of_texts fun x _ => ((hiff x).2 (carriedBy_wellFormed hwf hne x)).2
  · exact .of_texts fun x hx => ((hiff x).2 fun ps hps ms hms _ u hu =>
      hall.pretoken h.valid h.matcher hx hps u (hms.subset hu)).2

/-- **Quick-check No is sound** of the characters that are not of it. Of a token that is called impossible by quick-check
No, and of a text: the bytes of the token are in no pretoken, and the text does not come to it, exactly if
every byte of it in a pretoken is of a character that is not of quick-check No. Where the vocabulary asks for the normal
form, so it is for every text if the token is whole characters, and for the well-formed ones if the added
tokens are well formed. -/
theorem nfc_excluded_sound (h : Opens host map v) (hb : v.ByteCoherent) (hc : c.Reached shipped v) (ht : v.HasId t)
    (hrun : censusToken shipped v c t deep = .ok (r, c')) (hverdict : r.verdict = .impossible)
    (hreason : r.reason = .nfcExcluded) :
    (∀ x, ((∀ ps, v.IsPretoken shipped x 0 ps → ¬v.span t <:+: encodeUnits ps) ∧ NeverEmitted v t (· = x)) ↔
      v.CarriedBy (fun u => IsScalar u ∧ shipped.bpNfcQc u ≠ 0) x (v.span t)) ∧
    (v.hdr.flags &&& BPV_FLAG_NFC ≠ 0 →
      (∀ x, v.CarriedBy IsScalar x (v.span t) → NeverEmitted v t (· = x)) ∧
      (WellFormed (v.span t) → NeverEmitted v t fun _ => True) ∧ (v.AddedWellFormed → NeverEmitted v t WellFormed)) := by
  have hother : r.reason ≠ .mergeOrder := by
    rw [hreason]
    decide
  obtain ⟨hadded, hproved⟩ := proved_reason h hc ht hrun hverdict hother
  have hne : v.span t ≠ [] := by
    apply span_ne_nil_of_proved
    rw [hproved, hreason]
    decide
  have hno : ∀ x ps ms, v.IsPretoken shipped x 0 ps → ms <:+: ps → (∀ u ∈ ms, IsScalar u ∧ shipped.bpNfcQc u ≠ 0) →
      ¬v.span t <:+: encodeUnits ms := by
    intro x ps ms hps hms hall hinside
    rcases proveImpossible_pretoken hps hms (fun u hu => (hall u hu).1) hinside with heq | heq | ⟨-, u, hu, hqc⟩
    · rw [hproved, hreason] at heq
      cases heq
    · rw [hproved, hreason] at heq
      cases heq
    · exact (hall u hu).2 hqc
  have hiff := absent_iff h hb hadded hne hno
  refine ⟨hiff, fun hnfc => ?_⟩
  have hscalar : ∀ x, v.CarriedBy IsScalar x (v.span t) → NeverEmitted v t (· = x) := by
    intro x hx
    refine ((hiff x).2 fun ps hps ms hms hcarries u hu => ⟨hx ps hps ms hms hcarries u hu, ?_⟩).2
    exact hps.qc hnfc u (hms.subset hu)
  refine ⟨hscalar, fun hwf => ?_, fun hall => ?_⟩
  · exact .of_texts fun x _ => hscalar x (carriedBy_wellFormed hwf hne x)
  · exact .of_texts fun x hx => hscalar x fun ps hps ms hms _ u hu =>
      hall.pretoken h.valid h.matcher hx hps u (hms.subset hu)

/-- **When bytes called invalid are.** The bytes of a token that is called invalid UTF-8 are in no well-formed text, and
no such text comes to the token, exactly if they are not a part of one that has bytes of more characters
than the prover has room for. -/
theorem invalid_utf8_iff (h : Opens host map v) (hb : v.ByteCoherent) (hc : c.Reached shipped v) (ht : v.HasId t)
    (hrun : censusToken shipped v c t deep = .ok (r, c')) (hverdict : r.verdict = .impossible)
    (hreason : r.reason = .invalidUtf8) :
    ((∀ x, WellFormed x → ¬v.span t <:+: x) ∧ NeverEmitted v t WellFormed) ↔
      ¬(Fragment (v.span t) ∧ MAX_UNITS < charCount (v.span t)) := by
  have hother : r.reason ≠ .mergeOrder := by
    rw [hreason]
    decide
  obtain ⟨hadded, hproved⟩ := proved_reason h hc ht hrun hverdict hother
  constructor
  · rintro ⟨hno, -⟩ ⟨⟨x, hx, hpart⟩, -⟩
    exact hno x hx hpart
  · intro hshort
    have hno : ¬Fragment (v.span t) := by
      intro hfragment
      obtain ⟨us, hus, hinside⟩ := fragment_iff.1 hfragment
      have hblocked : blockedByContraction shipped (v.span t) = false := by
        apply Bool.eq_false_iff.2
        intro hblocked
        unfold proveImpossible at hproved
        rw [if_pos hblocked, hreason] at hproved
        cases hproved
      rcases proveImpossible_fragment hus hinside hblocked with heq | ⟨-, hmax⟩ | ⟨ws, bits, qcno, -, -, heq⟩
      · rw [hproved, hreason] at heq
        cases heq
      · exact hshort ⟨hfragment, hmax⟩
      · rw [hproved, hreason] at heq
        revert heq
        cases fitsPretokenLanguage bits <;> cases qcno <;> intro heq <;> cases heq
    refine ⟨fun x hx hpart => hno ⟨x, hx, hpart⟩, .of_ids h fun x hx ids hids hmem => ?_⟩
    exact hno (emitted_fragment h hb hx hids hmem hadded)

end Reasons

section Failures

variable {host : Host} {map : List UInt8} {v : BpVocab}

/-- Every verdict with one of the reasons is right: no well-formed text comes to the token. -/
def ReasonsSound (reasons : CensusReason → Prop) : Prop :=
  ∀ (host : Host) (map : List UInt8) (v : BpVocab), Opens host map v → v.ByteCoherent → ∀ c : BpCtx, c.Reached shipped v →
    ∀ (t : Nat) (deep : Bool) (r : CensusResult) (c' : BpCtx), v.HasId t →
      censusToken shipped v c t deep = .ok (r, c') → r.verdict = .impossible → reasons r.reason →
        NeverEmitted v t WellFormed

theorem not_neverEmitted (h : Opens host map v) {x : List UInt8} (hx : WellFormed x) {ids : List Nat}
    (hids : encodeIds shipped v x 0 = some ids) {t : Nat} (ht : t ∈ ids) : ¬NeverEmitted v t WellFormed := by
  intro hno
  obtain ⟨c, hc, hg⟩ := exists_context v
  obtain ⟨c', hrun⟩ := (encodes_iff h.valid h.matcher).2 hids c hc hg (List.replicate ids.length 0)
  have hnot := hno c hc x hx _ _ _ _ hrun
  rw [filled_replicate, List.take_length] at hnot
  exact hnot ht

/-- A verdict that a text belies. -/
theorem not_reasonsSound {reasons : CensusReason → Prop} (h : Opens host map v) (hb : v.ByteCoherent) {t : Nat}
    (ht : v.HasId t) {reason : CensusReason} (hreason : reasons reason)
    (hverdict : ∀ c : BpCtx, c.Reached shipped v → c.scratch.Granted → ∀ deep, ∃ c',
      censusToken shipped v c t deep = .ok (⟨.impossible, reason, [], 0⟩, c'))
    {x : List UInt8} (hx : WellFormed x) {ids : List Nat} (hids : encodeIds shipped v x 0 = some ids) (hmem : t ∈ ids) :
    ¬ReasonsSound reasons := by
  intro hall
  obtain ⟨c, hc, hg⟩ := exists_context v
  obtain ⟨c', hrun⟩ := hverdict c hc hg true
  exact not_neverEmitted h hx hids hmem (hall host map v h hb c hc t true _ _ ht hrun rfl hreason)

/-- The evaluated facts that make a token impossible for `reason`: its bytes come to it as a pretoken, are not the
bytes of a text, and the prover names the reason. -/
def Condemned (v : BpVocab) (t : Nat) (s : List UInt8) (reason : CensusReason) : Prop :=
  t < v.hdr.vocabCount ∧ v.isAdded t = false ∧ v.span t = s ∧ s.length ≤ WMAX ∧ utf8Valid s.length s = false ∧
    pretokenIds v s = some [t] ∧ proveImpossible shipped s = reason

instance (v : BpVocab) (t : Nat) (s : List UInt8) (reason : CensusReason) : Decidable (Condemned v t s reason) :=
  inferInstanceAs (Decidable (_ ∧ _))

theorem Condemned.verdict {t : Nat} {s : List UInt8} {reason : CensusReason} (hv : Condemned v t s reason)
    (h : Opens host map v) (hreason : reason ≠ .none) {c : BpCtx} (hc : c.Reached shipped v) (hg : c.scratch.Granted)
    (deep : Bool) : ∃ c', censusToken shipped v c t deep = .ok (⟨.impossible, reason, [], 0⟩, c') := by
  obtain ⟨hid, hadded, rfl, hlen, hbad, hsingle, hproved⟩ := hv
  apply censusToken_impossible h hc hg hid hadded hlen hsingle _ hproved hreason
  intro hwf
  rw [← utf8Valid_iff (Nat.le_refl _), hbad] at hwf
  cases hwf

/-- Tokens that end inside a character, an added token that begins inside one, and no normal form. -/
def cutInside : Convert.Sample where
  flags := 0
  tokens := [[0x21, 0x21], [0x21, 0x21, 0xC4], [0xEF, 0xA4], [0x80]]
  merges := [(0x21, 0x21, 0, 256), (256, 0xC4, 1, 257), (0xEF, 0xA4, 2, 258)]
  added := [(259, 0)]
  info := [0, 0, 0, 0]
  sourceHash := 0

theorem cutInside_opens : cutInside.Opens := Convert.Sample.opens (by decide +kernel)

example : cutInside.vocab.span 257 = [0x21, 0x21, 0xC4] := by decide +kernel

theorem cutInside_coherent : cutInside.vocab.ByteCoherent := by
  have hopens : Opens ⟨true, true, true⟩ cutInside.image cutInside.vocab := cutInside_opens
  apply byteCoherent_of_slots hopens.valid
  decide +kernel

theorem cutInside_facts : Condemned cutInside.vocab 257 [0x21, 0x21, 0xC4] .pretokenShape ∧
    Condemned cutInside.vocab 258 [0xEF, 0xA4] .nfcExcluded ∧
    encodeIds shipped cutInside.vocab [0x21, 0x21, 0xC4, 0x80] 0 = some [257, 259] ∧
    encodeIds shipped cutInside.vocab [0xEF, 0xA4, 0x81] 0 = some [258, 0x81] ∧
    cutInside.vocab.hdr.flags &&& BPV_FLAG_NFC = 0 := by decide +kernel

theorem cutInside_shape {c : BpCtx} (hc : c.Reached shipped cutInside.vocab) (hg : c.scratch.Granted) (deep : Bool) :
    ∃ c', censusToken shipped cutInside.vocab c 257 deep = .ok (⟨.impossible, .pretokenShape, [], 0⟩, c') :=
  cutInside_facts.1.verdict cutInside_opens nofun hc hg deep

/-- Two exclamation marks, a letter and U+0100 are cut inside the last character, away from the bytes of the token. -/
theorem cutInside_carried : cutInside.vocab.CarriedBy IsScalar [0x21, 0x21, 0x61, 0xC4, 0x80] [0x21, 0x21, 0xC4] := by
  obtain ⟨hcount, hgaps, htail, habsent⟩ : cutInside.vocab.hdr.addedCount ≠ 0 ∧
      (cut cutInside.vocab.findAdded cutInside.vocab.addedBytes [0x21, 0x21, 0x61, 0xC4, 0x80]).1.map Prod.fst =
        [[0x21, 0x21, 0x61, 0xC4]] ∧
      (cut cutInside.vocab.findAdded cutInside.vocab.addedBytes [0x21, 0x21, 0x61, 0xC4, 0x80]).2 = [] ∧
      ∀ seg ∈ [[], [0x21, 0x21, 0x61, 0xC4]],
        ∀ ps ∈ (splitRegex shipped).spans (units (cutInside.vocab.normal shipped seg)),
          ¬[0x21, 0x21, 0xC4] <:+: encodeUnits ps := by decide +kernel
  intro ps hps ms hms hcarries
  obtain ⟨seg, hseg, hps⟩ := hps.of_cut hcount hgaps htail
  exact absurd (hcarries.within.trans (encodeUnits_inside hms)) (habsent seg hseg ps hps)

theorem pretoken_language_sound_cutInside : ∃ c : BpCtx, c.Reached shipped cutInside.vocab ∧
    NeverEmitted cutInside.vocab 257 (· = [0x21, 0x21, 0x61, 0xC4, 0x80]) := by
  have hid : cutInside.vocab.HasId 257 := cutInside_facts.1.1
  have hspan : cutInside.vocab.span 257 = [0x21, 0x21, 0xC4] := cutInside_facts.1.2.2.1
  obtain ⟨c, hc, hg⟩ := exists_context cutInside.vocab
  obtain ⟨c', hrun⟩ := cutInside_shape hc hg true
  obtain ⟨hiff, -⟩ := pretoken_language_sound cutInside_opens cutInside_coherent hc hid hrun rfl (.inl rfl)
  exact ⟨c, hc, ((hiff _).2 (by rw [hspan]; exact cutInside_carried)).2⟩

/-- Two exclamation marks and U+0100, whose last byte is an added token: the text comes to a token that is called
impossible by its shape. -/
theorem not_pretoken_language_sound : Opens ⟨true, true, true⟩ cutInside.image cutInside.vocab ∧
    WellFormed [0x21, 0x21, 0xC4, 0x80] ∧ Encodes cutInside.vocab [0x21, 0x21, 0xC4, 0x80] 0 [257, 259] ∧
    (∀ c : BpCtx, c.Reached shipped cutInside.vocab → c.scratch.Granted → ∀ deep, ∃ c',
      censusToken shipped cutInside.vocab c 257 deep = .ok (⟨.impossible, .pretokenShape, [], 0⟩, c')) ∧
    ¬ReasonsSound fun reason => reason = .pretokenShape ∨ reason = .contraction := by
  have hopens : Opens ⟨true, true, true⟩ cutInside.image cutInside.vocab := cutInside_opens
  have hwf : WellFormed [0x21, 0x21, 0xC4, 0x80] := (utf8Valid_iff (Nat.le_refl _)).1 (by decide)
  obtain ⟨⟨hid, -⟩, -, hids, -⟩ := cutInside_facts
  refine ⟨hopens, hwf, (encodes_iff hopens.valid hopens.matcher).2 hids, fun c hc hg deep => cutInside_shape hc hg deep, ?_⟩
  apply not_reasonsSound hopens cutInside_coherent hid (.inl rfl) _ hwf hids List.mem_cons_self
  exact fun c hc hg deep => cutInside_shape hc hg deep

theorem cutInside_excluded {c : BpCtx} (hc : c.Reached shipped cutInside.vocab) (hg : c.scratch.Granted) (deep : Bool) :
    ∃ c', censusToken shipped cutInside.vocab c 258 deep = .ok (⟨.impossible, .nfcExcluded, [], 0⟩, c') :=
  cutInside_facts.2.1.verdict cutInside_opens nofun hc hg deep

/-- Without the normal form a text keeps U+F901, and comes to the token of its first two bytes. -/
theorem not_nfc_excluded_sound : Opens ⟨true, true, true⟩ cutInside.image cutInside.vocab ∧
    cutInside.vocab.hdr.flags &&& BPV_FLAG_NFC = 0 ∧ WellFormed [0xEF, 0xA4, 0x81] ∧
    Encodes cutInside.vocab [0xEF, 0xA4, 0x81] 0 [258, 0x81] ∧
    (∀ c : BpCtx, c.Reached shipped cutInside.vocab → c.scratch.Granted → ∀ deep, ∃ c',
      censusToken shipped cutInside.vocab c 258 deep = .ok (⟨.impossible, .nfcExcluded, [], 0⟩, c')) ∧
    ¬ReasonsSound fun reason => reason = .nfcExcluded := by
  have hopens : Opens ⟨true, true, true⟩ cutInside.image cutInside.vocab := cutInside_opens
  have hwf : WellFormed [0xEF, 0xA4, 0x81] := (utf8Valid_iff (Nat.le_refl _)).1 (by decide)
  obtain ⟨-, ⟨hid, -⟩, -, hids, hflags⟩ := cutInside_facts
  refine ⟨hopens, hflags, hwf, (encodes_iff hopens.valid hopens.matcher).2 hids,
    fun c hc hg deep => cutInside_excluded hc hg deep, ?_⟩
  have hverdict := fun c hc hg deep => cutInside_excluded (c := c) hc hg deep
  apply not_reasonsSound hopens cutInside_coherent hid _ hverdict hwf hids List.mem_cons_self
  rfl

/-- A token of 264 characters, and one of the first bytes of characters of quick-check No; with the normal form. -/
def manyUnits : Convert.Sample where
  flags := 1
  tokens := (List.range 8).map (fun i => (List.replicate (2 ^ i) [0x61, 0x31]).flatten) ++
    [(List.replicate 132 [0x61, 0x31]).flatten, [0xEF, 0xA4]]
  merges := [(0x61, 0x31, 0, 256), (256, 256, 1, 257), (257, 257, 2, 258), (258, 258, 3, 259), (259, 259, 4, 260),
    (260, 260, 5, 261), (261, 261, 6, 262), (262, 262, 7, 263), (263, 258, 8, 264), (0xEF, 0xA4, 9, 265)]
  added := []
  info := [0, 0, 0, 0]
  sourceHash := 0

theorem manyUnits_opens : manyUnits.Opens := Convert.Sample.opens (by decide +kernel)

example : manyUnits.vocab.span 265 = [0xEF, 0xA4] := by decide +kernel

theorem manyUnits_coherent : manyUnits.vocab.ByteCoherent := by
  have hopens : Opens ⟨true, true, true⟩ manyUnits.image manyUnits.vocab := manyUnits_opens
  apply byteCoherent_of_slots hopens.valid
  decide +kernel

/-- The rules of the ids that the long token is merged from. -/
def manyRule (a b : Nat) : Option (Nat × Nat) :=
  if a = 0x61 && b = 0x31 then some (0, 256)
  else if a = b && 256 ≤ a && a ≤ 262 then some (a - 255, a + 1)
  else if a = 263 && b = 258 then some (8, 264)
  else none

def manyIds : List Nat := [0x61, 0x31, 256, 257, 258, 259, 260, 261, 262, 263, 264]

/-- The bytes of the long token. -/
def manyBytes : List UInt8 := (List.replicate 132 [0x61, 0x31]).flatten

theorem manyUnits_facts : Condemned manyUnits.vocab 265 [0xEF, 0xA4] .nfcExcluded ∧ manyUnits.vocab.added = [] ∧
    manyUnits.vocab.hdr.flags &&& BPV_FLAG_NFC ≠ 0 ∧ 264 < manyUnits.vocab.hdr.vocabCount ∧
    manyUnits.vocab.isAdded 264 = false ∧ manyUnits.vocab.span 264 = manyBytes ∧ manyBytes.length = 264 ∧
    utf8Valid 264 manyBytes = true ∧ proveImpossible shipped manyBytes = .invalidUtf8 ∧
    ∀ ids ∈ encodeIds shipped manyUnits.vocab manyBytes 0, 264 ∉ ids := by decide +kernel

/-- What the long token is merged by. -/
theorem manyUnits_rules : manyBytes.map manyUnits.vocab.byteToken = (List.replicate 132 [0x61, 0x31]).flatten ∧
    (∀ a ∈ manyIds, ∀ b ∈ manyIds, routeRule manyUnits.vocab 264 a b = manyRule a b) ∧
    (∀ a ∈ manyIds, ∀ b ∈ manyIds, ∀ p ∈ manyRule a b, p.2 ∈ manyIds) ∧
    (∀ x ∈ (List.replicate 132 [0x61, 0x31]).flatten, x ∈ manyIds) ∧
    greedy manyRule (List.replicate 132 [0x61, 0x31]).flatten = [264] := by decide +kernel

theorem manyUnits_single : pretokenIds manyUnits.vocab manyBytes = some [264] := by
  have hopens : Opens ⟨true, true, true⟩ manyUnits.image manyUnits.vocab := manyUnits_opens
  have hlen : manyBytes.length = 264 := manyUnits_facts.2.2.2.2.2.2.1
  obtain ⟨hbytes, hrules, hclosed, hids, hgreedy⟩ := manyUnits_rules
  have hmap := greedy_map (f := id) (S := (· ∈ manyIds)) (fun a b r c ha hb h => hclosed a ha b hb (r, c) h)
    (fun a b ha hb => (hrules a ha b hb).trans (by cases manyRule a b <;> rfl)) hids
  rw [List.map_id, List.map_id, hgreedy] at hmap
  rw [pretokenIds_eq hopens.valid (by rw [hlen]; decide), hlen, hbytes, hmap]

theorem manyUnits_invalid {c : BpCtx} (hc : c.Reached shipped manyUnits.vocab) (hg : c.scratch.Granted) (deep : Bool) :
    ∃ c', censusToken shipped manyUnits.vocab c 264 deep = .ok (⟨.impossible, .invalidUtf8, [], 0⟩, c') := by
  have hopens : Opens ⟨true, true, true⟩ manyUnits.image manyUnits.vocab := manyUnits_opens
  obtain ⟨-, -, -, hid, hadded, hspan, hlen, -, hproved, hno⟩ := manyUnits_facts
  apply censusToken_impossible hopens hc hg hid hadded
  · rw [hspan, hlen]
    decide
  · rw [hspan]
    exact manyUnits_single
  · rw [hspan]
    exact fun _ ids hids => hno ids hids
  · rw [hspan]
    exact hproved
  · exact nofun

theorem manyUnits_excluded {c : BpCtx} (hc : c.Reached shipped manyUnits.vocab) (hg : c.scratch.Granted) (deep : Bool) :
    ∃ c', censusToken shipped manyUnits.vocab c 265 deep = .ok (⟨.impossible, .nfcExcluded, [], 0⟩, c') :=
  manyUnits_facts.1.verdict manyUnits_opens nofun hc hg deep

theorem nfc_excluded_sound_manyUnits : ∃ c : BpCtx, c.Reached shipped manyUnits.vocab ∧
    NeverEmitted manyUnits.vocab 265 WellFormed := by
  obtain ⟨⟨hid, -⟩, hnone, hflags, -⟩ := manyUnits_facts
  have hadded : manyUnits.vocab.AddedWellFormed := by
    intro a ha
    rw [hnone] at ha
    cases ha
  obtain ⟨c, hc, hg⟩ := exists_context manyUnits.vocab
  obtain ⟨c', hrun⟩ := manyUnits_excluded hc hg true
  obtain ⟨-, hsound⟩ := nfc_excluded_sound manyUnits_opens manyUnits_coherent hc hid hrun rfl rfl
  exact ⟨c, hc, (hsound hflags).2.2 hadded⟩

theorem invalid_utf8_iff_manyUnits : ∃ c : BpCtx, c.Reached shipped manyUnits.vocab ∧
    (((∀ x, WellFormed x → ¬manyUnits.vocab.span 264 <:+: x) ∧ NeverEmitted manyUnits.vocab 264 WellFormed) ↔
      ¬(Fragment (manyUnits.vocab.span 264) ∧ MAX_UNITS < charCount (manyUnits.vocab.span 264))) := by
  have hid : manyUnits.vocab.HasId 264 := manyUnits_facts.2.2.2.1
  obtain ⟨c, hc, hg⟩ := exists_context manyUnits.vocab
  obtain ⟨c', hrun⟩ := manyUnits_invalid hc hg true
  exact ⟨c, hc, invalid_utf8_iff manyUnits_opens manyUnits_coherent hc hid hrun rfl rfl⟩

/-- A text of 264 letters and digits is a token that is called invalid UTF-8. -/
theorem not_invalid_utf8 : Opens ⟨true, true, true⟩ manyUnits.image manyUnits.vocab ∧
    WellFormed (manyUnits.vocab.span 264) ∧ (manyUnits.vocab.span 264).length = 264 ∧
    (∀ c : BpCtx, c.Reached shipped manyUnits.vocab → c.scratch.Granted → ∀ deep, ∃ c',
      censusToken shipped manyUnits.vocab c 264 deep = .ok (⟨.impossible, .invalidUtf8, [], 0⟩, c')) ∧
    ¬∀ (host : Host) (map : List UInt8) (v : BpVocab), Opens host map v → v.ByteCoherent → ∀ c : BpCtx, c.Reached shipped v →
      ∀ (t : Nat) (deep : Bool) (r : CensusResult) (c' : BpCtx), v.HasId t →
        censusToken shipped v c t deep = .ok (r, c') → r.verdict = .impossible → r.reason = .invalidUtf8 →
          ∀ x, WellFormed x → ¬v.span t <:+: x := by
  have hopens : Opens ⟨true, true, true⟩ manyUnits.image manyUnits.vocab := manyUnits_opens
  obtain ⟨-, -, -, hid, -, hspan, hlen, hvalid, -, -⟩ := manyUnits_facts
  have hwf : WellFormed (manyUnits.vocab.span 264) := by
    rwa [hspan, ← utf8Valid_iff (Nat.le_refl _), hlen]
  refine ⟨hopens, hwf, ?_, fun c hc hg deep => manyUnits_invalid hc hg deep, fun hall => ?_⟩
  · rw [hspan, hlen]
  · obtain ⟨c, hc, hg⟩ := exists_context manyUnits.vocab
    obtain ⟨c', hrun⟩ := manyUnits_invalid hc hg true
    exact hall _ _ _ hopens manyUnits_coherent c hc 264 true _ c' hid hrun rfl rfl _ hwf List.infix_rfl

end Failures

end Bytepair
