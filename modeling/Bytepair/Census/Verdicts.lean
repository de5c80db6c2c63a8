import Bytepair.Census.Run

/-!
# The witnesses that are reported

When the witness of a verdict is one: `census_witness_iff`. A search keeps nothing that was not encoded, but the
bytes of an added token are reported as they are, and neither the loader nor the census encodes them.
-/

namespace Bytepair
open Support

section Added

variable {host : Host} {map : List UInt8} {v : BpVocab}

/-- No added token of lower id has the same bytes. -/
def BpVocab.FirstOfBytes (v : BpVocab) (t : Nat) : Prop := ∀ a ∈ v.added, v.addedBytes a = v.span t → t ≤ a.id

theorem segmentIds_nil : segmentIds shipped v [] = some [] := by
  have hnormal : v.normal shipped [] = [] := by
    unfold BpVocab.normal
    cases decide (v.hdr.flags &&& BPV_FLAG_NFC ≠ 0) <;> rfl
  rw [segmentIds_eq, hnormal]
  rfl

/-- The bytes of an added token come to one id: the lowest of the added tokens with these bytes. -/
theorem encodeIds_addedBytes (h : Opens host map v) {a : BpvAdded} (ha : a ∈ v.added) :
    ∃ b ∈ v.added, v.addedBytes b = v.addedBytes a ∧ v.FirstOfBytes b.id ∧
      encodeIds shipped v (v.addedBytes a) 0 = some [b.id] := by
  have hv := h.valid
  have hm := h.matcher
  have hcount : v.hdr.addedCount ≠ 0 := by
    rw [← hv.addedCount]
    exact Nat.ne_of_gt (List.length_pos_of_mem ha)
  cases hfind : v.findAdded (v.addedBytes a) with
  | none => exact absurd (List.prefix_refl _) (BpVocab.findAdded_none hm hfind a ha)
  | some b =>
    have hb := BpVocab.findAdded_some hv hm hfind
    have hbest := hb.best a ha (List.prefix_refl _)
    have hle := hb.here.length_le
    have hbytes : v.addedBytes b = v.addedBytes a := hb.here.eq_of_length (by omega)
    have hcut : cut v.findAdded v.addedBytes (v.addedBytes a) = ([([], b)], []) := by
      have hpos : ∀ t c, v.findAdded t = some c → v.addedBytes c ≠ [] := fun t c h =>
        hv.addedBytes_ne_nil (BpVocab.findAdded_some hv hm h).mem
      obtain ⟨x, rest, hcons⟩ := List.exists_cons_of_ne_nil (hv.addedBytes_ne_nil ha)
      rw [hcons] at hfind ⊢
      rw [cut, cutFrom_some hpos hfind, hbytes, ← hcons, List.drop_length]
      rfl
    refine ⟨b, hb.mem, hbytes, ?_, ?_⟩
    · intro c hc hspan
      have hspan : v.addedBytes c = v.addedBytes b := hspan
      have hbest := hb.best c hc (hspan.trans hbytes ▸ List.prefix_refl _)
      rw [hspan] at hbest
      omega
    · rw [encodeIds_zero hcount, hcut, piecesIds, piecesIds, segmentIds_nil]
      rfl

/-- When the bytes of an added token are a witness of it. -/
theorem added_witness_iff (h : Opens host map v) {t : Nat} (ht : v.isAdded t = true) :
    Witnesses v t (v.span t) ↔ WellFormed (v.span t) ∧ v.FirstOfBytes t := by
  obtain ⟨a, ha, rfl⟩ := isAdded_iff.1 ht
  obtain ⟨b, hb, hbytes, hfirst, hids⟩ := encodeIds_addedBytes h ha
  have hspan : v.span a.id = v.addedBytes a := rfl
  rw [hspan]
  constructor
  · rintro ⟨hwf, ids, henc, hmem⟩
    rw [encodes_iff h.valid h.matcher, hids] at henc
    cases henc
    rw [List.mem_singleton.1 hmem]
    exact ⟨hwf, hfirst⟩
  · rintro ⟨hwf, hlow⟩
    refine ⟨hwf, [b.id], (encodes_iff h.valid h.matcher).2 hids, ?_⟩
    have hle : a.id ≤ b.id := hlow b hb hbytes
    have hge : b.id ≤ a.id := hfirst a ha hbytes.symm
    exact List.mem_singleton.2 (Nat.le_antisymm hle hge)

end Added

section Verdicts

variable {host : Host} {map : List UInt8} {v : BpVocab}

/-- The verdicts that are reported with a witness. -/
def CensusVerdict.Witnessed (verdict : CensusVerdict) : Prop :=
  verdict = .added ∨ verdict = .self ∨ verdict = .context

theorem Judged.witness_iff (h : Opens host map v) {g : Prop} {t : Nat} {r : CensusResult} (hr : Judged v g t r) :
    (r.verdict.Witnessed → Witnesses v t r.witness) ↔
      (v.isAdded t = true → WellFormed (v.span t) ∧ v.FirstOfBytes t) := by
  cases hr with
  | added hadded =>
    rw [← added_witness_iff h hadded]
    exact ⟨fun hall _ => hall (.inl rfl), fun hall _ => hall hadded⟩
  | found hadded _ hw _ =>
    exact iff_of_true (fun _ => hw.witnesses h) fun ht => absurd (hadded.symm.trans ht) Bool.false_ne_true
  | _ hadded =>
    refine iff_of_true ?_ fun ht => absurd (hadded.symm.trans ht) Bool.false_ne_true
    rintro (h | h | h) <;> cases h

/-- **When the reported witnesses are witnesses.** On every handle and at either depth a token gets a verdict, and
the witness of a verdict `added`, `self` or `context` is well formed and comes to the token exactly if the token
is no added token, or its bytes are well formed and no added token of lower id has them. No run of the
census finds a witness that fails. -/
theorem census_witness_iff (h : Opens host map v) {c : BpCtx} (hc : c.Reached shipped v) (deep : Bool) :
    (∀ t, v.HasId t → ∃ r c', censusToken shipped v c t deep = .ok (r, c') ∧
      ((r.verdict.Witnessed → Witnesses v t r.witness) ↔
        (v.isAdded t = true → WellFormed (v.span t) ∧ v.FirstOfBytes t))) ∧
    (c.scratch.Granted → ∀ limit, ∃ found c', bpCensusRun shipped v c deep limit = .ok ((found, 0), c') ∧
      found.failed = 0) := by
  have hready : Ready v c.scratch.Granted c := ⟨h.coherent hc, fun hg => hg⟩
  constructor
  · intro t ht
    obtain ⟨r, c', hrun, -, hjudged⟩ := censusToken_spec h hready ht deep
    exact ⟨r, c', hrun, hjudged.witness_iff h⟩
  · intro hg limit
    obtain ⟨found, status, c', hrun, -, hfound, hstatus⟩ := bpCensusRun_spec h hready deep limit
    rw [hstatus hg] at hrun
    exact ⟨found, c', hrun, hfound.failed hg⟩

theorem census_witness_iff_toy : ∃ c : BpCtx, c.Reached shipped Convert.toy.vocab ∧
    (∃ found c', bpCensusRun shipped Convert.toy.vocab c true 0 = .ok ((found, 0), c') ∧ found.failed = 0) ∧
    ∃ r c', censusToken shipped Convert.toy.vocab c 258 true = .ok (r, c') ∧
      ((r.verdict.Witnessed → Witnesses Convert.toy.vocab 258 r.witness) ↔
        (Convert.toy.vocab.isAdded 258 = true →
          WellFormed (Convert.toy.vocab.span 258) ∧ Convert.toy.vocab.FirstOfBytes 258)) := by
  have ht : Convert.toy.vocab.HasId 258 := by
    unfold BpVocab.HasId
    decide +kernel
  obtain ⟨c, hc, -, hgranted⟩ := toy_context
  obtain ⟨htoken, hrun⟩ := census_witness_iff Convert.toy_opens hc true
  exact ⟨c, hc, hrun hgranted 0, htoken 258 ht⟩

/-- Two added tokens: one cut inside a character, and one whose bytes another has. -/
def badAdded : Convert.Sample where
  flags := 0
  tokens := [[0xE4, 0xB8], [0x3C, 0x78, 0x3E], [0x3C, 0x78, 0x3E]]
  merges := []
  added := [(256, 0), (257, 0), (258, 0)]
  info := [0, 0, 0, 0]
  sourceHash := 0

theorem badAdded_opens : badAdded.Opens := Convert.Sample.opens (by decide +kernel)

example : badAdded.vocab.span 256 = [0xE4, 0xB8] := by decide +kernel

/-- The loader takes added tokens whose bytes are no witness of them, and the census reports them. -/
theorem not_census_witness : Opens ⟨true, true, true⟩ badAdded.image badAdded.vocab ∧
    (∀ c : BpCtx, c.Reached shipped badAdded.vocab → ∀ deep,
      censusToken shipped badAdded.vocab c 256 deep = .ok (⟨.added, .none, [0xE4, 0xB8], 0⟩, c) ∧
      censusToken shipped badAdded.vocab c 258 deep = .ok (⟨.added, .none, [0x3C, 0x78, 0x3E], 0⟩, c)) ∧
    ¬WellFormed [0xE4, 0xB8] ∧ Encodes badAdded.vocab [0x3C, 0x78, 0x3E] 0 [257] ∧
    ¬∀ (host : Host) (map : List UInt8) (v : BpVocab), Opens host map v → ∀ c : BpCtx, c.Reached shipped v →
      ∀ (t : Nat) (deep : Bool) (r : CensusResult) (c' : BpCtx), v.HasId t →
        censusToken shipped v c t deep = .ok (r, c') → r.verdict.Witnessed → Witnesses v t r.witness := by
  have hopens : Opens ⟨true, true, true⟩ badAdded.image badAdded.vocab := badAdded_opens
  have hcount : badAdded.vocab.hdr.vocabCount = 259 := by decide +kernel
  have hcut : badAdded.vocab.span 256 = [0xE4, 0xB8] := by decide +kernel
  have htwice : badAdded.vocab.span 258 = [0x3C, 0x78, 0x3E] := by decide +kernel
  have hadded : badAdded.vocab.isAdded 256 = true ∧ badAdded.vocab.isAdded 258 = true := by decide +kernel
  have hbad : ¬WellFormed [0xE4, 0xB8] := by
    rw [← utf8Valid_iff (Nat.le_refl _)]
    decide
  have hids : encodeIds shipped badAdded.vocab [0x3C, 0x78, 0x3E] 0 = some [257] := by decide +kernel
  have hrun : ∀ c : BpCtx, c.Reached shipped badAdded.vocab → ∀ deep,
      censusToken shipped badAdded.vocab c 256 deep = .ok (⟨.added, .none, [0xE4, 0xB8], 0⟩, c) ∧
      censusToken shipped badAdded.vocab c 258 deep = .ok (⟨.added, .none, [0x3C, 0x78, 0x3E], 0⟩, c) := by
    intro c _ deep
    rw [← hcut, ← htwice]
    constructor
    · exact censusToken_added hopens.valid hadded.1 c deep
    · exact censusToken_added hopens.valid hadded.2 c deep
  refine ⟨hopens, hrun, hbad, (encodes_iff hopens.valid hopens.matcher).2 hids, fun hall => ?_⟩
  obtain ⟨c, hc, -⟩ := exists_context badAdded.vocab
  have hwitness := hall _ _ _ hopens c hc 256 true _ _ (by rw [BpVocab.HasId, hcount]; decide)
    (hrun c hc true).1 (.inl rfl)
  exact hbad hwitness.1

end Verdicts

end Bytepair
