import Bytepair.Census.Boundary
import Bytepair.Census.Carried
import Bytepair.Nfc.Normal

/-!
# Segments of well-formed texts

A text is encoded segment by segment, and a segment is what lies between two added tokens. Where the added tokens are
well formed the segments of a well-formed text are; where one of them is not, a segment can still only be a
fragment, and so can its normal form (`Fragment.normal`). `emitted_inside` says where the bytes
of a token are that a text comes to.
-/

namespace Bytepair
open Support Support.Canonical

variable {host : Host} {map : List UInt8} {v : BpVocab}

section Cuts

/-- Every segment of the text is well formed. -/
def BpVocab.CutsWell (v : BpVocab) (x : List UInt8) : Prop := ∀ seg, v.IsSegment x 0 seg → WellFormed seg

/-- The bytes of every added token are well formed. -/
def BpVocab.AddedWellFormed (v : BpVocab) : Prop := ∀ a ∈ v.added, WellFormed (v.addedBytes a)

/-- Well-formed bytes in a well-formed text are between well-formed bytes. -/
theorem WellFormed.cut {a b c : List UInt8} (h : WellFormed (a ++ (b ++ c))) (hb : WellFormed b) (hne : b ≠ []) :
    WellFormed a ∧ WellFormed c := by
  obtain ⟨vs, ws, hcut, rfl, hws⟩ := encodeUnits_split h (encodeUnits_units _) (hb.head hne c)
  have hall : ∀ u ∈ vs ++ ws, IsScalar u := by
    rw [← hcut]
    exact h
  obtain ⟨hvs, hws'⟩ := List.forall_mem_append.1 hall
  refine ⟨wellFormed_encodeUnits hvs, ?_⟩
  have hunits := congrArg units hws
  rw [units_encodeUnits hws', ← encodeUnits_units b, units_encodeUnits_append hb] at hunits
  rw [hunits] at hws'
  exact (List.forall_mem_append.1 hws').2

theorem wellFormed_pieces {τ : Type} {bytes : τ → List UInt8} {key : τ → Nat} {tokens : List τ}
    (hbytes : ∀ a ∈ tokens, WellFormed (bytes a) ∧ bytes a ≠ []) {t tail : List UInt8} {ps : List (List UInt8 × τ)}
    (h : LeftmostLongest bytes key tokens t ps tail) (ht : WellFormed t) :
    (∀ p ∈ ps, WellFormed p.1) ∧ WellFormed tail := by
  induction h with
  | rest clear => exact ⟨List.forall_mem_nil _, ht⟩
  | cut clear preferred more ih =>
    obtain ⟨ha, hne⟩ := hbytes _ preferred.mem
    obtain ⟨hgap, hrest⟩ := ht.cut ha hne
    obtain ⟨hps, htail⟩ := ih hrest
    exact ⟨List.forall_mem_cons.2 ⟨hgap, hps⟩, htail⟩

/-- **Well-formed added tokens** leave well-formed segments. -/
theorem BpVocab.AddedWellFormed.cutsWell (hv : v.Valid) (hm : v.MatcherOk) (h : v.AddedWellFormed) {x : List UInt8}
    (hx : WellFormed x) : v.CutsWell x := by
  have hbytes : ∀ a ∈ v.added, WellFormed (v.addedBytes a) ∧ v.addedBytes a ≠ [] :=
    fun a ha => ⟨h a ha, hv.addedBytes_ne_nil ha⟩
  have hcut := wellFormed_pieces hbytes (cut_pieces hv hm x) hx
  intro seg hseg
  unfold BpVocab.IsSegment at hseg
  split at hseg
  · rwa [hseg]
  · rcases hseg with rfl | ⟨p, hp, rfl⟩
    · exact hcut.2
    · exact hcut.1 p hp

end Cuts

section Normal

theorem normal_wellFormed {seg : List UInt8} (h : WellFormed seg) : WellFormed (v.normal shipped seg) := by
  unfold BpVocab.normal
  cases decide (v.hdr.flags &&& BPV_FLAG_NFC ≠ 0) with
  | false => exact h
  | true =>
    unfold WellFormed
    rw [shipped_coherent.units_nfcText]
    exact shipped_coherent.normalize_scalar h

/-- No unit of a normal form is of quick-check No. -/
theorem normal_qc (hnfc : v.hdr.flags &&& BPV_FLAG_NFC ≠ 0) (seg : List UInt8) :
    ∀ u ∈ units (v.normal shipped seg), shipped.bpNfcQc u ≠ 0 := by
  unfold BpVocab.normal
  rw [decide_eq_true hnfc]
  exact shipped_coherent.nfcText_qc seg

/-- Bytes that are not read as characters, as they are tagged. -/
def tags (p : List UInt8) : List Nat := p.map fun b => tagBase + b.toNat

theorem encodeUnits_tags (p : List UInt8) : encodeUnits (tags p) = p := by
  induction p with
  | nil => rfl
  | cons b p ih =>
    show encodeUnits ((tagBase + b.toNat) :: tags p) = b :: p
    rw [encodeUnits_cons, encodeUnit_tagged, ih]
    rfl

theorem normalize_tags_append (p : List UInt8) (us : List Nat) :
    (alphabet shipped).normalize (tags p ++ us) = tags p ++ (alphabet shipped).normalize us := by
  induction p with
  | nil => rfl
  | cons b p ih =>
    have hinert : Alphabet.Inert (alphabet shipped) (tagBase + b.toNat) := inert_tagged (Nat.le_add_right _ _)
    have hcut := Alphabet.normalize_append_inert hinert [] (tags p ++ us)
    rw [ih] at hcut
    exact hcut

theorem normalize_append_tags (us : List Nat) (p : List UInt8) :
    (alphabet shipped).normalize (us ++ tags p) = (alphabet shipped).normalize us ++ tags p := by
  cases p with
  | nil => simp [tags]
  | cons b p =>
    have hinert : Alphabet.Inert (alphabet shipped) (tagBase + b.toNat) := inert_tagged (Nat.le_add_right _ _)
    have htags := normalize_tags_append p []
    have hnil : (alphabet shipped).normalize [] = [] := rfl
    rw [hnil, List.append_nil] at htags
    have hcut := Alphabet.normalize_append_inert hinert us (tags p)
    rw [htags] at hcut
    exact hcut

/-- Bytes that only continue a character are tagged. -/
theorem units_conts_append {p : List UInt8} (hp : ∀ b ∈ p, notCont b = false) (t : List UInt8) :
    units (p ++ t) = tags p ++ units t := by
  induction p with
  | nil => rfl
  | cons b p ih =>
    obtain ⟨hb, hp⟩ := List.forall_mem_cons.1 hp
    have hnext : bpUtf8Next b (p ++ t) = (malformed, 1) := by
      rcases bpUtf8Next_cases b (p ++ t) with ⟨u, more, hu, hcat, -⟩ | ⟨-, hnext⟩
      · obtain ⟨b₀, conts, henc, hb₀, -⟩ := encodeUnit_shape hu.lt
        rw [henc, List.cons_append] at hcat
        rw [(List.cons.inj hcat).1, hb₀] at hb
        cases hb
      · exact hnext
    rw [List.cons_append, units_cons_malformed hnext, ih hp]
    rfl

/-- The first bytes of a character are tagged where the others are missing. -/
theorem units_cutoff {u : Nat} (hu : IsScalar u) {q c : List UInt8} (h : encodeUnit u = q ++ c) (hc : c ≠ []) :
    units q = tags q := by
  cases q with
  | nil => rfl
  | cons b rest =>
    obtain ⟨b₀, conts, henc, -, hconts⟩ := encodeUnit_shape hu.lt
    have hrest : ∀ d ∈ rest, notCont d = false := by
      intro d hd
      rw [henc, List.cons_append] at h
      exact hconts d (by rw [(List.cons.inj h).2]; simp [hd])
    have hnext : bpUtf8Next b rest = (malformed, 1) := by
      rcases bpUtf8Next_cases b rest with ⟨w, more, hw, hcat, -⟩ | ⟨-, hnext⟩
      · -- the byte says how many bytes there are
        obtain ⟨d, ds, henc'⟩ := List.exists_cons_of_ne_nil (encodeUnit_ne_nil w)
        have hd : d = b := by
          rw [henc', List.cons_append] at hcat
          exact (List.cons.inj hcat).1.symm
        have hlen := congrArg List.length hcat
        have hlen' := congrArg List.length h
        rw [List.length_append] at hlen hlen'
        have hlead := utf8LenFromLead_encodeUnit hw henc'
        rw [hd, utf8LenFromLead_encodeUnit hu h] at hlead
        have hpos := List.length_pos_iff.2 hc
        omega
      · exact hnext
    have hconts := units_conts_append hrest []
    rw [List.append_nil, units_nil, List.append_nil] at hconts
    rw [units_cons_malformed hnext, hconts]
    rfl

/-- **The normal form of a fragment** is one: the bytes that are no characters stay where they are. -/
theorem Fragment.nfcText {s : List UInt8} (hs : Fragment s) : Fragment (nfcText shipped true s) := by
  rw [shipped_coherent.nfcText_eq]
  rcases fragment_parts hs with hconts | ⟨p, ms, q, rfl, hp, hms, ⟨u, a, hu, hua⟩, w, c, hw, hwc, hc⟩
  · have hunits := units_conts_append hconts []
    have hnormal := normalize_tags_append s []
    have hnil : (alphabet shipped).normalize [] = [] := rfl
    rw [List.append_nil, units_nil] at hunits
    rw [hunits, hnormal, hnil, List.append_nil, encodeUnits_tags]
    exact hs
  · rw [units_conts_append hp, units_encodeUnits_append hms, units_cutoff hw hwc hc, normalize_tags_append,
      normalize_append_tags, encodeUnits_append, encodeUnits_append, encodeUnits_tags, encodeUnits_tags]
    apply fragment_iff.2
    have hnormal := shipped_coherent.normalize_scalar hms
    generalize (alphabet shipped).normalize ms = ns at hnormal
    refine ⟨u :: (ns ++ [w]), ?_, a, c, ?_⟩
    · apply List.forall_mem_cons.2 ⟨hu, _⟩
      exact List.forall_mem_append.2 ⟨hnormal, List.forall_mem_singleton.2 hw⟩
    · have hlast : encodeUnits [w] = encodeUnit w := List.append_nil _
      rw [encodeUnits_cons, encodeUnits_append, hlast, hua, hwc]
      simp only [List.append_assoc]

theorem Fragment.normal {seg : List UInt8} (h : Fragment seg) : Fragment (v.normal shipped seg) := by
  unfold BpVocab.normal
  cases decide (v.hdr.flags &&& BPV_FLAG_NFC ≠ 0) with
  | false => exact h
  | true => exact h.nfcText

end Normal

section Pretokens

variable {x : List UInt8} {ps : List Nat}

/-- A pretoken is what the split takes at some place of a normal form. -/
theorem BpVocab.IsPretoken.taken (h : v.IsPretoken shipped x 0 ps) :
    ∃ seg ws, v.IsSegment x 0 seg ∧ ws <:+ units (v.normal shipped seg) ∧ ws ≠ [] ∧ ps = ws.take (splitUnits shipped ws) := by
  obtain ⟨seg, hseg, hps⟩ := h
  obtain ⟨ws, hws, hne, hcut⟩ := splitRegex_spans_mem shipped_worded.toSplits hps
  exact ⟨seg, ws, hseg, hws, hne, hcut⟩

theorem BpVocab.IsPretoken.units (h : v.IsPretoken shipped x 0 ps) :
    ∃ seg, v.IsSegment x 0 seg ∧ ps <:+: Bytepair.units (v.normal shipped seg) := by
  obtain ⟨seg, ws, hseg, hws, -, rfl⟩ := h.taken
  exact ⟨seg, hseg, (List.take_prefix _ ws).isInfix.trans hws.isInfix⟩

/-- The pretokens of a text, by the segments it is cut into. -/
theorem BpVocab.IsPretoken.of_cut (h : v.IsPretoken shipped x 0 ps) (hcount : v.hdr.addedCount ≠ 0) {gaps : List (List UInt8)}
    {tail : List UInt8} (hgaps : (cut v.findAdded v.addedBytes x).1.map Prod.fst = gaps)
    (htail : (cut v.findAdded v.addedBytes x).2 = tail) :
    ∃ seg ∈ tail :: gaps, ps ∈ (splitRegex shipped).spans (Bytepair.units (v.normal shipped seg)) := by
  obtain ⟨seg, hseg, hps⟩ := h
  refine ⟨seg, ?_, hps⟩
  unfold BpVocab.IsSegment at hseg
  rw [if_neg (not_or.2 ⟨by simp, hcount⟩), htail] at hseg
  rcases hseg with rfl | ⟨p, hp, rfl⟩
  · exact List.mem_cons_self
  · rw [← hgaps]
    exact List.mem_cons_of_mem _ (List.mem_map_of_mem hp)

/-- The pretokens of a well-formed text are of characters where the added tokens are well formed. -/
theorem BpVocab.AddedWellFormed.pretoken (hv : v.Valid) (hm : v.MatcherOk) (h : v.AddedWellFormed) (hx : WellFormed x)
    (hps : v.IsPretoken shipped x 0 ps) : ∀ u ∈ ps, IsScalar u := by
  obtain ⟨seg, hseg, hunits⟩ := hps.units
  have hscalar := normal_wellFormed (v := v) (h.cutsWell hv hm hx seg hseg)
  exact fun u hu => hscalar u (hunits.subset hu)

/-- With the normal form no unit of a pretoken is of quick-check No. -/
theorem BpVocab.IsPretoken.qc (h : v.IsPretoken shipped x 0 ps) (hnfc : v.hdr.flags &&& BPV_FLAG_NFC ≠ 0) :
    ∀ u ∈ ps, shipped.bpNfcQc u ≠ 0 := by
  obtain ⟨seg, -, hunits⟩ := h.units
  exact fun u hu => normal_qc hnfc seg u (hunits.subset hu)

/-- Wherever the bytes are in a pretoken of the text, the units that have one of them are of the kind. -/
def BpVocab.CarriedBy (v : BpVocab) (P : Nat → Prop) (x s : List UInt8) : Prop :=
  ∀ ps, v.IsPretoken shipped x 0 ps → ∀ ms, ms <:+: ps → Carries ms s → ∀ u ∈ ms, P u

/-- Whole characters are carried by characters, whatever the text. -/
theorem carriedBy_wellFormed {s : List UInt8} (hs : WellFormed s) (hne : s ≠ []) (x : List UInt8) :
    v.CarriedBy IsScalar x s := by
  intro ps hps ms hms hcarries
  obtain ⟨seg, -, hunits⟩ := hps.units
  exact carries_scalar hs hne (hms.trans hunits) hcarries

end Pretokens

section Emitted

/-- **Where the bytes of a token are**: inside a pretoken. -/
theorem emitted_inside (h : Opens host map v) (hb : v.ByteCoherent) {x : List UInt8} {ids : List Nat}
    (hids : encodeIds shipped v x 0 = some ids) {t : Nat} (ht : t ∈ ids) (hadded : v.isAdded t = false) :
    ∃ ps, v.IsPretoken shipped x 0 ps ∧ v.span t <:+: encodeUnits ps := by
  have hv := h.valid
  obtain ⟨ps, xs, hps, hxs, htx⟩ := encodeIds_origin hv h.matcher hids ht hadded
  obtain ⟨us, vs, rfl⟩ := List.append_of_mem htx
  obtain ⟨-, rest, hlinked, -⟩ := pretokenIds_origin hv hb hxs
  have hinside : v.span t <:+: linked (encodeUnits ps) := ⟨us.flatMap v.span, rest, by rw [hlinked, List.append_assoc]⟩
  exact ⟨ps, hps, hinside.trans (List.take_prefix _ _).isInfix⟩

/-- Whatever the added tokens, a well-formed text comes to no token whose bytes are no fragment of one. -/
theorem emitted_fragment (h : Opens host map v) (hb : v.ByteCoherent) {x : List UInt8} (hx : WellFormed x) {ids : List Nat}
    (hids : encodeIds shipped v x 0 = some ids) {t : Nat} (ht : t ∈ ids) (hadded : v.isAdded t = false) :
    Fragment (v.span t) := by
  obtain ⟨ps, hps, hinside⟩ := emitted_inside h hb hids ht hadded
  obtain ⟨seg, hseg, hunits⟩ := hps.units
  have hseg : Fragment seg := ⟨x, hx, hseg.part h.valid h.matcher⟩
  apply (hseg.normal (v := v)).mono
  rw [← encodeUnits_units (v.normal shipped seg)]
  exact hinside.trans (encodeUnits_inside hunits)

end Emitted

end Bytepair
