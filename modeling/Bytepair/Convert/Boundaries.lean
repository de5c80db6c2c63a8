import Bytepair.Census.Segments
import Bytepair.Convert.Roundtrip

/-!
# Character boundaries

The texts that `bp_encode` hands on while it works: the segments it calls `encode_segment` on, what `bp_nfc` makes of
them and the spans that `bp_scan_gpt4` emits. `convert_boundaries`: over a converted image all of them are cut
out of well-formed text at the boundaries of characters.
-/

namespace Bytepair
open Support

section Calls

variable (T : Tables) {σ : Type} (emit : σ → List UInt8 → Run (Except Err Unit × σ)) (simd : Bool)

/-- `bp_scan_gpt4` emits a span of the text. -/
inductive EmitsSpan (s : σ) (t : List UInt8) : List UInt8 → Prop where
  | span {b : UInt8} {rest : List UInt8} {s' : σ} {n : Nat} : Visits (scanRound T emit simd) (t, s) (b :: rest, s') →
      spanLength T simd b rest = .ok n → EmitsSpan s t ((b :: rest).take n)

/-- The text is not searched for added tokens. -/
def Unsearched (c : BpCtx) (flags : Nat) : Prop := flags &&& BP_RAW ≠ 0 ∨ c.v.hdr.addedCount = 0

/-- `bp_encode` calls `encode_segment` on a segment, with the context it has come to. -/
inductive CallsSegment (c : BpCtx) (t : List UInt8) (s : BpSink) (flags : Nat) : BpCtx → List UInt8 → Prop where
  | whole : Unsearched c flags → CallsSegment c t s flags c t
  | gap {e : Encoding} {k : Nat} {a : BpvAdded} : ¬Unsearched c flags →
      Visits (encodeRound T simd) ⟨c, s, [], t⟩ e → nextCandidate e.c.v e.rest = .ok (some k) →
      matchAdded e.c.v (e.rest.drop k) = .ok (some a) → CallsSegment c t s flags e.c (e.seg ++ e.rest.take k)
  | tail {e : Encoding} {seg : List UInt8} {c' : BpCtx} {s' : BpSink} : ¬Unsearched c flags →
      Visits (encodeRound T simd) ⟨c, s, [], t⟩ e → encodeRound T simd e = .ok (.done (.ok seg, (c', s'))) →
      CallsSegment c t s flags c' seg

end Calls

/-- A part of a text that begins and ends at boundaries of characters, with only characters in it. -/
def AtBoundaries (t p : List UInt8) : Prop :=
  ∃ front back, t = front ++ p ++ back ∧ WellFormed front ∧ WellFormed p ∧ WellFormed back

section Spans

variable {T : Tables} {σ : Type} {emit : σ → List UInt8 → Run (Except Err Unit × σ)} {simd : Bool}

theorem wellFormed_append {s t : List UInt8} (hs : WellFormed s) (ht : WellFormed t) : WellFormed (s ++ t) := by
  rw [← encodeUnits_units s, ← encodeUnits_units t, ← encodeUnits_append]
  exact wellFormed_encodeUnits (List.forall_mem_append.2 ⟨hs, ht⟩)

/-- The first units of a text end at a boundary. -/
theorem wellFormed_take_drop {t : List UInt8} (ht : WellFormed t) (k : Nat) :
    WellFormed (t.take (unitBytes ((units t).take k))) ∧ WellFormed (t.drop (unitBytes ((units t).take k))) := by
  obtain ⟨hdrop, htake⟩ := units_drop t k
  constructor
  · rw [htake]
    exact wellFormed_encodeUnits fun u hu => ht u (List.mem_of_mem_take hu)
  · intro u hu
    rw [hdrop] at hu
    exact ht u (List.mem_of_mem_drop hu)

/-- What is scanned is a front that is done with, and the rest. -/
def ScannedTo (t : List UInt8) (st : List UInt8 × σ) : Prop :=
  ∃ front, t = front ++ st.1 ∧ WellFormed front ∧ WellFormed st.1

theorem ScannedTo.next (hT : T.Scannable) {t : List UInt8} {st st' : List UInt8 × σ} (h : ScannedTo t st)
    (hround : scanRound T emit simd st = .ok (.next st')) : ScannedTo t st' := by
  obtain ⟨p, s⟩ := st
  obtain ⟨front, rfl, hfront, hp⟩ := h
  cases p with
  | nil => cases hround
  | cons b rest =>
    rw [scanRound, spanLength_eq hT, Run.ok_bind] at hround
    obtain ⟨⟨r, s₁⟩, -, hround⟩ := bind_eq_ok.1 hround
    cases r with
    | error e => cases hround
    | ok _ =>
      cases hround
      obtain ⟨htake, hdrop⟩ := wellFormed_take_drop hp (splitUnits T (units (b :: rest)))
      refine ⟨_, ?_, wellFormed_append hfront htake, hdrop⟩
      rw [List.append_assoc, List.take_append_drop]

/-- **The spans** of well-formed text begin and end at boundaries. -/
theorem EmitsSpan.atBoundaries (hT : T.Scannable) {t : List UInt8} (ht : WellFormed t) {s : σ} {p : List UInt8}
    (h : EmitsSpan T emit simd s t p) : AtBoundaries t p := by
  obtain ⟨hvisits, hlength⟩ := h
  have hstart : ScannedTo t (t, s) := ⟨[], rfl, List.forall_mem_nil _, ht⟩
  obtain ⟨front, hcut, hfront, hp⟩ := hvisits.keeps (ScannedTo t) (fun _ _ => ScannedTo.next hT) hstart
  rw [spanLength_eq hT] at hlength
  cases hlength
  obtain ⟨htake, hdrop⟩ := wellFormed_take_drop hp (splitUnits T (units (_ :: _)))
  refine ⟨front, _, ?_, hfront, htake, hdrop⟩
  rw [List.append_assoc, List.take_append_drop]
  exact hcut

end Spans

section Segments

variable {host : Host} {map : List UInt8} {v : BpVocab} {simd : Bool} {x : List UInt8} {out : List Nat}

/-- The encoder's loop at a state: behind what is done with, from the last match on, all is well-formed. -/
structure CutTo (v : BpVocab) (x : List UInt8) (out : List Nat) (e : Encoding) : Prop where
  coherent : e.c.Coherent v
  sink : ∃ es, e.s = BpSink.holding out es
  cut : ∃ front, x = front ++ (e.seg ++ e.rest) ∧ WellFormed front ∧ WellFormed (e.seg ++ e.rest)

/-- Behind a match the text is cut at boundaries. -/
theorem CutTo.match (hv : v.Valid) (hm : v.MatcherOk) (hadded : v.AddedWellFormed) {e : Encoding} (h : CutTo v x out e)
    {k : Nat} {a : BpvAdded} (hmatch : matchAdded e.c.v (e.rest.drop k) = .ok (some a)) :
    ∃ front, x = front ++ (e.seg ++ e.rest.take k) ++ (v.addedBytes a ++ (e.rest.drop k).drop a.len) ∧
      WellFormed front ∧ WellFormed (e.seg ++ e.rest.take k) ∧ WellFormed (v.addedBytes a) ∧
      WellFormed ((e.rest.drop k).drop a.len) := by
  obtain ⟨front, hcut, hfront, hrest⟩ := h.cut
  rw [h.coherent.handle, matchAdded_eq hv hm] at hmatch
  have hfound := BpVocab.findAdded_some hv hm (Except.ok.inj hmatch)
  obtain ⟨-, -, hlen, -⟩ := hv.record_bytes hfound.mem
  obtain ⟨back, hback⟩ := hfound.here
  have hdrop : (e.rest.drop k).drop a.len = back := by
    rw [← hback, ← hlen, List.drop_left]
  have hparts : e.seg ++ e.rest = e.seg ++ e.rest.take k ++ (v.addedBytes a ++ back) := by
    rw [hback, List.append_assoc, List.take_append_drop]
  have hbytes := hadded a hfound.mem
  rw [hparts] at hcut hrest
  obtain ⟨hseg, hbehind⟩ := hrest.cut hbytes (hv.addedBytes_ne_nil hfound.mem)
  rw [hdrop]
  refine ⟨front, ?_, hfront, hseg, hbytes, hbehind⟩
  simpa only [List.append_assoc] using hcut

theorem CutTo.next (hv : v.Valid) (hm : v.MatcherOk) (hadded : v.AddedWellFormed) {e e' : Encoding}
    (h : CutTo v x out e) (hround : encodeRound shipped simd e = .ok (.next e')) : CutTo v x out e' := by
  unfold encodeRound at hround
  split at hround
  · cases hround
  · obtain ⟨r, -, hround⟩ := bind_eq_ok.1 hround
    cases r with
    | none => cases hround
    | some k =>
      obtain ⟨found, hmatch, hround⟩ := bind_eq_ok.1 hround
      cases found with
      | none =>
        cases hround
        obtain ⟨front, hcut, hfront, hrest⟩ := h.cut
        have hsame : e.seg ++ e.rest.take k ++ (e.rest.drop k).take 1 ++ (e.rest.drop k).drop 1 = e.seg ++ e.rest := by
          rw [List.append_assoc, List.take_append_drop, List.append_assoc, List.take_append_drop]
        refine ⟨h.coherent, h.sink, front, ?_, hfront, ?_⟩
        · rw [hsame]
          exact hcut
        · rw [hsame]
          exact hrest
      | some a =>
        obtain ⟨front, hcut, hfront, hseg, hbytes, hbehind⟩ := h.match hv hm hadded hmatch
        obtain ⟨es, hsink⟩ := h.sink
        have hemits := encodeSegment_emits shipped_sized shipped_scannable hv h.coherent simd (e.seg ++ e.rest.take k) out es
        rw [← hsink] at hemits
        obtain ⟨⟨r, c', s'⟩, hsegment, hround⟩ := bind_eq_ok.1 hround
        rw [hsegment] at hemits
        generalize segmentIds shipped v (e.seg ++ e.rest.take k) = ids at hemits
        cases hemits with
        | emitted ids c' coherent _ =>
          obtain ⟨s₁, hput, hround⟩ := bind_eq_ok.1 hround
          cases hround
          rw [bpSinkPut1_holding] at hput
          refine ⟨coherent, ⟨_, (Except.ok.inj hput).symm⟩, front ++ (e.seg ++ e.rest.take k) ++ v.addedBytes a, ?_,
            ?_, hbehind⟩
          · simpa only [List.append_assoc, List.nil_append] using hcut
          · exact wellFormed_append (wellFormed_append hfront hseg) hbytes
        | _ => cases hround

/-- The loop ends with what is behind the last match. -/
theorem encodeRound_done {e : Encoding} {seg : List UInt8} {c' : BpCtx} {s' : BpSink}
    (h : encodeRound shipped simd e = .ok (.done (.ok seg, (c', s')))) : c' = e.c ∧ seg = e.seg ++ e.rest := by
  unfold encodeRound at h
  split at h
  · next hempty =>
    cases h
    rw [List.eq_nil_of_length_eq_zero hempty, List.append_nil]
    exact ⟨rfl, rfl⟩
  · obtain ⟨r, -, h⟩ := bind_eq_ok.1 h
    cases r with
    | none =>
      cases h
      exact ⟨rfl, rfl⟩
    | some k =>
      obtain ⟨found, -, h⟩ := bind_eq_ok.1 h
      cases found with
      | none => cases h
      | some a =>
        obtain ⟨⟨r, c₁, s₁⟩, -, h⟩ := bind_eq_ok.1 h
        cases r with
        | error err => cases h
        | ok _ =>
          obtain ⟨s₂, -, h⟩ := bind_eq_ok.1 h
          cases h

/-- **The segments** of a well-formed text begin and end at boundaries, if the added tokens are well formed. -/
theorem CallsSegment.atBoundaries (hv : v.Valid) (hm : v.MatcherOk) (hadded : v.AddedWellFormed) {c c' : BpCtx}
    (hc : c.Coherent v) (hx : WellFormed x) {flags : Nat} {seg : List UInt8}
    (h : CallsSegment shipped simd c x (BpSink.holding out []) flags c' seg) : AtBoundaries x seg ∧ c'.v = v := by
  have hstart : CutTo v x out ⟨c, BpSink.holding out [], [], x⟩ :=
    ⟨hc, ⟨[], rfl⟩, [], rfl, List.forall_mem_nil _, hx⟩
  have hvisited : ∀ {e}, Visits (encodeRound shipped simd) ⟨c, BpSink.holding out [], [], x⟩ e → CutTo v x out e :=
    fun hvisits => hvisits.keeps (CutTo v x out) (fun _ _ => CutTo.next hv hm hadded) hstart
  cases h with
  | whole =>
    refine ⟨⟨[], [], ?_, List.forall_mem_nil _, hx, List.forall_mem_nil _⟩, hc.handle⟩
    rw [List.nil_append, List.append_nil]
  | gap _ hvisits _ hmatch =>
    have he := hvisited hvisits
    obtain ⟨front, hcut, hfront, hseg, hbytes, hbehind⟩ := he.match hv hm hadded hmatch
    exact ⟨⟨front, _, hcut, hfront, hseg, wellFormed_append hbytes hbehind⟩, he.coherent.handle⟩
  | tail _ hvisits hround =>
    have he := hvisited hvisits
    obtain ⟨front, hcut, hfront, hrest⟩ := he.cut
    obtain ⟨rfl, rfl⟩ := encodeRound_done hround
    refine ⟨⟨front, [], ?_, hfront, hrest, List.forall_mem_nil _⟩, he.coherent.handle⟩
    rw [List.append_nil]
    exact hcut

end Segments

end Bytepair

namespace Bytepair.Convert
open Support

section Strings

mutual

/-- The strings in a document, the keys included. -/
def Json.strings : Json → List Str
  | .str s => [s]
  | .arr xs => Json.stringsOf xs
  | .obj kvs => Json.stringsIn kvs
  | .null => []
  | .bool _ => []
  | .int _ => []
  | .float _ => []

/-- The strings in the elements of an array. -/
def Json.stringsOf : List Json → List Str
  | [] => []
  | x :: xs => x.strings ++ Json.stringsOf xs

/-- The strings in the items of an object. -/
def Json.stringsIn : List (Str × Json) → List Str
  | [] => []
  | (k, x) :: kvs => k :: (x.strings ++ Json.stringsIn kvs)

end

/-- The strings of the document hold code points, as Python's do. -/
def Json.CodePoints (doc : Json) : Prop := ∀ s ∈ doc.strings, ∀ ch ∈ s, ch < 0x110000

theorem strings_element {xs : List Json} {x : Json} (hx : x ∈ xs) : x.strings ⊆ Json.stringsOf xs := by
  induction xs with
  | nil => cases hx
  | cons y xs ih =>
    rw [Json.stringsOf]
    rcases List.mem_cons.1 hx with rfl | hx
    · exact List.subset_append_left _ _
    · exact List.subset_append_of_subset_right _ (ih hx)

theorem strings_value {kvs : List (Str × Json)} {k : Str} {x : Json} (hx : (k, x) ∈ kvs) :
    x.strings ⊆ Json.stringsIn kvs := by
  induction kvs with
  | nil => cases hx
  | cons item kvs ih =>
    obtain ⟨k', y⟩ := item
    rw [Json.stringsIn]
    apply List.subset_cons_of_subset
    rcases List.mem_cons.1 hx with heq | hx
    · cases heq
      exact List.subset_append_left _ _
    · exact List.subset_append_of_subset_right _ (ih hx)

theorem Json.CodePoints.element {xs : List Json} (h : Json.CodePoints (.arr xs)) {x : Json} (hx : x ∈ xs) :
    x.CodePoints := by
  intro s hs
  apply h
  rw [Json.strings]
  exact strings_element hx hs

theorem Json.CodePoints.value {kvs : List (Str × Json)} (h : Json.CodePoints (.obj kvs)) {k : Str} {x : Json}
    (hx : (k, x) ∈ kvs) : x.CodePoints := by
  intro s hs
  apply h
  rw [Json.strings]
  exact strings_value hx hs

/-- What is looked up is the default, or in the object. -/
theorem Json.CodePoints.get {kvs : List (Str × Json)} (h : Json.CodePoints (.obj kvs)) {default : Json}
    (hdefault : default.CodePoints) (key : String) : (get kvs key default).CodePoints := by
  unfold Convert.get
  cases hkey : kvs.lookup (Convert.str key) with
  | none => exact hdefault
  | some x => exact h.value (mem_of_lookup hkey)

theorem codePoints_null : Json.CodePoints .null := by
  intro s hs
  rw [Json.strings] at hs
  cases hs

theorem codePoints_nil : Json.CodePoints (.arr []) := by
  intro s hs
  rw [Json.strings, Json.stringsOf] at hs
  cases hs

/-- The entries of `added_tokens` are in the document. -/
theorem Json.CodePoints.addedTokens {doc : Json} (h : doc.CodePoints) {s : Source} (hs : doc.source = some s)
    {entry : Json} (hentry : entry ∈ s.addedTokens) : entry.CodePoints := by
  unfold Json.source at hs
  obtain ⟨kvs, hkvs, hs⟩ := Option.bind_eq_some_iff.1 hs
  obtain ⟨model, -, hs⟩ := Option.bind_eq_some_iff.1 hs
  obtain ⟨vocab, -, hs⟩ := Option.bind_eq_some_iff.1 hs
  obtain ⟨merges, -, hs⟩ := Option.bind_eq_some_iff.1 hs
  obtain ⟨addedTokens, hadded, hs⟩ := Option.bind_eq_some_iff.1 hs
  cases hs
  have hdoc : doc = .obj kvs := by
    cases doc with
    | obj kvs' =>
      cases hkvs
      rfl
    | _ => cases hkvs
  rw [hdoc] at h
  have hget := h.get codePoints_nil "added_tokens"
  cases hvalue : Convert.get kvs "added_tokens" (.arr []) with
  | arr xs =>
    rw [hvalue] at hget hadded
    cases hadded
    exact hget.element hentry
  | _ =>
    rw [hvalue] at hadded
    cases hadded

/-- The content of an added token is a string of its entry. -/
theorem Json.CodePoints.content {entry : Json} (h : entry.CodePoints) {t : AddedToken}
    (hvalid : validateAdded entry = .ok t) : ∀ ch ∈ t.content, ch < 0x110000 := by
  obtain ⟨kvs, hkvs, hvalid⟩ := bind_eq_ok.1 hvalid
  obtain ⟨content, hcontent, hvalid⟩ := bind_eq_ok.1 hvalid
  obtain ⟨tid, -, hvalid⟩ := bind_eq_ok.1 hvalid
  obtain ⟨_, -, hvalid⟩ := bind_eq_ok.1 hvalid
  cases hvalid
  have hentry : entry = .obj kvs := by
    have hkvs := need_eq_ok.1 hkvs
    cases entry with
    | obj kvs' =>
      cases hkvs
      rfl
    | _ => cases hkvs
  rw [hentry] at h
  have hget := h.get codePoints_null "content"
  have hcontent := need_eq_ok.1 hcontent
  cases hvalue : Convert.get kvs "content" .null with
  | str s =>
    rw [hvalue] at hget hcontent
    dsimp only at hcontent
    split at hcontent
    · cases hcontent
      apply hget
      rw [Json.strings]
      exact List.mem_singleton_self _
    · cases hcontent
  | _ =>
    rw [hvalue] at hcontent
    cases hcontent

/-- What is encoded is well formed. -/
theorem encodeUtf8_wellFormed {s : Str} {bytes : List UInt8} (hs : ∀ ch ∈ s, ch < 0x110000)
    (h : encodeUtf8 s = .ok bytes) : WellFormed bytes := by
  unfold encodeUtf8 at h
  split at h
  · cases h
  · next hno =>
    cases h
    apply wellFormed_encodeUnits
    intro ch hch
    have hlt := hs ch hch
    have hsurrogate : ¬(0xD800 ≤ ch ∧ ch < 0xE000) := by
      intro hmem
      apply hno
      rw [List.any_eq_true]
      exact ⟨ch, hch, by simp [hmem]⟩
    unfold IsScalar
    omega

/-- The added tokens of a converted image are well formed. -/
theorem convert_addedWellFormed {ceilLog2 : Nat → Nat} {raw : List UInt8} {doc : Json} {name : Str} {image : List UInt8}
    (h : convert ceilLog2 raw doc name = .ok image) (hdoc : doc.CodePoints) {host : Host} {v : BpVocab}
    (ho : Opens host image v) : v.AddedWellFormed := by
  obtain ⟨s, p, c, hs, hb, hc⟩ := convert_opened h ho
  intro a ha
  rw [hc.added] at ha
  obtain ⟨t, ht, -, hbytes, -⟩ := (forall₂_mem hb.records_eq).2 a ha
  obtain ⟨entry, hentry, hvalid⟩ := hb.mem_tokens.1 ht
  rw [← hc.tokOff, ← hc.blob] at hbytes
  exact encodeUtf8_wellFormed ((hdoc.addedTokens hs hentry).content hvalid) hbytes

end Strings

section Boundaries

variable {host : Host} {v : BpVocab}

/-- **Every intermediate text is well formed.** Over the image of a document, on every context and whatever it returns,
a call of `bp_encode` on well-formed text cuts out segments at boundaries of characters; what `bp_nfc` makes of one is
well formed; and the spans that `bp_scan_gpt4` emits of that begin and end at boundaries. -/
theorem convert_boundaries {ceilLog2 : Nat → Nat} {raw : List UInt8} {doc : Json} {name : Str} {image : List UInt8}
    (h : convert ceilLog2 raw doc name = .ok image) (hdoc : doc.CodePoints) (ho : Opens host image v) {c : BpCtx}
    (hc : c.Reached shipped v) {x : List UInt8} (hx : WellFormed x) (out : List Nat) (flags : Nat) (simd : Bool)
    {c' : BpCtx} {seg : List UInt8} (hcall : CallsSegment shipped simd c x ⟨out, 0⟩ flags c' seg) :
    AtBoundaries x seg ∧ ∀ norm m,
      bpNfc shipped (c'.v.hdr.flags &&& BPV_FLAG_NFC ≠ 0) c'.scratch seg = .ok (.ok norm, m) → WellFormed norm ∧
        ∀ s p, EmitsSpan shipped bpBpePretoken simd ({ c' with scratch := m }, s) norm p → AtBoundaries norm p := by
  have hv := ho.valid
  have hadded := convert_addedWellFormed h hdoc ho
  rw [← holding_nil] at hcall
  obtain ⟨hseg, hhandle⟩ := hcall.atBoundaries hv ho.matcher hadded (ho.coherent hc) hx
  obtain ⟨front, back, -, -, hwf, -⟩ := id hseg
  refine ⟨hseg, fun norm m hnfc => ?_⟩
  rw [hhandle] at hnfc
  obtain ⟨r, m', hrun, hcases, -⟩ := bpNfc_eq shipped_sized (v.hdr.flags &&& BPV_FLAG_NFC ≠ 0) c'.scratch seg
  rw [hrun] at hnfc
  have hnorm : WellFormed norm := by
    rcases hcases with rfl | rfl
    · cases hnfc
      exact normal_wellFormed hwf
    · cases hnfc
  exact ⟨hnorm, fun s p hspan => hspan.atBoundaries shipped_scannable hnorm⟩

theorem convert_boundaries_toy : ∃ c : BpCtx, c.Reached shipped toy.vocab ∧ ∃ c' seg,
    CallsSegment shipped true c [0x61, 0x3C, 0x78, 0x3E, 0xC3, 0xA9] ⟨[], 0⟩ 0 c' seg ∧
      AtBoundaries [0x61, 0x3C, 0x78, 0x3E, 0xC3, 0xA9] seg := by
  obtain ⟨c, hc, -⟩ := toy_context
  have hhandle := (Opens.coherent toy_opens hc).handle
  have hdoc : (toyDoc [addedEntryOf (str "<x>") 258]).CodePoints := by
    unfold Json.CodePoints
    decide +kernel
  have hx : WellFormed [0x61, 0x3C, 0x78, 0x3E, 0xC3, 0xA9] := by
    rw [← utf8Valid_iff (Nat.le_refl _)]
    decide
  have hsearched : ¬Unsearched c 0 := by
    unfold Unsearched
    rw [hhandle]
    decide +kernel
  have hnext : nextCandidate c.v [0x61, 0x3C, 0x78, 0x3E, 0xC3, 0xA9] = .ok (some 1) := by
    rw [hhandle]
    decide +kernel
  have hmatch : matchAdded c.v [0x3C, 0x78, 0x3E, 0xC3, 0xA9] = .ok (some ⟨258, 261, 3, 1⟩) := by
    rw [hhandle]
    decide +kernel
  have hcall := CallsSegment.gap hsearched (@Visits.start _ _ (encodeRound shipped true) ⟨c, ⟨[], 0⟩, [], _⟩) hnext hmatch
  exact ⟨c, hc, _, _, hcall, (convert_boundaries toy_converts hdoc toy_opens hc hx [] 0 true hcall).1⟩

end Boundaries

end Bytepair.Convert
