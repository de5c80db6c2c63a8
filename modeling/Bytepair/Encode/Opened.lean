import Bytepair.Encode.Known
import Bytepair.Convert.Sample
import Bytepair.Scan.Shipped
import Bytepair.Tables.Facts

/-!
# Opened vocabularies

What holds of every handle the loader returns, over the shipped tables: no call faults and no id
is out of range, a reply does not depend on what happened to the context before, and the text
is cut at its added tokens.
-/

namespace Bytepair
open Support

/-- The loader makes the handle of the file. -/
def Opens (host : Host) (map : List UInt8) (v : BpVocab) : Prop := bpVocabOpen host map = .ok (.ok v)

section Opened

variable {host : Host} {map : List UInt8} {v : BpVocab}

/-- What the loader has checked of a handle. -/
theorem Opens.sound (h : Opens host map v) : v.Valid ∧ v.Of map ∧ v.MatcherOk := by
  obtain ⟨r, hr, hsound⟩ := bpVocabOpen_spec host map
  rw [Opens, hr] at h
  exact hsound v (Except.ok.inj h)

theorem Opens.valid (h : Opens host map v) : v.Valid := h.sound.1

theorem Opens.image (h : Opens host map v) : v.Of map := h.sound.2.1

theorem Opens.matcher (h : Opens host map v) : v.MatcherOk := h.sound.2.2

theorem shipped_sized : shipped.Sized := shipped_coherent.sized

/-- Every context that calls have reached is in order. -/
theorem Opens.coherent (h : Opens host map v) {c : BpCtx} (hc : c.Reached shipped v) : c.Coherent v :=
  reached_coherent shipped_sized shipped_scannable h.valid h.matcher hc

/-- A call to the encoder on a context that was reached. -/
theorem Opens.encode (h : Opens host map v) {c : BpCtx} (hc : c.Reached shipped v) (t : List UInt8) (out : List Nat)
    (flags : Nat) :
    Encoded v out c.scratch.Granted (encodeIds shipped v t flags) (bpEncode shipped c t out flags) :=
  bpEncode_spec shipped_sized shipped_scannable h.valid h.matcher (h.coherent hc) t out flags

end Opened

section Safety

variable {host : Host} {map : List UInt8} {v : BpVocab}

/-- A lookup reaches the key or an empty slot within as many probes as there are slots. -/
theorem lookup_reaches (hv : v.Valid) (a b : Nat) :
    ∃ j < v.hdr.slots,
      keyOf v.pairs ((pairHash v (pairKey a b) + j) % v.hdr.slots) = pairKey a b ∨
        keyOf v.pairs ((pairHash v (pairKey a b) + j) % v.hdr.slots) = BPV_PAIR_EMPTY := by
  obtain ⟨t, -, ht⟩ := hv.exists_probe a b
  obtain ⟨j, hj, rfl, hstop, -⟩ := (Probing.probe_some_iff (Nat.mod_lt _ (slots_pos _))).1 ht
  simp only [Probing.stops, Bool.or_eq_true, decide_eq_true_eq] at hstop
  exact ⟨j, hj, hstop⟩

/-- A call to the encoder returns. -/
theorem Opens.encode_returns (h : Opens host map v) {c : BpCtx} (hc : c.Reached shipped v) (t : List UInt8)
    (out : List Nat) (flags : Nat) :
    ∃ r c' ids, bpEncode shipped c t out flags = .ok (r, (c', filled out ids)) ∧
      (r = .ok ids.length ∨ r = .error .nomem) ∧ ∀ id ∈ ids, id < v.hdr.vocabCount := by
  obtain ⟨ids, hids⟩ := encodeIds_isSome (T := shipped) h.valid t flags
  have hknown := encodeIds_known h.valid h.matcher hids
  have hrun := h.encode hc t out flags
  rw [hids] at hrun
  generalize bpEncode shipped c t out flags = x at hrun
  cases hrun with
  | done _ c' _ _ => exact ⟨_, c', ids, rfl, .inl rfl, hknown⟩
  | refused _ c' more _ _ first =>
    exact ⟨_, c', more, rfl, .inr rfl, fun id hid => hknown id ((first ids rfl).subset hid)⟩

/-- **Safety.** Whatever file was opened and whatever happened to the context: a lookup is over within
as many probes as there are slots; encoding and counting a text below 2^29 bytes and decoding any ids
return, without a read or a write outside a section or a buffer; every id that is emitted is below
`vocab_count`. -/
theorem opened_safe (h : Opens host map v) {c : BpCtx} (hc : c.Reached shipped v) :
    (∀ a b, (∃ val, bpPairLookup v a b = .ok val) ∧ ∃ j < v.hdr.slots,
      keyOf v.pairs ((pairHash v (pairKey a b) + j) % v.hdr.slots) = pairKey a b ∨
        keyOf v.pairs ((pairHash v (pairKey a b) + j) % v.hdr.slots) = BPV_PAIR_EMPTY) ∧
    (∀ (t : List UInt8) (out : List Nat) (flags : Nat), t.length < 2 ^ 29 →
      ∃ r c' ids, bpEncode shipped c t out flags = .ok (r, (c', filled out ids)) ∧
        (r = .ok ids.length ∨ r = .error .nomem) ∧ ∀ id ∈ ids, id < v.hdr.vocabCount) ∧
    (∀ (t : List UInt8) (flags : Nat), t.length < 2 ^ 29 → ∃ r, bpCount shipped c t flags = .ok r) ∧
    ∀ (ids : List Nat) (out : List UInt8) (flags : Nat), ∃ r, bpDecode c ids out flags = .ok r := by
  refine ⟨fun a b => ⟨⟨_, bpPairLookup_eq h.valid a b⟩, lookup_reaches h.valid a b⟩,
    fun t out flags _ => h.encode_returns hc t out flags, ?_, ?_⟩
  · intro t flags _
    obtain ⟨r, c', ids, hrun, -⟩ := h.encode_returns hc t [] flags
    exact ⟨_, hrun⟩
  · intro ids out flags
    have hrun := bpDecode_eq h.valid (h.coherent hc).handle flags ids out
    cases hids : decodeIds v flags ids with
    | ok bytes =>
      rw [hids] at hrun
      exact ⟨_, hrun⟩
    | error e =>
      rw [hids] at hrun
      obtain ⟨out', hrun⟩ := hrun
      exact ⟨_, hrun⟩

/-- A context of the toy vocabulary, with a cache. -/
theorem toy_context : ∃ c : BpCtx, c.Reached shipped Convert.toy.vocab ∧ c.cache.isSome ∧ c.scratch.Granted := by
  refine ⟨_, @BpCtx.Reached.new _ _ 2 none (fun _ => true) _ rfl, rfl, fun _ => rfl⟩

theorem opened_safe_toy : ∃ c : BpCtx, c.Reached shipped Convert.toy.vocab ∧
    (∃ r, bpCount shipped c [0x61, 0x62, 0x3C] 0 = .ok r) ∧ ∃ r, bpDecode c [256, 300] [0, 0] 0 = .ok r := by
  obtain ⟨c, hc, -⟩ := toy_context
  obtain ⟨-, -, hcount, hdecode⟩ := opened_safe Convert.toy_opens hc
  exact ⟨c, hc, hcount [0x61, 0x62, 0x3C] 0 (by decide), hdecode [256, 300] [0, 0] 0⟩

end Safety

section History

variable {host : Host} {map : List UInt8} {v : BpVocab}

/-- Every call on such a context answers, or something was refused. -/
theorem Opens.answers (h : Opens host map v) {c : BpCtx} (hc : c.Reached shipped v) (k : Call) :
    Answers v (k.value shipped v) c.scratch.Granted (call shipped c k) :=
  call_spec shipped_sized shipped_scannable h.valid h.matcher (h.coherent hc) k

/-- **A reply does not depend on history.** Whatever calls were made before on a context of whatever
cache size, failed ones included: a call that succeeds replies as it does on a fresh context without
a cache, where the allocator grants all; and as it does on any such context it succeeds on. -/
theorem call_fresh (h : Opens host map v) {c : BpCtx} (hc : c.Reached shipped v) {k : Call} {r : Reply} {c' : BpCtx}
    {n : Nat} (hcall : call shipped c k = .ok (r, c')) (hr : r.result = .ok n) (env : Option (List UInt8)) :
    (∃ c₀ c₁, bpCtxNew v 0 env (fun _ => true) = some c₀ ∧ call shipped c₀ k = .ok (r, c₁)) ∧
    ∀ answers c₀ r₀ c₁ m, bpCtxNew v 0 env answers = some c₀ → call shipped c₀ k = .ok (r₀, c₁) →
      r₀.result = .ok m → r₀ = r := by
  have hvalue := (h.answers hc k).reply r c' n hcall hr
  constructor
  · obtain ⟨c₀, hnew, hgranted⟩ := bpCtxNew_granted (v := v) (show (-1 : Int) ≤ 0 by decide) (by decide) env
    obtain ⟨c₁, hrun, -⟩ := (h.answers (.new hnew) k).granted r hgranted hvalue
    exact ⟨c₀, c₁, hnew, hrun⟩
  · intro answers c₀ r₀ c₁ m hnew hrun hm
    have hvalue₀ := (h.answers (.new hnew) k).reply r₀ c₁ m hrun hm
    exact Option.some.inj (hvalue₀.symm.trans hvalue)

theorem call_fresh_toy : ∃ c c' : BpCtx, ∃ r, call shipped c (.decode [257, 0x61] [0, 0, 0, 0, 0] 0) = .ok (r, c') ∧
    ∃ c₀ c₁, bpCtxNew Convert.toy.vocab 0 none (fun _ => true) = some c₀ ∧
      call shipped c₀ (.decode [257, 0x61] [0, 0, 0, 0, 0] 0) = .ok (r, c₁) := by
  obtain ⟨c, hc, -, hgranted⟩ := toy_context
  have hvalue : (Call.decode [257, 0x61] [0, 0, 0, 0, 0] 0).value shipped Convert.toy.vocab =
      some (.bytes (.ok 4) [0x61, 0x62, 0x63, 0x61, 0]) := by
    have hbytes : decodeIds Convert.toy.vocab 0 [257, 0x61] = .ok [0x61, 0x62, 0x63, 0x61] := by decide +kernel
    rw [Call.value, hbytes]
    rfl
  obtain ⟨c', hrun, -⟩ := (Opens.answers Convert.toy_opens hc _).granted _ hgranted hvalue
  exact ⟨c, c', _, hrun, (call_fresh Convert.toy_opens hc hrun rfl none).1⟩

end History

section Simd

/-- Encoding a segment does not depend on the kernels. -/
theorem encodeSegment_simd (simd : Bool) (c : BpCtx) (seg : List UInt8) (s : BpSink) :
    encodeSegment shipped simd c seg s = encodeSegment shipped false c seg s := by
  unfold encodeSegment
  simp only [bpScanGpt4_eq shipped_scannable]

/-- The kernels make no difference to a text. -/
theorem encodeText_simd (simd : Bool) (c : BpCtx) (t : List UInt8) (s : BpSink) (flags : Nat) :
    encodeText shipped simd c t s flags = encodeText shipped false c t s flags := by
  have hround : encodeRound shipped simd = encodeRound shipped false := by
    funext e
    unfold encodeRound
    simp only [encodeSegment_simd simd]
  have htail : encodeTail shipped simd = encodeTail shipped false := by
    funext r
    unfold encodeTail
    simp only [encodeSegment_simd simd]
  unfold encodeText
  rw [encodeSegment_simd simd, hround, htail]

/-- Forcing the scalar loops leaves the other flags alone. -/
theorem raw_forceScalar (flags : Nat) : (flags ||| BP_FORCE_SCALAR) &&& BP_RAW = flags &&& BP_RAW := by
  rw [Nat.and_or_distrib_right]
  exact Nat.or_zero _

/-- **The kernels change nothing.** Each stops at the first byte at which the class table stops or that it
does not decide; the runs they are part of go on as the scalar ones do; and encoding a text is the same
with the kernels, as the context selects them, as with `BP_FORCE_SCALAR`. -/
theorem bpEncode_forceScalar (c : BpCtx) (t : List UInt8) (out : List Nat) (flags : Nat) :
    (∀ p, bpAsciiLetterRunAvx2 p =
      .ok (p.takeWhile fun b => b < 0x80 && shipped.bpCharClass b.toNat &&& BP_CC_L ≠ 0).length) ∧
    (∀ p, bpAsciiSymbolRunAvx2 p = .ok (p.takeWhile fun b => b < 0x80 &&
      shipped.bpCharClass b.toNat &&& (BP_CC_L ||| BP_CC_N ||| BP_CC_S) = 0).length) ∧
    (∀ p, runLetters shipped true p = runLetters shipped false p) ∧
    (∀ p, runSymbols shipped true p = runSymbols shipped false p) ∧
    bpEncode shipped c t out (flags ||| BP_FORCE_SCALAR) = bpEncode shipped c t out flags := by
  have hT := shipped_scannable
  refine ⟨fun p => ?_, fun p => ?_, fun p => by rw [runLetters_eq hT, runLetters_eq hT],
    fun p => by rw [runSymbols_eq hT, runSymbols_eq hT], ?_⟩
  · have htest : letterTail = fun b => decide (b < 0x80) && decide (shipped.bpCharClass b.toNat &&& BP_CC_L ≠ 0) := by
      funext b
      rw [Bool.eq_iff_iff, hT.asciiLetter, Bool.and_eq_true, decide_eq_true_eq]
      rfl
    rw [bpAsciiLetterRunAvx2_eq, htest]
  · have htest : symbolTail = fun b => decide (b < 0x80) &&
        decide (shipped.bpCharClass b.toNat &&& (BP_CC_L ||| BP_CC_N ||| BP_CC_S) = 0) := by
      funext b
      rw [Bool.eq_iff_iff, hT.asciiSymbol, Bool.and_eq_true, decide_eq_true_eq, isOther_iff]
    rw [bpAsciiSymbolRunAvx2_eq, htest]
  · have htext : ∀ simd, encodeText shipped simd c t ⟨out, 0⟩ (flags ||| BP_FORCE_SCALAR) =
        encodeText shipped simd c t ⟨out, 0⟩ flags := by
      intro simd
      unfold encodeText
      rw [raw_forceScalar]
    unfold bpEncode
    dsimp only
    rw [htext, encodeText_simd, encodeText_simd (_ && _ && _)]

end Simd

section Pieces

variable {host : Host} {map : List UInt8} {v : BpVocab}

/-- A text is encoded as some ids: every context that was reached comes to them, if the allocator grants all. -/
def Encodes (v : BpVocab) (t : List UInt8) (flags : Nat) (ids : List Nat) : Prop :=
  ∀ c : BpCtx, c.Reached shipped v → c.scratch.Granted → ∀ out,
    ∃ c', bpEncode shipped c t out flags = .ok (.ok ids.length, (c', filled out ids))

theorem filled_replicate (ids : List Nat) : filled (List.replicate ids.length 0) ids = ids := by
  rw [filled, List.length_replicate, List.take_length, List.drop_of_length_le (by rw [List.length_replicate]),
    List.append_nil]

/-- Buffers show the ids that are written to them. -/
theorem filled_inj {ids ids' : List Nat} (hlen : ids.length = ids'.length)
    (h : ∀ out, filled out ids = filled out ids') : ids = ids' := by
  have hfill := h (List.replicate ids.length 0)
  rwa [filled_replicate, hlen, filled_replicate] at hfill

/-- There is a context to which all is granted. -/
theorem exists_context (v : BpVocab) : ∃ c : BpCtx, c.Reached shipped v ∧ c.scratch.Granted := by
  obtain ⟨c, hnew, hgranted⟩ := bpCtxNew_granted (v := v) (show (-1 : Int) ≤ 0 by decide) (by decide) none
  exact ⟨c, .new hnew, hgranted⟩

/-- The ids that calls come to are those of the abstract encoder. -/
theorem encodes_iff (hv : v.Valid) (hm : v.MatcherOk) {t : List UInt8} {flags : Nat} {ids : List Nat} :
    Encodes v t flags ids ↔ encodeIds shipped v t flags = some ids := by
  have hspec : ∀ {c : BpCtx}, c.Reached shipped v → ∀ out,
      Encoded v out c.scratch.Granted (encodeIds shipped v t flags) (bpEncode shipped c t out flags) := fun hc out =>
    bpEncode_spec shipped_sized shipped_scannable hv hm
      (reached_coherent shipped_sized shipped_scannable hv hm hc) t out flags
  constructor
  · intro h
    obtain ⟨c, hc, hgranted⟩ := exists_context v
    have hout : ∀ out, ∃ xs, encodeIds shipped v t flags = some xs ∧ xs.length = ids.length ∧
        filled out xs = filled out ids := by
      intro out
      obtain ⟨c', hrun⟩ := h c hc hgranted out
      have hs := hspec hc out
      rw [hrun] at hs
      generalize encodeIds shipped v t flags = value at hs
      generalize hn : ids.length = n at hs
      generalize ho : filled out ids = out' at hs
      cases hs with
      | done xs _ _ _ => exact ⟨xs, rfl, rfl, rfl⟩
    obtain ⟨xs, hxs, hlen, -⟩ := hout []
    rw [hxs, filled_inj hlen]
    intro out
    obtain ⟨ys, hys, -, hfill⟩ := hout out
    rw [hxs] at hys
    cases hys
    exact hfill
  · intro h c hc hgranted out
    have hs := hspec hc out
    rw [h] at hs
    generalize bpEncode shipped c t out flags = x at hs
    cases hs with
    | done _ c' _ _ => exact ⟨c', rfl⟩
    | refused _ _ _ _ hno _ => exact absurd hgranted hno

/-- The handle as one whose added tokens do not all begin alike: candidates come from the map. -/
def BpVocab.scanByMap (v : BpVocab) : BpVocab := { v with addedSingleFirst := false }

theorem BpVocab.Valid.scanByMap (hv : v.Valid) : v.scanByMap.Valid := ⟨hv.countLe, hv.offsets, hv.narrow, hv.mono,
  hv.last, hv.log2, hv.slots, hv.wide, hv.mask, hv.slot, hv.room, hv.bytes, hv.byte, hv.addedCount, hv.addedLe,
  hv.record, hv.sorted⟩

theorem BpVocab.MatcherOk.scanByMap (hm : v.MatcherOk) : v.scanByMap.MatcherOk :=
  ⟨hm.order, hm.longest, (fun h => nomatch h), hm.first, hm.map⟩

/-- What a text comes to when added tokens are looked for. -/
theorem encodeIds_zero (hadded : v.hdr.addedCount ≠ 0) (x : List UInt8) :
    encodeIds shipped v x 0 =
      piecesIds shipped v (cut v.findAdded v.addedBytes x).2 (cut v.findAdded v.addedBytes x).1 := by
  have hlook : ¬(0 &&& BP_RAW ≠ 0 ∨ v.hdr.addedCount = 0) := by
    rintro (h | h)
    · exact h (Nat.zero_and _)
    · exact hadded h
  rw [encodeIds, if_neg hlook, cutIds_nil]

end Pieces

end Bytepair
