import Bytepair.Encode.Match
import Bytepair.Bpe.Pretoken
import Bytepair.Nfc.Refine
import Bytepair.Scan.Refine

/-!
# What a call comes to

`encodeIds` is what `bp_encode` comes to for a text: the text is cut at its added tokens, each
gap is normalized and split, and each span comes to its `pretokenIds`. It depends on the
handle, the text and the flags alone. `bpEncode_spec`: on a coherent context every call
returns it, or is refused by the allocator, and leaves a coherent context.
-/

namespace Bytepair
open Support

section New

variable {v : BpVocab}

theorem CacheEnt.zero_ok : EntOk v .zero where
  bytes := List.length_replicate
  ids := List.length_replicate
  coherent h := absurd rfl h

/-- A new context is coherent. -/
theorem bpCtxNew_coherent {cacheLog2 : Int} {env : Option (List UInt8)} {answers : Nat → Bool} {c : BpCtx}
    (h : bpCtxNew v cacheLog2 env answers = some c) : c.Coherent v := by
  simp only [bpCtxNew, Option.ite_none_left_eq_some] at h
  obtain ⟨-, -, h⟩ := h
  generalize (if cacheLog2 = BP_CTX_DEFAULT_CACHE then 15 else cacheLog2.toNat) = lg at h
  split at h
  · obtain ⟨-, h⟩ := Option.ite_none_left_eq_some.1 h
    cases h
    constructor
    · rfl
    · intro cache hcache
      cases hcache
      refine ⟨lg, ?_, ?_⟩
      · show 1 <<< lg - 1 = 2 ^ lg - 1
        rw [Nat.one_shiftLeft]
      · rw [List.length_replicate, Nat.one_shiftLeft]
    · intro cache hcache ent hent
      cases hcache
      rw [List.eq_of_mem_replicate hent]
      exact CacheEnt.zero_ok
  · cases h
    constructor
    · rfl
    · intro cache hcache
      cases hcache
    · intro cache hcache
      cases hcache

/-- With an allocator that grants all, there is a context for every cache size the source takes. -/
theorem bpCtxNew_granted {cacheLog2 : Int} (hlow : -1 ≤ cacheLog2) (hhigh : cacheLog2 ≤ 24)
    (env : Option (List UInt8)) :
    ∃ c, bpCtxNew v cacheLog2 env (fun _ => true) = some c ∧ c.scratch.Granted := by
  have hrange : ¬(cacheLog2 < BP_CTX_DEFAULT_CACHE ∨ 24 < cacheLog2) := by
    unfold BP_CTX_DEFAULT_CACHE
    omega
  unfold bpCtxNew
  rw [if_neg hrange]
  dsimp only [Scratch.realloc]
  generalize (if cacheLog2 = BP_CTX_DEFAULT_CACHE then 15 else cacheLog2.toNat) = lg
  cases lg with
  | zero => exact ⟨_, rfl, fun k => rfl⟩
  | succ lg =>
    rw [if_pos (Nat.succ_pos lg)]
    exact ⟨_, rfl, fun k => rfl⟩

end New

section Segment

variable {v : BpVocab} {T : Tables}

/-- The ids of the spans of a text. -/
def spansIds (v : BpVocab) : List (List UInt8) → Option (List Nat)
  | [] => some []
  | p :: ps => (pretokenIds v p).bind fun xs => (spansIds v ps).map (xs ++ ·)

/-- The ids of a text without added tokens. -/
def segmentIds (T : Tables) (v : BpVocab) (seg : List UInt8) : Option (List Nat) :=
  spansIds v (splitSpans T (nfcText T (v.hdr.flags &&& BPV_FLAG_NFC ≠ 0) seg))

attribute [grind =] spansIds

theorem feed_emits (hv : v.Valid) {c : BpCtx} (hc : c.Coherent v) (buf es : List Nat) (ps : List (List UInt8)) :
    Emits v buf es c.scratch.Granted (spansIds v ps) (feed bpBpePretoken (c, BpSink.holding buf es) ps) := by
  induction ps generalizing c es with
  | nil =>
    have h : Emits v buf es c.scratch.Granted (some []) (.ok (.ok (), (c, BpSink.holding buf (es ++ [])))) :=
      .emitted [] c hc id
    rwa [List.append_nil] at h
  | cons p ps ih =>
    apply (bpBpePretoken_emits hv hc p buf es).bind
    · intro e cs
      rfl
    · intro ids c' _ hc'
      exact ih hc' (es ++ ids)

/-- A step on a context with other scratch buffers. -/
theorem Emits.granted {buf es : List Nat} {granted granted' : Prop} (hmono : granted → granted')
    {ids : Option (List Nat)} {x : Run (Except Err Unit × (BpCtx × BpSink))} (h : Emits v buf es granted' ids x) :
    Emits v buf es granted ids x := by
  cases h with
  | emitted ids c coherent grants => exact .emitted ids c coherent fun hg => grants (hmono hg)
  | refused ids c more coherent hno first => exact .refused ids c more coherent (fun hg => hno (hmono hg)) first
  | failed e c s coherent => exact .failed e c s coherent
  | fault f => exact .fault f

/-- **A segment comes to the ids of its spans.** -/
theorem encodeSegment_emits (hT : T.Sized) (hS : T.Scannable) (hv : v.Valid) {c : BpCtx} (hc : c.Coherent v)
    (simd : Bool) (seg : List UInt8) (buf es : List Nat) :
    Emits v buf es c.scratch.Granted (segmentIds T v seg)
      (encodeSegment T simd c seg (BpSink.holding buf es)) := by
  obtain rfl := hc.handle
  unfold encodeSegment
  split
  · next hempty =>
    obtain rfl := List.length_eq_zero_iff.1 hempty
    have hids : segmentIds T c.v [] = some [] := by
      unfold segmentIds
      rw [show nfcText T (decide (c.v.hdr.flags &&& BPV_FLAG_NFC ≠ 0)) [] = [] by
        unfold nfcText
        split
        · rfl
        · rfl]
      rfl
    have h : Emits c.v buf es c.scratch.Granted (some []) (.ok (.ok (), (c, BpSink.holding buf (es ++ [])))) :=
      .emitted [] c hc id
    rw [List.append_nil] at h
    rwa [hids]
  · obtain ⟨r, m, hnfc, hcases, hgranted, -⟩ := bpNfc_eq hT (decide (c.v.hdr.flags &&& BPV_FLAG_NFC ≠ 0)) c.scratch seg
    rw [hnfc, Run.ok_bind]
    rcases hcases with rfl | rfl
    · dsimp only
      rw [bpScanGpt4_eq hS]
      exact (feed_emits hv (hc.scratch m) buf es _).granted fun hg => (hgranted hg).2
    · exact Emits.refuse (hc.scratch m) (fun hg => nomatch (hgranted hg).1) _

end Segment

section Loop

variable {v : BpVocab} {T : Tables}

/-- The ids of a text cut at its added tokens. -/
def piecesIds (T : Tables) (v : BpVocab) (tail : List UInt8) : List (List UInt8 × BpvAdded) → Option (List Nat)
  | [] => segmentIds T v tail
  | (gap, a) :: ps => (segmentIds T v gap).bind fun xs => ((piecesIds T v tail ps).map (a.id :: ·)).map (xs ++ ·)

/-- The ids of a text that is cut behind a gap. -/
def cutIds (T : Tables) (v : BpVocab) (gap rest : List UInt8) : Option (List Nat) :=
  piecesIds T v (cutFrom v.findAdded v.addedBytes gap rest).2 (cutFrom v.findAdded v.addedBytes gap rest).1

attribute [grind =] piecesIds

/-- A step behind an id that was put. -/
theorem Emits.cons {buf es : List Nat} {granted : Prop} {ids : Option (List Nat)} {id : Nat}
    {x : Run (Except Err Unit × (BpCtx × BpSink))} (h : Emits v buf (es ++ [id]) granted ids x) :
    Emits v buf es granted (ids.map (id :: ·)) x := by
  cases h with
  | emitted ids c coherent grants =>
    rw [List.append_assoc]
    exact .emitted (id :: ids) c coherent grants
  | refused ids c more coherent hno first =>
    rw [List.append_assoc]
    apply Emits.refused _ c (id :: more) coherent hno
    intro xs hxs
    obtain ⟨ys, hys, rfl⟩ := Option.map_eq_some_iff.1 hxs
    exact List.cons_prefix_cons.2 ⟨rfl, first ys hys⟩
  | failed e c s coherent => exact .failed e c s coherent
  | fault f => exact .fault f

/-- What follows the segment before a match. -/
def afterSegment (T : Tables) (simd : Bool) (bound : Nat) (a : BpvAdded) (rest : List UInt8) :
    Except Err Unit × (BpCtx × BpSink) → Run (Except Err Unit × (BpCtx × BpSink))
  | (.error e, cs) => .ok (.error e, cs)
  | (.ok _, (c, s)) => do
    let s ← bpSinkPut1 s a.id
    loop (encodeRound T simd) bound ⟨c, s, [], rest⟩ >>= encodeTail T simd

theorem encodeLoop_none {simd : Bool} {bound : Nat} {e : Encoding} {k : Nat} (hrest : ¬e.rest.length = 0)
    (hnext : nextCandidate e.c.v e.rest = .ok (some k)) (hmatch : matchAdded e.c.v (e.rest.drop k) = .ok none) :
    loop (encodeRound T simd) (bound + 1) e >>= encodeTail T simd =
      loop (encodeRound T simd) bound
        ⟨e.c, e.s, e.seg ++ e.rest.take k ++ (e.rest.drop k).take 1, (e.rest.drop k).drop 1⟩ >>= encodeTail T simd := by
  apply congrArg (· >>= encodeTail T simd)
  apply loop_next
  unfold encodeRound
  rw [if_neg hrest, hnext, Run.ok_bind]
  dsimp only
  rw [hmatch]
  rfl

theorem encodeLoop_some {simd : Bool} {bound : Nat} {e : Encoding} {k : Nat} {a : BpvAdded}
    (hrest : ¬e.rest.length = 0) (hnext : nextCandidate e.c.v e.rest = .ok (some k))
    (hmatch : matchAdded e.c.v (e.rest.drop k) = .ok (some a)) :
    loop (encodeRound T simd) (bound + 1) e >>= encodeTail T simd =
      encodeSegment T simd e.c (e.seg ++ e.rest.take k) e.s >>=
        afterSegment T simd bound a ((e.rest.drop k).drop a.len) := by
  rw [loop, encodeRound, if_neg hrest, hnext, Run.ok_bind]
  dsimp only
  rw [hmatch, Run.ok_bind]
  dsimp only
  generalize encodeSegment T simd e.c (e.seg ++ e.rest.take k) e.s = x
  cases x with
  | error f => rfl
  | ok r =>
    obtain ⟨r, c, s⟩ := r
    cases r with
    | error err => rfl
    | ok _ =>
      rw [Run.ok_bind, Run.ok_bind]
      dsimp only [afterSegment]
      generalize bpSinkPut1 s a.id = y
      cases y with
      | error f => rfl
      | ok s => rfl

/-- **The loop over the candidates** comes to the ids of the pieces. -/
theorem encodeLoop_emits (hT : T.Sized) (hS : T.Scannable) (hv : v.Valid) (hm : v.MatcherOk) (simd : Bool)
    (bound : Nat) {c : BpCtx} (hc : c.Coherent v) (buf es : List Nat) (seg rest : List UInt8)
    (hlt : rest.length < bound) :
    Emits v buf es c.scratch.Granted (cutIds T v seg rest)
      (loop (encodeRound T simd) bound ⟨c, BpSink.holding buf es, seg, rest⟩ >>= encodeTail T simd) := by
  induction bound generalizing c es seg rest with
  | zero => exact absurd hlt (Nat.not_lt_zero _)
  | succ bound ih =>
    have hpos : ∀ t a, v.findAdded t = some a → v.addedBytes a ≠ [] := fun t a h =>
      hv.addedBytes_ne_nil (BpVocab.findAdded_some hv hm h).mem
    cases rest with
    | nil => exact encodeSegment_emits hT hS hv hc simd seg buf es
    | cons b rest =>
      have hrest : ¬(b :: rest).length = 0 := by simp
      generalize b :: rest = rest at hrest hlt
      have hhandle := hc.handle
      obtain ⟨r, hnext, hskip⟩ := nextCandidate_spec hv hm rest
      rw [← hhandle] at hnext
      cases r with
      | none =>
        have hloop : loop (encodeRound T simd) (bound + 1) ⟨c, BpSink.holding buf es, seg, rest⟩ =
            .ok (.ok (seg ++ rest), (c, BpSink.holding buf es)) := by
          apply loop_done
          unfold encodeRound
          rw [if_neg hrest, hnext]
          rfl
        rw [hloop, Run.ok_bind, cutIds, cutFrom_rest hskip]
        exact encodeSegment_emits hT hS hv hc simd (seg ++ rest) buf es
      | some k =>
        obtain ⟨hk, hskip⟩ := hskip
        have hcut : cutIds T v seg rest = cutIds T v (seg ++ rest.take k) (rest.drop k) := by
          rw [cutIds, cutFrom_skip hskip]
          rfl
        have hmatch := matchAdded_eq hv hm (rest.drop k)
        rw [← hhandle] at hmatch
        rw [hcut]
        have hdrop : rest.drop k = rest[k] :: rest.drop (k + 1) := List.drop_eq_getElem_cons hk
        cases hfind : v.findAdded (rest.drop k) with
        | none =>
          rw [hhandle, hfind, ← hhandle] at hmatch
          rw [encodeLoop_none hrest hnext hmatch]
          dsimp only
          rw [hdrop] at hfind ⊢
          rw [cutIds, cutFrom_none hfind]
          apply ih hc
          show (rest.drop (k + 1)).length < bound
          rw [List.length_drop]
          omega
        | some a =>
          rw [hhandle, hfind, ← hhandle] at hmatch
          have hmem := (BpVocab.findAdded_some hv hm hfind).mem
          obtain ⟨-, -, hlen, -⟩ := hv.record_bytes hmem
          have hposlen := (hv.record a hmem).pos
          rw [encodeLoop_some hrest hnext hmatch]
          dsimp only
          rw [cutIds, hdrop, cutFrom_some hpos (hdrop ▸ hfind), ← hdrop, hlen]
          apply (encodeSegment_emits hT hS hv hc simd (seg ++ rest.take k) buf es).bind
          · intro e cs
            rfl
          · intro ids c' _ hc'
            rw [afterSegment, bpSinkPut1_holding, Run.ok_bind]
            apply Emits.cons
            apply ih hc'
            rw [List.length_drop, List.length_drop]
            omega

end Loop

end Bytepair
