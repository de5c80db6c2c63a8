import Bytepair.Bpe.Model
import Bytepair.Nfc.Model
import Bytepair.Scan.Model

/-!
# Contexts, encoding and decoding

`bp_ctx_new` of `src/bp_vocab.c` and all of `src/bp_encode.c`. What a call leaves behind is
the context and the caller's buffer; a handle is read only. The NULL checks of the
arguments are left out: an argument is a value here.
-/

namespace Bytepair
open Support

def BP_RAW : Nat := 1
def BP_FORCE_SCALAR : Nat := 2
def BP_SKIP_SPECIAL : Nat := 4
def BP_CTX_DEFAULT_CACHE : Int := -1

/-- An entry of the `calloc`ed cache. -/
def CacheEnt.zero : CacheEnt := ⟨0, 0, 0, List.replicate CACHE_MAX_BYTES 0, List.replicate CACHE_MAX_IDS 0⟩

/-- `bp_ctx_new`; `env` is the variable `BYTEPAIR_FORCE_SCALAR`, `answers` what the allocator
says to this call and to the calls of the context to come. -/
def bpCtxNew (v : BpVocab) (cacheLog2 : Int) (env : Option (List UInt8)) (answers : Nat → Bool) : Option BpCtx :=
  if cacheLog2 < BP_CTX_DEFAULT_CACHE ∨ 24 < cacheLog2 then none
  else
    let (granted, m) := Scratch.realloc ⟨0, 0, 0, answers⟩
    let c : BpCtx := ⟨v, m, none, 0, env = some [0x31]⟩
    if !granted then none
    else
      let lg := if cacheLog2 = BP_CTX_DEFAULT_CACHE then 15 else cacheLog2.toNat
      if 0 < lg then
        let (granted, m) := m.realloc
        if !granted then none
        else some { c with scratch := m, cache := some (List.replicate (1 <<< lg) .zero), cacheMask := 1 <<< lg - 1 }
      else some c

/-- `n` cells of an array from an offset on. -/
def slice {α : Type} (xs : List α) (off n : Nat) : Run (List α) :=
  if off + n ≤ xs.length then .ok ((xs.drop off).take n) else .error .outOfBounds

/-- A round of `match_added`: candidate `k` at the head of `p`. -/
def matchRound (v : BpVocab) (p : List UInt8) (k : Nat) : Run (Flow Nat (Option BpvAdded)) :=
  if k < v.hdr.addedCount then do
    let a ← index v.added (← index v.addedOrder k)
    if a.len ≤ p.length then do
      let bytes ← slice v.blob a.offset a.len
      pure (if p.take a.len = bytes then .done (some a) else .next (k + 1))
    else pure (.next (k + 1))
  else .ok (.done none)

/-- `match_added`: the longest added token at the head of `p`. -/
def matchAdded (v : BpVocab) (p : List UInt8) : Run (Option BpvAdded) :=
  loop (matchRound v p) (v.hdr.addedCount + 1) 0

/-- A round of the scan by the map of first bytes, `k` bytes into it. -/
def mapRound (v : BpVocab) : List UInt8 × Nat → Run (Flow (List UInt8 × Nat) (Option Nat))
  | ([], _) => .ok (.done none)
  | (b :: p, k) => do
    let m ← index v.addedFirstMap (b >>> 3).toNat
    pure (if m &&& (1 <<< (b &&& 7)) != 0 then .done (some k) else .next (p, k + 1))

/-- The next place where an added token can start: by `memchr`, or by the map. -/
def nextCandidate (v : BpVocab) (p : List UInt8) : Run (Option Nat) :=
  if v.addedSingleFirst then .ok (p.findIdx? (· == v.addedFirst))
  else loop (mapRound v) (p.length + 1) (p, 0)

section Encode

variable (T : Tables) (simd : Bool)

/-- `encode_segment`. -/
def encodeSegment (c : BpCtx) (seg : List UInt8) (s : BpSink) : Run (Except Err Unit × (BpCtx × BpSink)) :=
  if seg.length = 0 then .ok (.ok (), (c, s))
  else do
    match ← bpNfc T (c.v.hdr.flags &&& BPV_FLAG_NFC ≠ 0) c.scratch seg with
    | (.error e, m) => pure (.error e, ({ c with scratch := m }, s))
    | (.ok norm, m) => bpScanGpt4 T bpBpePretoken simd ({ c with scratch := m }, s) norm

/-- The loop's variables: the context and the sink, the text from `seg_start` to `i`, and the
text from `i` on. -/
structure Encoding where
  c : BpCtx
  s : BpSink
  seg : List UInt8
  rest : List UInt8

/-- A round of the loop over the candidates. It ends with an error, or with the text behind the
last match. -/
def encodeRound (e : Encoding) :
    Run (Flow Encoding (Except Err (List UInt8) × (BpCtx × BpSink))) :=
  if e.rest.length = 0 then .ok (.done (.ok e.seg, (e.c, e.s)))
  else do
    match ← nextCandidate e.c.v e.rest with
    | none => pure (.done (.ok (e.seg ++ e.rest), (e.c, e.s)))
    | some k =>
      let seg := e.seg ++ e.rest.take k
      let rest := e.rest.drop k
      match ← matchAdded e.c.v rest with
      | none => pure (.next ⟨e.c, e.s, seg ++ rest.take 1, rest.drop 1⟩)
      | some a =>
        match ← encodeSegment T simd e.c seg e.s with
        | (.error err, cs) => pure (.done (.error err, cs))
        | (.ok _, (c, s)) => pure (.next ⟨c, ← bpSinkPut1 s a.id, [], rest.drop a.len⟩)

/-- What is done behind the loop: the text behind the last match. -/
def encodeTail : Except Err (List UInt8) × (BpCtx × BpSink) → Run (Except Err Unit × (BpCtx × BpSink))
  | (.error e, cs) => .ok (.error e, cs)
  | (.ok seg, (c, s)) => encodeSegment T simd c seg s

/-- `bp_encode`, up to what it returns. -/
def encodeText (c : BpCtx) (t : List UInt8) (s : BpSink) (flags : Nat) :
    Run (Except Err Unit × (BpCtx × BpSink)) :=
  if flags &&& BP_RAW ≠ 0 ∨ c.v.hdr.addedCount = 0 then encodeSegment T simd c t s
  else loop (encodeRound T simd) (t.length + 1) ⟨c, s, [], t⟩ >>= encodeTail T simd

/-- `bp_encode` into the buffer `out`: the count or the error, the context and the buffer. -/
def bpEncode (c : BpCtx) (t : List UInt8) (out : List Nat) (flags : Nat) :
    Run (Except Err Nat × (BpCtx × List Nat)) := do
  let simd := c.v.useAvx2 && flags &&& BP_FORCE_SCALAR = 0 && !c.envForceScalar
  match ← encodeText T simd c t ⟨out, 0⟩ flags with
  | (.error e, (c, s)) => pure (.error e, (c, s.out))
  | (.ok _, (c, s)) => pure (.ok s.total, (c, s.out))

/-- `bp_count`. -/
def bpCount (c : BpCtx) (t : List UInt8) (flags : Nat) : Run (Except Err Nat × (BpCtx × List Nat)) :=
  bpEncode T c t [] flags

end Encode

/-- A round of the search for an added token of a given id: its special bit, when there is one. -/
def specialRound (v : BpVocab) (id : Nat) : Nat × Nat → Run (Support.Flow (Nat × Nat) Bool)
  | (lo, hi) =>
    if lo < hi then do
      let mid := (lo + hi) / 2
      let a ← index v.added mid
      pure (if a.id < id then .next (mid + 1, hi)
        else if id < a.id then .next (lo, mid)
        else .done (a.flags &&& 1 ≠ 0))
    else .ok (.done false)

/-- The id is that of an added token with the special bit. -/
def isSpecial (v : BpVocab) (id : Nat) : Run Bool :=
  loop (specialRound v id) (v.hdr.addedCount + 1) (0, v.hdr.addedCount)

/-- Write bytes at `total`, as far as there is room. -/
def putBytes (out : List UInt8) (total : Nat) (bytes : List UInt8) : Run (List UInt8) :=
  if total < out.length then copyTo out total (bytes.take (out.length - total)) else .ok out

/-- The bytes of one id, or the error it stops the decoder with; no bytes when it is skipped. -/
def decodeId (v : BpVocab) (flags id : Nat) : Run (Except Err (List UInt8)) :=
  if v.hdr.vocabCount ≤ id then .ok (.error .range)
  else do
    if ← (if flags &&& BP_SKIP_SPECIAL ≠ 0 then isSpecial v id else .ok false) then pure (.ok [])
    else
      let off ← index v.tokOff id
      let tl := sub32 (← index v.tokOff (id + 1)) off
      if tl = 0 then pure (.error .range) -- unused id in a sparse vocabulary
      else do pure (.ok (← slice v.blob off tl))

/-- The loop of `bp_decode` from a total on. -/
def decodeFrom (v : BpVocab) (flags : Nat) (out : List UInt8) (total : Nat) :
    List Nat → Run (Except Err Nat × List UInt8)
  | [] => .ok (.ok total, out)
  | id :: ids => do
    match ← decodeId v flags id with
    | .error e => pure (.error e, out)
    | .ok bytes => decodeFrom v flags (← putBytes out total bytes) (total + bytes.length) ids

/-- `bp_decode` into the buffer `out`. -/
def bpDecode (c : BpCtx) (ids : List Nat) (out : List UInt8) (flags : Nat) :
    Run (Except Err Nat × List UInt8) :=
  decodeFrom c.v flags out 0 ids

end Bytepair
