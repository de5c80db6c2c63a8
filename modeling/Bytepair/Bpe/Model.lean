import Bytepair.Vocab.Model
import Bytepair.Support.BinaryHeap

/-!
# Byte-pair merging

`src/bp_bpe.c`: the merge of one pretoken by a flat rescan or by a linked list and a lazy
heap, and the cache in front of them. The links of the list are `int32_t`, the positions in
the heap `uint32_t`, as in the source.
-/

namespace Bytepair
open Support Support.BinaryHeap

def SHORT_MAX : Nat := 64
def CACHE_MAX_BYTES : Nat := 38
def CACHE_MAX_IDS : Nat := 16

/-- `bp_cache_ent`; `len` 0 is an empty slot. -/
structure CacheEnt where
  hash : Nat
  len : Nat
  nids : Nat
  bytes : List UInt8
  ids : List Nat

/-- `bp_ctx`. -/
structure BpCtx where
  v : BpVocab
  scratch : Scratch
  cache : Option (List CacheEnt)
  cacheMask : Nat
  envForceScalar : Bool

/-- `bp_sink`: the caller's buffer of `cap` cells, and the ids counted so far. -/
structure BpSink where
  out : List Nat
  total : Nat

/-- `memcpy` of a list of cells to an offset of a buffer. -/
def copyTo {α : Type} (out : List α) (off : Nat) (xs : List α) : Run (List α) :=
  if off + xs.length ≤ out.length then .ok (out.take off ++ xs ++ out.drop (off + xs.length))
  else .error .outOfBounds

/-- `bp_sink_put`. -/
def bpSinkPut (s : BpSink) (ids : List Nat) : Run BpSink :=
  if s.total < s.out.length then do
    let room := s.out.length - s.total
    let out ← copyTo s.out s.total (ids.take room)
    pure ⟨out, s.total + ids.length⟩
  else .ok ⟨s.out, s.total + ids.length⟩

/-- `bp_sink_put1`. -/
def bpSinkPut1 (s : BpSink) (id : Nat) : Run BpSink :=
  if s.total < s.out.length then do pure ⟨← store s.out s.total id, s.total + 1⟩
  else .ok ⟨s.out, s.total + 1⟩

/-! The short path. -/

/-- The best pair so far: its rank, its merged id and where it is. -/
structure Best where
  rank : Nat
  id : Nat
  pos : Nat

/-- A round of the scan for the pair to merge next. -/
def shortScanRound (v : BpVocab) (ids : List Nat) (best : Best) (i : Nat) : Run Best := do
  let val ← bpPairLookup v (← index ids i) (← index ids (i + 1))
  if val = BPV_PAIR_EMPTY then pure best
  else
    let rank := val >>> 32
    pure (if rank < best.rank then ⟨rank, val % 2 ^ 32, i⟩ else best)

/-- A round of `merge_short`: merge the best pair, or stop. -/
def shortRound (v : BpVocab) (ids : List Nat) : Run (Flow (List Nat) (List Nat)) :=
  if 2 ≤ ids.length then do
    let best ← (List.range (ids.length - 1)).foldlM (shortScanRound v ids) ⟨0xFFFFFFFF, 0, ids.length⟩
    if best.pos = ids.length then pure (.done ids)
    else
      let ids ← store ids best.pos best.id
      pure (.next (ids.take (best.pos + 1) ++ ids.drop (best.pos + 2)))
  else .ok (.done ids)

def mergeShort (v : BpVocab) (ids : List Nat) : Run (List Nat) :=
  loop (shortRound v) (ids.length + 1) ids

/-! The long path. -/

/-- `heap_ent`: `pos` and `gen` are of the left element at push time. -/
structure HeapEnt where
  rank : Nat
  pos : Nat
  gen : Nat
  deriving DecidableEq

structure Node where
  id : Nat
  prev : Int
  next : Int
  gen : Nat

/-- A conversion to `int32_t`. -/
def int32 (x : Int) : Int := x.bmod (2 ^ 32)

/-- A conversion to `uint32_t`. -/
def uint32 (x : Nat) : Nat := x % 2 ^ 32

def heapLess (a b : HeapEnt) : Bool :=
  if a.rank ≠ b.rank then a.rank < b.rank else a.pos < b.pos -- leftmost tie-break

section Long

variable (v : BpVocab) (heapCap : Nat)

/-- Push the pair at node `l` and node `r`, if the table has it; the heap has `heapCap` cells. -/
def pushPair (nd : List Node) (heap : List HeapEnt) (l r gen : Nat) : Run (List HeapEnt) := do
  let x ← index nd l
  let y ← index nd r
  let val ← bpPairLookup v x.id y.id
  if val = BPV_PAIR_EMPTY then pure heap
  else push heapLess heapCap heap ⟨val >>> 32, uint32 l, gen⟩

/-- `nd[k].prev = i`, if `k` is a node. -/
def setPrev (nd : List Node) (k : Int) (i : Nat) : Run (List Node) :=
  if 0 ≤ k then do
    let z ← index nd k.toNat
    store nd k.toNat { z with prev := int32 i }
  else pure nd

/-- Merge node `j` into node `i` before it, as `id`, and take it out of the list. -/
def unlink (nd : List Node) (i j id : Nat) : Run (List Node) := do
  let x ← index nd i
  let y ← index nd j
  let nd ← store nd i { x with id, gen := uint32 (x.gen + 1), next := y.next }
  let nd ← setPrev nd y.next i
  let y ← index nd j
  store nd j { y with next := -1, prev := -1 } -- dead

/-- The entry is of a live pair. -/
def liveEnt (nd : List Node) (e : HeapEnt) : Run Bool := do
  let x ← index nd e.pos
  pure (x.gen = e.gen && 0 ≤ x.next)

/-- Drop the stale entries and build the heap again. -/
def compact (nd : List Node) (heap : List HeapEnt) : Run (List HeapEnt) := do
  let kept ← heap.filterM (liveEnt nd)
  kept.foldlM (push heapLess heapCap) []

/-- Compact a heap without room for two more entries. -/
def makeRoom (nd : List Node) (heap : List HeapEnt) : Run (List HeapEnt) :=
  if heapCap < heap.length + 2 then compact heapCap nd heap else pure heap

def pushLeft (nd : List Node) (heap : List HeapEnt) (i : Nat) : Run (List HeapEnt) := do
  let x ← index nd i
  if 0 ≤ x.prev then do
    let l ← index nd x.prev.toNat
    pushPair v heapCap nd heap x.prev.toNat i l.gen
  else pure heap

def pushRight (nd : List Node) (heap : List HeapEnt) (i : Nat) : Run (List HeapEnt) := do
  let x ← index nd i
  if 0 ≤ x.next then pushPair v heapCap nd heap i x.next.toNat x.gen else pure heap

/-- A round of the merge loop: take the least entry; where it is not out of date, merge. -/
def longRound :
    List Node × List HeapEnt → Run (Flow (List Node × List HeapEnt) (Except Err (List Node)))
  | (nd, heap) =>
    if heap.length = 0 then .ok (.done (.ok nd))
    else do
      let (e, heap) ← pop heapLess heap
      let x ← index nd e.pos
      if x.gen ≠ e.gen || x.next < 0 then pure (.next (nd, heap)) -- stale
      else
        let j := x.next.toNat
        let y ← index nd j
        let val ← bpPairLookup v x.id y.id
        if val = BPV_PAIR_EMPTY || val >>> 32 ≠ e.rank then pure (.next (nd, heap)) -- pair changed since push
        else
          let nd ← unlink nd e.pos j (val % 2 ^ 32)
          let heap ← makeRoom heapCap nd heap
          if heapCap < heap.length + 2 then pure (.done (.error .nomem))
          else
            let heap ← pushLeft v heapCap nd heap e.pos
            pure (.next (nd, ← pushRight v heapCap nd heap e.pos))

/-- A round of the walk over the list that is left, with room for `cap` ids. -/
def walkIds (nd : List Node) (cap : Nat) : Int × List Nat → Run (Flow (Int × List Nat) (List Nat))
  | (i, ids) =>
    if 0 ≤ i then do
      let x ← index nd i.toNat
      let ids ← append cap ids x.id
      pure (.next (x.next, ids))
    else .ok (.done ids)

/-- The nodes of a pretoken. -/
def initNodes (p : List UInt8) : Run (List Node) :=
  (List.range p.length).mapM fun i => do
    let id ← index v.byteId (← index p i).toNat
    pure ⟨id, int32 (int32 i - 1), if i + 1 < p.length then int32 (i + 1) else -1, 0⟩

/-- The first heap: every pair of neighbours, of generation 0. -/
def initHeap (nd : List Node) (n : Nat) : Run (List HeapEnt) :=
  (List.range (n - 1)).foldlM (fun heap i => pushPair v heapCap nd heap i (i + 1) 0) []

attribute [grind =] setPrev unlink longRound walkIds

end Long

def SIZEOF_NODE : Nat := 16
def SIZEOF_HEAP_ENT : Nat := 12

/-- `merge_long`, from the nodes to the nodes that are left. -/
def mergeLongIn (v : BpVocab) (p : List UInt8) : Run (Except Err (List Node)) := do
  let n := p.length
  let nd ← initNodes v p
  let heap ← initHeap v (2 * n) nd n
  loop (longRound v (2 * n)) (3 * n + 1) (nd, heap)

/-- What was asked of a buffer is inside it. -/
def inside (cap need : Nat) : Run Unit := if cap < need then .error .outOfBounds else .ok ()

def mergeLong (c : BpCtx) (p : List UInt8) (s : BpSink) : Run (Except Err Unit × (BpCtx × BpSink)) := do
  let n := p.length
  let need := n * SIZEOF_NODE + 2 * n * SIZEOF_HEAP_ENT
  match ← bpBufReserve c.scratch c.scratch.work need with
  | (none, m) => pure (.error .nomem, ({ c with scratch := m }, s))
  | (some cap, m) =>
    let c := { c with scratch := { m with work := cap } }
    inside cap need
    match ← mergeLongIn c.v p with
    | .error e => pure (.error e, (c, s))
    | .ok nd =>
      match ← bpIdsReserve c.scratch n with
      | (none, m) => pure (.error .nomem, ({ c with scratch := m }, s))
      | (some cap, m) =>
        let c := { c with scratch := { m with ids := cap } }
        inside cap n
        let ids ← loop (walkIds nd n) (n + 1) (0, [])
        pure (.ok (), (c, ← bpSinkPut s ids))

/-! The entry point, with the cache. -/

/-- The rounds of `bp_hash_bytes`, a word at a time. -/
def hashWords (h : Nat) : List UInt8 → Nat
  | b0 :: b1 :: b2 :: b3 :: b4 :: b5 :: b6 :: b7 :: p =>
    hashWords (bpFmix64 (h ^^^ littleEndian [b0, b1, b2, b3, b4, b5, b6, b7])) p
  | [] => h
  | p => bpFmix64 (h ^^^ littleEndian p)

/-- `bp_hash_bytes`. -/
def bpHashBytes (p : List UInt8) : Nat :=
  hashWords (0xCBF29CE484222325 ^^^ (p.length * 0x9E3779B97F4A7C15 % 2 ^ 64)) p

/-- The cache entry of a pretoken holds it. -/
def entHit (ent : CacheEnt) (h : Nat) (p : List UInt8) : Bool :=
  ent.len = p.length && ent.hash = h && ent.bytes.take p.length = p

/-- What the cache is asked for a pretoken: its hash, and the entry it would be in. -/
def entryOf (c : BpCtx) (p : List UInt8) : Run (Option (Nat × CacheEnt)) :=
  match c.cache with
  | none => .ok none
  | some cache =>
    if p.length ≤ CACHE_MAX_BYTES then do
      let h := bpHashBytes p
      pure (some (h, ← index cache (h &&& c.cacheMask)))
    else .ok none

/-- Write the ids of a pretoken to its entry. -/
def fillEntry (c : BpCtx) (h : Nat) (ent : CacheEnt) (p : List UInt8) (ids : List Nat) : Run BpCtx := do
  let bytes ← copyTo ent.bytes 0 p
  let entIds ← copyTo ent.ids 0 ids
  let ent : CacheEnt := ⟨h, p.length % 2 ^ 8, ids.length % 2 ^ 8, bytes, entIds⟩
  match c.cache with
  | none => .error .outOfBounds
  | some cache => do pure { c with cache := some (← store cache (h &&& c.cacheMask) ent) }

/-- Keep the ids of a pretoken, if it has an entry they fit in. -/
def keepIds (c : BpCtx) (entry : Option (Nat × CacheEnt)) (p : List UInt8) (ids : List Nat) : Run BpCtx :=
  match entry with
  | some (h, ent) => if ids.length ≤ CACHE_MAX_IDS then fillEntry c h ent p ids else pure c
  | none => pure c

/-- The merge of a pretoken that the cache does not have. -/
def mergePretoken (c : BpCtx) (p : List UInt8) (s : BpSink) (entry : Option (Nat × CacheEnt)) :
    Run (Except Err Unit × (BpCtx × BpSink)) :=
  if SHORT_MAX < p.length then mergeLong c p s
  else do
    let ids ← p.mapM fun b => index c.v.byteId b.toNat
    let ids ← mergeShort c.v ids
    let c ← keepIds c entry p ids
    pure (.ok (), (c, ← bpSinkPut s ids))

/-- `bp_bpe_pretoken`. -/
def bpBpePretoken : BpCtx × BpSink → List UInt8 → Run (Except Err Unit × (BpCtx × BpSink))
  | (c, s), [] => .ok (.ok (), (c, s))
  | (c, s), [b] => do
    let id ← index c.v.byteId b.toNat
    pure (.ok (), (c, ← bpSinkPut1 s id))
  | (c, s), [b0, b1] => do
    let a ← index c.v.byteId b0.toNat
    let b ← index c.v.byteId b1.toNat
    let val ← bpPairLookup c.v a b
    if val ≠ BPV_PAIR_EMPTY then pure (.ok (), (c, ← bpSinkPut1 s (val % 2 ^ 32)))
    else pure (.ok (), (c, ← bpSinkPut1 (← bpSinkPut1 s a) b))
  | (c, s), p => do
    let entry ← entryOf c p
    match entry.filter fun e => entHit e.2 e.1 p with
    | some (_, ent) => pure (.ok (), (c, ← bpSinkPut s (ent.ids.take ent.nids)))
    | none => mergePretoken c p s entry

end Bytepair
