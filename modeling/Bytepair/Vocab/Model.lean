import Bytepair.Util

/-!
# The vocabulary image

The `.bpv` loader, `src/bp_vocab.c`, and the pair lookup of `src/bp_internal.h`. The file
is its bytes; a section is the list of the words it holds, so that a read outside a
section is a fault even where the file goes on. Words are numbers below their width.
-/

namespace Bytepair
open Support

def BPV_MAGIC : Nat := 0x31565042
def BPV_FLAG_NFC : Nat := 1
def BPV_PROFILE_GPT4 : Nat := 1
def BPV_FIRST_SECTION : Nat := 192
def BPV_PAIR_EMPTY : Nat := 0xFFFFFFFFFFFFFFFF

/-- `n` little-endian words of `k` bytes. -/
def words (k : Nat) : Nat → List UInt8 → List Nat
  | 0, _ => []
  | n + 1, bs => littleEndian (bs.take k) :: words k n (bs.drop k)

/-- The word of `k` bytes at an offset. -/
def wordAt (k : Nat) (bs : List UInt8) (off : Nat) : Nat := littleEndian ((bs.drop off).take k)

/-- Subtraction on `uint32_t`. -/
def sub32 (a b : Nat) : Nat := (a + 2 ^ 32 - b) % 2 ^ 32

/-- `bpv_section`. -/
structure BpvSection where
  off : Nat
  size : Nat
  deriving DecidableEq

/-- `bpv_header`. -/
structure BpvHeader where
  magic : Nat
  formatVersion : Nat
  flags : Nat
  profileId : Nat
  vocabCount : Nat
  addedCount : Nat
  pairSlotsLog2 : Nat
  tokenOffsets : BpvSection
  tokenBlob : BpvSection
  pairTable : BpvSection
  byteToId : BpvSection
  added : BpvSection
  metaInfo : BpvSection
  deriving DecidableEq

/-- `bpv_added`. -/
structure BpvAdded where
  id : Nat
  offset : Nat
  len : Nat
  flags : Nat
  deriving DecidableEq

/-- `bp_vocab`: the sections a handle points into, and the added-token matcher. -/
structure BpVocab where
  hdr : BpvHeader
  tokOff : List Nat
  blob : List UInt8
  pairs : List Nat
  pairMask : Nat
  byteId : List Nat
  added : List BpvAdded
  metaName : List UInt8
  addedOrder : List Nat
  addedFirst : UInt8
  addedSingleFirst : Bool
  addedFirstMap : List UInt8
  useAvx2 : Bool
  deriving DecidableEq

/-- What the process finds around it: the CPU, and the allocator's answers. -/
structure Host where
  avx2 : Bool
  calloc : Bool
  malloc : Bool

/-- `memcpy(&h, map, BPV_HDR_BYTES)`. -/
def BpvHeader.read (map : List UInt8) : BpvHeader :=
  let sec i : BpvSection := ⟨wordAt 8 map (32 + 16 * i), wordAt 8 map (40 + 16 * i)⟩
  { magic := wordAt 4 map 0
    formatVersion := wordAt 4 map 4
    flags := wordAt 4 map 8
    profileId := wordAt 4 map 12
    vocabCount := wordAt 4 map 16
    addedCount := wordAt 4 map 20
    pairSlotsLog2 := wordAt 4 map 24
    tokenOffsets := sec 0
    tokenBlob := sec 1
    pairTable := sec 2
    byteToId := sec 3
    added := sec 4
    metaInfo := sec 5 }

/-- The bytes of a section. -/
def BpvSection.bytes (s : BpvSection) (map : List UInt8) : List UInt8 := (map.drop s.off).take s.size

def sectionOk (s : BpvSection) (fileSize elem : Nat) : Bool :=
  if s.off < BPV_FIRST_SECTION || s.off &&& 63 ≠ 0 then false
  else if fileSize < s.off || fileSize - s.off < s.size then false
  else if elem ≠ 0 && s.size % elem ≠ 0 then false
  else true

/-- The checks on the fixed fields. -/
def headerOk (h : BpvHeader) : Bool :=
  h.magic = BPV_MAGIC && h.formatVersion = 1 && h.profileId = BPV_PROFILE_GPT4 &&
    h.vocabCount ≠ 0 && h.vocabCount ≤ 2 ^ 21 && h.addedCount ≤ 64 && h.pairSlotsLog2 ≤ 32

/-- `1ull << h.pair_slots_log2`. -/
def BpvHeader.slots (h : BpvHeader) : Nat := 1 <<< h.pairSlotsLog2

def sectionsOk (h : BpvHeader) (size : Nat) : Bool :=
  sectionOk h.tokenOffsets size 4 && h.tokenOffsets.size = 4 * (h.vocabCount + 1) &&
    sectionOk h.tokenBlob size 0 &&
    sectionOk h.pairTable size 16 && h.pairTable.size = 16 * h.slots &&
    sectionOk h.byteToId size 4 && h.byteToId.size = 1024 &&
    sectionOk h.added size 16 && h.added.size = 16 * h.addedCount &&
    sectionOk h.metaInfo size 0

/-- Two sections share bytes, as the loader tests it. -/
def overlap (s t : BpvSection) : Bool := s.off < t.off + t.size && t.off < s.off + s.size

/-- No section overlaps one behind it in the list. -/
def noOverlap : List BpvSection → Bool
  | [] => true
  | s :: ss => ss.all (fun t => !overlap s t) && noOverlap ss

def BpvHeader.sections (h : BpvHeader) : List BpvSection :=
  [h.tokenOffsets, h.tokenBlob, h.pairTable, h.byteToId, h.added, h.metaInfo]

/-- The offsets are monotonic and stay inside the blob. -/
def offsetsOk (h : BpvHeader) (tokOff : List Nat) : Run Bool := do
  let mono ← allM (List.range h.vocabCount) fun i => do
    pure ((← index tokOff i) ≤ (← index tokOff (i + 1)))
  if mono then pure ((← index tokOff h.vocabCount) ≤ h.tokenBlob.size) else pure false

/-- A round of the loop over the slots: slot `s`, and how many before it are occupied. -/
def pairRound (h : BpvHeader) (pairs : List Nat) : Nat × Nat → Run (Flow (Nat × Nat) (Option Nat))
  | (s, occupied) =>
    if s < h.slots then do
      let key ← index pairs (s * 2)
      if key = BPV_PAIR_EMPTY then pure (.next (s + 1, occupied))
      else
        let value ← index pairs (s * 2 + 1)
        if h.vocabCount ≤ key >>> 32 || h.vocabCount ≤ key % 2 ^ 32 || h.vocabCount ≤ value % 2 ^ 32 then
          pure (.done none)
        else pure (.next (s + 1, occupied + 1))
    else .ok (.done (some occupied))

/-- Every occupied slot is in range, and at most 65 percent of them are occupied. -/
def pairsOk (h : BpvHeader) (pairs : List Nat) : Run Bool := do
  match ← loop (pairRound h pairs) (h.slots + 1) (0, 0) with
  | none => pure false
  | some occupied => pure (occupied ≤ h.slots * 13 / 20)

/-- Byte `i` maps to the token that is that byte. -/
def byteOk (h : BpvHeader) (tokOff : List Nat) (blob : List UInt8) (byteId : List Nat) (i : Nat) : Run Bool := do
  let id ← index byteId i
  if h.vocabCount ≤ id then pure false
  else
    let off ← index tokOff id
    if sub32 (← index tokOff (id + 1)) off ≠ 1 then pure false
    else pure ((← index blob off) = UInt8.ofNat i)

/-- The added records are what the token table says of their ids, in the order of ids. -/
def addedOk (h : BpvHeader) (tokOff : List Nat) : Option Nat → List BpvAdded → Run Bool
  | _, [] => .ok true
  | prev, a :: as =>
    if h.vocabCount ≤ a.id || a.len = 0 || 250 < a.len then .ok false
    else do
      let off ← index tokOff a.id
      let len := sub32 (← index tokOff (a.id + 1)) off
      if a.offset ≠ off || a.len ≠ len then pure false
      else if prev.any (a.id ≤ ·) then pure false
      else addedOk h tokOff (some a.id) as

def addedRecords : List Nat → List BpvAdded
  | id :: offset :: len :: flags :: ws => ⟨id, offset, len, flags⟩ :: addedRecords ws
  | _ => []

/-- A round of the insertion sort: record `k` sinks into the sorted records before it, which
are given last first. -/
def insertOrder (len : Nat → Nat) (k : Nat) : List Nat → List Nat
  | [] => [k]
  | j :: js => if len j < len k then j :: insertOrder len k js else k :: j :: js

/-- Candidate indexes, longest token first. -/
def orderByLength (len : Nat → Nat) (n : Nat) : List Nat :=
  ((List.range n).foldl (fun js k => insertOrder len k js) []).reverse

/-- `added_first_map[fb >> 3] |= 1 << (fb & 7)`. -/
def setFirst (map : List UInt8) (fb : UInt8) : List UInt8 :=
  map.modify (fb >>> 3).toNat (· ||| (1 <<< (fb &&& 7)))

/-- The added-token matcher of the records. -/
def withMatcher (v : BpVocab) : Run BpVocab :=
  match v.added with
  | [] => .ok v
  | a :: _ => do
    let first ← index v.blob a.offset
    let firsts ← v.added.mapM fun a => index v.blob a.offset
    pure { v with
      addedFirst := first
      addedSingleFirst := firsts.all (· = first)
      addedFirstMap := firsts.foldl setFirst v.addedFirstMap
      addedOrder := orderByLength (fun k => (v.added[k]?.map BpvAdded.len).getD 0) v.added.length }

/-- `bp_vocab_open` on the bytes of the file. -/
def bpVocabOpen (host : Host) (map : List UInt8) : Run (Except Err BpVocab) := do
  if map.length < BPV_FIRST_SECTION then return .error .io
  let h := BpvHeader.read map
  if !headerOk h then return .error .format
  if !sectionsOk h map.length then return .error .format
  if !noOverlap h.sections then return .error .format
  let tokOff := words 4 (h.vocabCount + 1) (h.tokenOffsets.bytes map)
  if !(← offsetsOk h tokOff) then return .error .format
  let pairs := words 8 (h.slots * 2) (h.pairTable.bytes map)
  if !(← pairsOk h pairs) then return .error .format
  let blob := h.tokenBlob.bytes map
  let byteId := words 4 256 (h.byteToId.bytes map)
  if !(← allM (List.range 256) (byteOk h tokOff blob byteId)) then return .error .format
  let added := addedRecords (words 4 (h.addedCount * 4) (h.added.bytes map))
  if !(← addedOk h tokOff none added) then return .error .format
  if h.metaInfo.size < 4 then return .error .format
  if !host.calloc then return .error .nomem
  let m := h.metaInfo.bytes map
  let nlen := wordAt 4 m 0
  if h.metaInfo.size - 4 < nlen then return .error .format
  if !host.malloc then return .error .nomem
  let v ← withMatcher
    { hdr := h, tokOff, blob, pairs, pairMask := h.slots - 1, byteId, added
      metaName := (m.drop 4).take nlen
      addedOrder := [], addedFirst := 0, addedSingleFirst := false
      addedFirstMap := List.replicate 32 0, useAvx2 := host.avx2 }
  return .ok v

/-- `bp_fmix64`. -/
def bpFmix64 (h : Nat) : Nat :=
  let h := h ^^^ (h >>> 33)
  let h := h * 0xFF51AFD7ED558CCD % 2 ^ 64
  let h := h ^^^ (h >>> 33)
  let h := h * 0xC4CEB9FE1A85EC53 % 2 ^ 64
  h ^^^ (h >>> 33)

/-- A round of the probe: `slot` holds the key, or nothing, or another key. -/
def lookupRound (v : BpVocab) (key : Nat) (slot : Nat) : Run (Support.Flow Nat Nat) := do
  let k ← index v.pairs (slot * 2)
  if k = key then pure (.done (← index v.pairs (slot * 2 + 1)))
  else if k = BPV_PAIR_EMPTY then pure (.done BPV_PAIR_EMPTY)
  else pure (.next ((slot + 1) &&& v.pairMask))

/-- `bp_pair_lookup`: a loop that is over within as many rounds as there are slots. -/
def bpPairLookup (v : BpVocab) (a b : Nat) : Run Nat :=
  let key := a <<< 32 ||| b
  loop (lookupRound v key) (v.pairMask + 1) (bpFmix64 key &&& v.pairMask)

end Bytepair
