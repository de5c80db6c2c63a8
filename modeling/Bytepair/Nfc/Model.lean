import Bytepair.Util
import Bytepair.Utf8
import Bytepair.Tables.Layout

/-!
# NFC normalization

`src/bp_nfc.c` over given tables: the two fast paths and the full path, which decomposes
into `work`, orders and composes it in place and encodes the result into `norm`. A
pointer that runs over the segment is the part of the segment still ahead of it.
-/

namespace Bytepair
open Support

def SBASE : Nat := 0xAC00
def LBASE : Nat := 0x1100
def VBASE : Nat := 0x1161
def TBASE : Nat := 0x11A7
def LCOUNT : Nat := 19
def VCOUNT : Nat := 21
def TCOUNT : Nat := 28
def NCOUNT : Nat := VCOUNT * TCOUNT
def SCOUNT : Nat := LCOUNT * NCOUNT

def isHangulS (cp : Nat) : Bool := SBASE ≤ cp && cp < SBASE + SCOUNT

/-- The segment is pure ASCII, eight bytes at a time while there are eight. -/
def allAscii : List UInt8 → Bool
  | b0 :: b1 :: b2 :: b3 :: b4 :: b5 :: b6 :: b7 :: p =>
    if littleEndian [b0, b1, b2, b3, b4, b5, b6, b7] &&& 0x8080808080808080 ≠ 0 then false
    else allAscii p
  | p => p.all fun b => b &&& 0x80 == 0

section Lookups

variable (T : Tables)

/-- A round of the quick check, at `p` with the class of the unit before it. -/
def nfcQuickRound : List UInt8 × Nat → Run (Flow (List UInt8 × Nat) Bool)
  | ([], _) => .ok (.done true)
  | (b0 :: rest, prev) =>
    let (cp, adv) := bpUtf8Next b0 rest
    let p := (b0 :: rest).drop adv
    if cp = malformed then .ok (.next (p, 0)) -- opaque byte
    else if cp < 0x80 then .ok (.next (p, 0))
    else
      let ccc := T.bpCcc cp
      if ccc ≠ 0 ∧ ccc < prev then .ok (.done false)
      else if T.bpNfcQc cp ≠ 1 then .ok (.done false)
      else .ok (.next (p, ccc))

/-- NFC quick check over the segment: true means definitely NFC already. -/
def nfcQuick (p : List UInt8) : Run Bool := loop (nfcQuickRound T) (p.length + 1) (p, 0)

/-- An entry of the work buffer. -/
structure Cpe where
  cp : Nat
  ccc : Nat
  deriving DecidableEq, Repr

/-- The entries one code point decomposes to. `bp_decomp` fills an array of four. -/
def decomposeOne (cp : Nat) : Run (List Cpe) :=
  if isHangulS cp then
    let s := cp - SBASE
    let lv := [⟨LBASE + s / NCOUNT, 0⟩, ⟨VBASE + s % NCOUNT / TCOUNT, 0⟩]
    .ok (if s % TCOUNT ≠ 0 then lv ++ [⟨TBASE + s % TCOUNT, 0⟩] else lv)
  else
    let d := T.bpDecomp cp
    if 4 < d.length then .error .outOfBounds
    else if d.length = 0 then .ok [⟨cp, T.bpCcc cp⟩]
    else .ok (d.map fun x => ⟨x, T.bpCcc x⟩)

/-- The composite of two code points, or 0: Hangul first, then the table. -/
def composePair (a b : Nat) : Nat :=
  if LBASE ≤ a ∧ a < LBASE + LCOUNT ∧ VBASE ≤ b ∧ b < VBASE + VCOUNT then
    SBASE + ((a - LBASE) * VCOUNT + (b - VBASE)) * TCOUNT
  else if isHangulS a ∧ (a - SBASE) % TCOUNT = 0 ∧ TBASE < b ∧ b < TBASE + TCOUNT then
    a + (b - TBASE)
  else T.bpCompose a b

/-- Write entries one after the other into a buffer with room for `cap`. -/
def emit {α : Type} (cap : Nat) (buf xs : List α) : Run (List α) := xs.foldlM (append cap) buf

/-- Put the entries of a decoded code point at the end of `buf`; `b0` is the byte it was
read at. -/
def decomposeInto (cap : Nat) (buf : List Cpe) (b0 : UInt8) (cp : Nat) : Run (List Cpe) :=
  if cp = malformed then append cap buf ⟨0x110000 + b0.toNat, 0⟩
  else do emit cap buf (← decomposeOne T cp)

/-- A round of the decomposition loop, at `p` with `buf` filled so far. -/
def decomposeRound (cap : Nat) : List UInt8 × List Cpe → Run (Flow (List UInt8 × List Cpe) (List Cpe))
  | ([], buf) => .ok (.done buf)
  | (b0 :: rest, buf) => do
    let (cp, adv) := bpUtf8Next b0 rest
    let buf ← decomposeInto T cap buf b0 cp
    pure (.next ((b0 :: rest).drop adv, buf))

/-- Move the entries above index `j` of larger class up by one. -/
def sinkRound (t : Cpe) (buf : List Cpe) : Nat → Run (Flow (List Cpe × Nat) (List Cpe × Nat))
  | 0 => .ok (.done (buf, 0))
  | j + 1 => do
    let x ← index buf j
    if x.ccc > t.ccc then pure (.next (← store buf (j + 1) x, j))
    else pure (.done (buf, j + 1))

/-- Put entry `i` where it belongs among the entries before it. -/
def reorderEntry (buf : List Cpe) (i : Nat) : Run (List Cpe) := do
  let t ← index buf i
  if t.ccc = 0 then pure buf
  else
    let (buf, j) ← loop (fun (buf, j) => sinkRound t buf j) (i + 1) (buf, i)
    store buf j t

/-- Canonical ordering: stable insertion sort within nonzero-class runs. -/
def reorderEntries (buf : List Cpe) : Run (List Cpe) :=
  (List.range' 1 (buf.length - 1)).foldlM reorderEntry buf

attribute [grind =] composePair

/-- The composition loop's variables: the buffer, the write index, and the index of the
last starter that can compose. -/
structure Composing where
  buf : List Cpe
  w : Nat
  starter : Option Nat

/-- Nothing between the starter at `k` and the entry blocks it. -/
def entryUnblocked (c : Composing) (k : Nat) (cur : Cpe) : Run Bool :=
  if c.w = k + 1 then .ok true
  else do pure (decide ((← index c.buf (c.w - 1)).ccc < cur.ccc))

/-- Where the entry composes, and the composite; nothing when it does not. -/
def compositeOf (c : Composing) (cur : Cpe) : Run (Option (Nat × Nat)) :=
  match c.starter with
  | none => .ok none
  | some k =>
    if cur.cp < 0x110000 then do
      if ← entryUnblocked c k cur then
        let comp := composePair T (← index c.buf k).cp cur.cp
        pure (if comp ≠ 0 then some (k, comp) else none)
      else pure none
    else .ok none

/-- A round of the composition loop. -/
def composeEntry (c : Composing) (i : Nat) : Run Composing := do
  let cur ← index c.buf i
  match ← compositeOf T c cur with
  | some (k, comp) =>
    let s ← index c.buf k
    pure { c with buf := ← store c.buf k { s with cp := comp } }
  | none =>
    let starter :=
      if cur.ccc = 0 then (if 0x110000 ≤ cur.cp then none else some c.w) else c.starter
    pure { buf := ← store c.buf c.w cur, w := c.w + 1, starter := starter }

/-- Canonical composition in place; what is before the write index at the end. -/
def composeEntries (buf : List Cpe) : Run (List Cpe) := do
  let c ← (List.range buf.length).foldlM (composeEntry T) ⟨buf, 0, none⟩
  pure (c.buf.take c.w)

/-- Encode the entries into a buffer of `cap` bytes. -/
def encodeEntries (cap : Nat) (buf : List Cpe) : Run (List UInt8) :=
  buf.foldlM (fun o e => emit cap o (encodeUnit e.cp)) []

/-- The full path of `bp_nfc`; an entry of the work buffer takes 8 bytes. -/
def bpNfcFull (m : Scratch) (seg : List UInt8) : Run (Except Err (List UInt8) × Scratch) := do
  let (work, m) ← bpBufReserve m m.work ((seg.length * 4 + 1) * 8)
  match work with
  | none => pure (.error .nomem, m)
  | some work =>
    let buf ← loop (decomposeRound T (work / 8)) (seg.length + 1) (seg, [])
    let buf ← reorderEntries buf
    let buf ← composeEntries T buf
    let (norm, m) ← bpBufReserve { m with work := work } m.norm (buf.length * 4 + 1)
    match norm with
    | none => pure (.error .nomem, m)
    | some norm => pure (.ok (← encodeEntries norm buf), { m with norm := norm })

/-- `bp_nfc`: the segment itself, or its normal form written to `norm`. -/
def bpNfc (nfcFlag : Bool) (m : Scratch) (seg : List UInt8) :
    Run (Except Err (List UInt8) × Scratch) :=
  if !nfcFlag || seg.length = 0 || allAscii seg then .ok (.ok seg, m)
  else do
    if ← nfcQuick T seg then pure (.ok seg, m) else bpNfcFull T m seg

end Lookups

end Bytepair
