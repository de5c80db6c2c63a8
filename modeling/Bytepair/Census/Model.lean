import Bytepair.Census.Prover
import Bytepair.Encode.Model

/-!
# The census

The search for witnesses of `src/bp_census.c`, `census_token` and `bp_census_run`. What a run
leaves behind is its rows, the numbers of witnesses it encoded again and of those that failed,
and the context. A witness is its bytes, so a buffer that holds none is no witness.
-/

namespace Bytepair
open Support

def WMAX : Nat := 320

/-- `CV_*`. -/
inductive CensusVerdict where
  | added
  | self
  | context
  | impossible
  | unresolved
  deriving DecidableEq

/-- `cres`; the witness is the first `wlen` bytes of its buffer. -/
structure CensusResult where
  verdict : CensusVerdict
  reason : CensusReason
  witness : List UInt8
  searched : Nat

/-- `utf8_valid`. -/
def utf8Valid : Nat → List UInt8 → Bool
  | fuel + 1, b :: rest =>
    let (cp, adv) := bpUtf8Next b rest
    if cp = malformed then false else utf8Valid fuel ((b :: rest).drop adv)
  | _, _ => true

section Search

variable (T : Tables)

/-- `contains_id`, on `n` cells from the `i`-th on. -/
def containsId (ids : List Nat) (t : Nat) : Nat → Nat → Run Bool
  | _, 0 => .ok false
  | i, n + 1 => do if (← index ids i) = t then pure true else containsId ids t (i + 1) n

/-- `try_witness`: the bytes between an affix in front and one behind. -/
def tryWitness (c : BpCtx) (t : Nat) (tb : List UInt8) (affix : List UInt8 × List UInt8) :
    Run (Option (List UInt8) × BpCtx) :=
  let w := affix.1 ++ tb ++ affix.2
  if WMAX < w.length then .ok (none, c)
  else if !utf8Valid w.length w then .ok (none, c)
  else do
    match ← bpEncode T c w (List.replicate (WMAX + 8) 0) 0 with
    | (.error _, (c, _)) => pure (none, c)
    | (.ok n, (c, out)) =>
      let found ← (if 0 < n && n ≤ WMAX + 8 then containsId out t 0 n else .ok false)
      pure (if found then some w else none, c)

/-- The first of some steps that comes to a witness, and how many were made. -/
def firstWitness {α : Type} (step : BpCtx → α → Run (Option (List UInt8) × BpCtx)) :
    BpCtx → List α → Run (Option (List UInt8) × BpCtx)
  | c, [] => .ok (none, c)
  | c, x :: xs => do
    match ← step c x with
    | (some w, c) => pure (some w, c)
    | (none, c) => firstWitness step c xs

/-- `pure_is_single`. -/
def pureIsSingle (c : BpCtx) (tb : List UInt8) (t : Nat) : Run (Bool × BpCtx) :=
  if WMAX < tb.length then .ok (false, c)
  else do
    match ← bpBpePretoken (c, ⟨List.replicate (WMAX + 8) 0, 0⟩) tb with
    | (.error _, (c, _)) => pure (false, c)
    | (.ok _, (c, s)) => pure (s.total = 1 && s.out.head? = some t, c)

end Search

section Glue

def pad : List UInt8 := [0x80, 0x90, 0xA0, 0xB1, 0x8F, 0x9F]
def leads : List UInt8 := [0xC2, 0xC3, 0xD0, 0xE0, 0xE1, 0xE4, 0xEA, 0xED, 0xF0, 0xF1, 0xF3, 0xF4]
def pads2 : List UInt8 := [0x80, 0x90, 0xA0, 0xB1]
def leads2 : List UInt8 := [0xE0, 0xE1, 0xE4, 0xED, 0xF0, 0xF1, 0xF3, 0xF4]

/-- Where the bytes behind whole characters start: at a byte that leads nothing, at a character that is cut
off, or at the end. Only the lengths that leads announce are looked at. -/
def tailAt : Nat → List UInt8 → List UInt8
  | fuel + 1, b :: rest =>
    let need := utf8LenFromLead b
    if need = 0 || rest.length + 1 < need then b :: rest else tailAt fuel ((b :: rest).drop need)
  | _, p => p

/-- How many bytes the last character lacks, if the bytes behind the whole ones begin one. -/
def tailPad : List UInt8 → Option Nat
  | [] => some 0
  | b :: rest =>
    let need := utf8LenFromLead b
    if need = 0 || rest.any notCont then none else some (need - 1 - rest.length)

/-- The affixes of `try_glue` for a token whose first `k` bytes end a character. -/
def glueAffixes (tb : List UInt8) (k : Nat) : List (List UInt8 × List UInt8) :=
  if tb.length < k || (tb.take k).any notCont then []
  else
    match tailPad (tailAt tb.length (tb.drop k)) with
    | none => []
    | some tail =>
      let pres : List (List UInt8) := if k = 0 then [[]]
        else leads.flatMap fun lead =>
          if utf8LenFromLead lead < k + 1 then []
          else pad.map fun p => lead :: List.replicate (utf8LenFromLead lead - 1 - k) p
      let sufs := if tail = 0 then [[]] else pad.map (List.replicate tail)
      (pres.flatMap fun pre => sufs.map fun suf => (pre, suf)).filter fun a =>
        a.1.length + tb.length + a.2.length ≤ WMAX && 0 < a.1.length + a.2.length

/-- The affixes that place the token inside one character. -/
def insideAffixes (tb : List UInt8) : List (List UInt8 × List UInt8) :=
  if tb.length ≤ 2 && !tb.any notCont && 0 < tb.length then
    leads2.flatMap fun lead => (List.range' 1 (4 - tb.length)).flatMap fun off =>
      if utf8LenFromLead lead < off + tb.length then []
      else pads2.map fun p =>
        (lead :: List.replicate (off - 1) p, List.replicate (utf8LenFromLead lead - (off + tb.length)) p)
  else []

variable (T : Tables)

/-- `try_glue`. -/
def tryGlue (c : BpCtx) (t : Nat) (tb : List UInt8) : Run (Option (List UInt8) × BpCtx) :=
  firstWitness (fun c => tryWitness T c t tb) c ((List.range 4).flatMap (glueAffixes tb) ++ insideAffixes tb)

end Glue

section Exhaustive

/-- A character that follows: its first byte and its padding. -/
def follower (yy : Nat) : List UInt8 :=
  let m2 := if yy ≤ 0x7E then 1 else utf8LenFromLead (UInt8.ofNat yy)
  let padb : UInt8 := if yy = 0xE0 then 0xA0 else if yy = 0xF0 then 0x90 else 0x80
  UInt8.ofNat yy :: List.replicate (m2 - 1) padb

/-- The first bytes of the characters that follow, from `lo` to 0xF4. -/
def followers (lo : Nat) : List Nat :=
  (List.range' lo (0xF5 - lo)).filter fun yy => yy ≤ 0x7E || utf8LenFromLead (UInt8.ofNat yy) ≠ 0

/-- `n` continuation bytes by the low bits of a number, lowest first. -/
def contDigits : Nat → Nat → List UInt8
  | 0, _ => []
  | n + 1, v => (0x80 ||| UInt8.ofNat (v % 64)) :: contDigits n (v / 64)

/-- The completions of a token that begins a character, by one character and by two. -/
def completions (tb : List UInt8) : List (List UInt8 × List UInt8) :=
  let need := utf8LenFromLead (tb.headD 0)
  if 0 < need && tb.length < need then
    let missing := need - tb.length
    if missing ≤ 2 then
      (List.range (64 ^ missing)).map (fun v => ([], contDigits missing v)) ++
        if missing = 1 then
          (List.range' 0x80 64).flatMap fun b1 => (followers 0x21).map fun yy => ([], UInt8.ofNat b1 :: follower yy)
        else []
    else []
  else []

/-- The affixes that place a run of continuation bytes inside one character. -/
def continuationAffixes (tb : List UInt8) : List (List UInt8 × List UInt8) :=
  if tb.any notCont then []
  else
    (List.range' 0xC2 51).flatMap fun lead =>
      let m := utf8LenFromLead (UInt8.ofNat lead)
      (List.range' 1 (m - tb.length)).flatMap fun off =>
        let padn := m - 1 - tb.length
        if 2 < padn then []
        else (List.range (64 ^ padn)).map fun v =>
          let digits := contDigits padn v
          (UInt8.ofNat lead :: digits.take (off - 1), digits.drop (off - 1))

variable (T : Tables)

/-- The rank steal behind one completing byte `xx`, whose merge with the token has rank `r1`. -/
def stealFrom (c : BpCtx) (t : Nat) (tb : List UInt8) (xx r1 : Nat) : Run (Option (List UInt8) × BpCtx) :=
  firstWitness (fun c yy => do
    let steal ← bpPairLookup c.v (← index c.v.byteId xx) (← index c.v.byteId yy)
    if steal = BPV_PAIR_EMPTY || r1 ≤ steal >>> 32 then pure (none, c)
    else tryWitness T c t tb ([], UInt8.ofNat xx :: follower yy)) c (followers 0x20)

/-- The rank steal for a token that is the first byte of a character of two. -/
def trySteal (c : BpCtx) (t : Nat) (tb : List UInt8) : Run (Option (List UInt8) × BpCtx) :=
  match tb with
  | [b] =>
    if utf8LenFromLead b = 2 then
      firstWitness (fun c xx => do
        let absorb ← bpPairLookup c.v (← index c.v.byteId b.toNat) (← index c.v.byteId xx)
        if absorb = BPV_PAIR_EMPTY then pure (none, c)
        else stealFrom T c t tb xx (absorb >>> 32)) c (List.range' 0x80 64)
    else .ok (none, c)
  | _ => .ok (none, c)

/-- `try_fragment_exhaustive`. -/
def tryFragmentExhaustive (c : BpCtx) (t : Nat) (tb : List UInt8) : Run (Option (List UInt8) × BpCtx) :=
  if 3 < tb.length then .ok (none, c)
  else if utf8LenFromLead (tb.headD 0) = 0 && notCont (tb.headD 0) then .ok (none, c)
  else do
    match ← firstWitness (fun c => tryWitness T c t tb) c (completions tb) with
    | (some w, c) => pure (some w, c)
    | (none, c) =>
      match ← trySteal T c t tb with
      | (some w, c) => pure (some w, c)
      | (none, c) => firstWitness (fun c => tryWitness T c t tb) c (continuationAffixes tb)

end Exhaustive

section Pools

/-- The bytes of an ASCII literal. -/
def ascii (s : String) : List UInt8 := s.toList.map fun ch => UInt8.ofNat ch.toNat

def AFFIX_QUICK : List (List UInt8) :=
  ["", "a", "A", "z", "Q", "0", " ", ".", ",", "!", "\n", "'", "\""].map ascii ++
    [[0xC3, 0xA9], [0xE4, 0xB8, 0xAD]] ++ ["_", "-", "("].map ascii ++
    [[0xC3], [0xE4, 0xB8], [0xE6, 0x97], [0xA9], [0x80], [0xB8, 0xAD], [0xA5], [0x80, 0x80], [0x80, 0x80, 0x80],
      [0x90, 0x80, 0x80]]

def AFFIX_DEEP : List (List UInt8) :=
  ["", "a", "b", "e", "s", "t", "x", "A", "T", "0", "9", " ", "  ", ".", ",", ";", ":", "!", "?", "\n", "\r\n", "\n ",
      " \n", "'", "\"", "`"].map ascii ++
    [[0xC3, 0xA9], [0xC3, 0x9F], [0xE4, 0xB8, 0xAD], [0xE6, 0x97, 0xA5], [0xD0, 0xB0], [0xCE, 0xB1]] ++
    ["_", "-", "(", ")", "[", "/", "#", "$", "\t"].map ascii ++
    [[0xC2, 0xA0], [0xC3], [0xD0], [0xE4, 0xB8], [0xE6], [0xE6, 0x97], [0xF0, 0x9F, 0x98], [0xF0, 0x9F],
      [0xA9], [0xAD], [0x80], [0x80, 0x80], [0xB8, 0xAD], [0x97, 0xA5], [0x98, 0x80], [0x80, 0x80, 0x80],
      [0x90, 0x80, 0x80], [0x9F, 0x98, 0x80]]

/-- The pairs of affixes of a pool, without the first, which is the token alone. -/
def poolAffixes (pool : List (List UInt8)) : List (List UInt8 × List UInt8) :=
  (pool.flatMap fun pre => pool.map fun suf => (pre, suf)).drop 1

end Pools

section Token

variable (T : Tables)

/-- The loop over a pool: a witness, and how many pairs were tried. -/
def searchPool (t : Nat) (tb : List UInt8) :
    BpCtx → Nat → List (List UInt8 × List UInt8) → Run ((Option (List UInt8) × Nat) × BpCtx)
  | c, searched, [] => .ok ((none, searched), c)
  | c, searched, affix :: rest => do
    match ← tryWitness T c t tb affix with
    | (some w, c) => pure ((some w, searched + 1), c)
    | (none, c) => searchPool t tb c (searched + 1) rest

/-- What is done about a token that neither it alone nor a proof settled. -/
def censusSearch (c : BpCtx) (t : Nat) (tb : List UInt8) (deep : Bool) : Run (CensusResult × BpCtx) := do
  match ← tryGlue T c t tb with
  | (some w, c) => pure (⟨.context, .none, w, 0⟩, c)
  | (none, c) =>
    match ← searchPool T t tb c 0 (poolAffixes (if deep then AFFIX_DEEP else AFFIX_QUICK)) with
    | ((some w, searched), c) => pure (⟨.context, .none, w, searched⟩, c)
    | ((none, searched), c) =>
      match ← (if deep then tryFragmentExhaustive T c t tb else .ok (none, c)) with
      | (some w, c) => pure (⟨.context, .none, w, searched⟩, c)
      | (none, c) => pure (⟨.unresolved, .none, [], searched⟩, c)

/-- `tb` and `tn`: the bytes of a token. -/
def tokenSpan (v : BpVocab) (t : Nat) : Run (List UInt8) := do
  let off ← index v.tokOff t
  slice v.blob off (sub32 (← index v.tokOff (t + 1)) off)

/-- `census_token`. -/
def censusToken (v : BpVocab) (c : BpCtx) (t : Nat) (deep : Bool) : Run (CensusResult × BpCtx) := do
  let tb ← tokenSpan v t
  if v.added.any fun a => a.id = t then pure (⟨.added, .none, tb.take WMAX, 0⟩, c)
  else if WMAX < tb.length then pure (⟨.unresolved, .none, [], 0⟩, c)
  else
    match ← pureIsSingle c tb t with
    | (false, c) => pure (⟨.impossible, .mergeOrder, [], 0⟩, c)
    | (true, c) =>
      match ← tryWitness T c t tb ([], []) with
      | (some w, c) => pure (⟨.self, .none, w, 0⟩, c)
      | (none, c) =>
        match proveImpossible T tb with
        | .none => censusSearch T c t tb deep
        | reason => pure (⟨.impossible, reason, [], 0⟩, c)

end Token

section Run

variable (T : Tables)

/-- A row of the report. -/
structure CensusRow where
  id : Nat
  bytes : List UInt8
  result : CensusResult

/-- The rows so far, and how many witnesses were encoded again and failed. -/
structure Census where
  rows : List CensusRow
  reverified : Nat
  failed : Nat

/-- Encode a witness again: whether it fails. -/
def reverify (c : BpCtx) (t : Nat) (w : List UInt8) : Run (Bool × BpCtx) := do
  match ← bpEncode T c w (List.replicate (WMAX + 8) 0) 0 with
  | (.error _, (c, _)) => pure (true, c)
  | (.ok n, (c, out)) =>
    let found ← (if 0 < n then containsId out t 0 n else .ok false)
    pure (!found, c)

/-- A round of the loop over the ids. -/
def censusRound (v : BpVocab) (deep : Bool) (r : Census × BpCtx) (t : Nat) : Run (Census × BpCtx) := do
  let (found, c) := r
  let tb ← tokenSpan v t
  if tb.length = 0 then pure (found, c)
  else
    let (result, c) ← censusToken T v c t deep
    let rows := found.rows ++ [⟨t, tb, result⟩]
    if result.verdict = .self || result.verdict = .context then
      let (bad, c) ← reverify T c t result.witness
      pure (⟨rows, found.reverified + 1, found.failed + if bad then 1 else 0⟩, c)
    else pure ({ found with rows }, c)

/-- `bp_census_run`: what was found, and the status. -/
def bpCensusRun (v : BpVocab) (c : BpCtx) (deep : Bool) (limit : Nat) : Run ((Census × Nat) × BpCtx) := do
  let n := if limit ≠ 0 && limit < v.hdr.vocabCount then limit else v.hdr.vocabCount
  let (found, c) ← (List.range n).foldlM (censusRound T v deep) (⟨[], 0, 0⟩, c)
  pure ((found, if found.failed ≠ 0 then 1 else 0), c)

end Run

end Bytepair
