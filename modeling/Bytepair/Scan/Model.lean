import Bytepair.Scan.Avx2
import Bytepair.Util
import Bytepair.Utf8
import Bytepair.Tables.Layout

/-!
# The split scanner

`src/bp_scan.c`: the split regex of profile 1, hand-compiled. The text is what is ahead of
the position a function starts at; the positions a C function returns are counted from
there. A span goes to `emit`, which stands for `bp_bpe_pretoken` on the context and the
sink; an error of `emit` ends the scan.
-/

namespace Bytepair
open Support

/-- A decoded position: `bp_cp`. -/
structure BpCp where
  cp : Nat
  adv : Nat
  cl : Nat

section Scanner

variable (T : Tables)

def peek (b : UInt8) (rest : List UInt8) : BpCp :=
  if b < 0x80 then ⟨b.toNat, 1, T.bpCharClass b.toNat⟩
  else
    let (cp, adv) := bpUtf8Next b rest
    ⟨cp, adv, if cp = malformed then 0 else T.bpCharClass cp⟩

/-- The position behind the one at hand, if bytes are left there. -/
def peekNext : List UInt8 → Option BpCp
  | [] => none
  | b :: rest => some (peek T b rest)

/-- A1: the length of the contraction at an apostrophe that `rest` follows, or 0. -/
def tryContraction (rest : List UInt8) : Nat :=
  match rest with
  | [] => 0
  | b1 :: rest =>
    let a := b1 ||| 0x20
    if a = 0x73 || a = 0x74 || a = 0x6D || a = 0x64 then 2
    else
      match rest with
      | [] => 0
      | b2 :: _ =>
        if b1 = 0xC5 && b2 = 0xBF then 3 -- U+017F
        else
          let b := b2 ||| 0x20
          if (a = 0x72 && b = 0x65) || (a = 0x76 && b = 0x65) || (a = 0x6C && b = 0x6C) then 3 else 0

/-- A round of `run_letters` and `run_symbols`, which differ in their kernel and in the class
test: at `p`, `n` bytes into the run. `pass` is the test on the class of a code point, and
`passBad` what it says of a malformed byte. -/
def runRound (simd : Bool) (kernel : List UInt8 → Run Nat) (pass : Nat → Bool) (passBad : Bool) :
    List UInt8 × Nat → Run (Flow (List UInt8 × Nat) Nat)
  | ([], n) => .ok (.done n)
  | (b :: rest, n) =>
    if b < 0x80 then
      if simd then do
        let k ← kernel (b :: rest)
        match (b :: rest).drop k with
        | [] => pure (.done (n + k))
        | b' :: rest' => pure (if b' < 0x80 then .done (n + k) else .next (b' :: rest', n + k))
      else if pass (T.bpCharClass b.toNat) then .ok (.next (rest, n + 1))
      else .ok (.done n)
    else
      let (cp, adv) := bpUtf8Next b rest
      if if cp = malformed then passBad else pass (T.bpCharClass cp) then
        .ok (.next ((b :: rest).drop adv, n + adv))
      else .ok (.done n)

/-- `run_letters`: the bytes of the letter run at `p`. -/
def runLetters (simd : Bool) (p : List UInt8) : Run Nat :=
  loop (runRound T simd bpAsciiLetterRunAvx2 (fun cl => cl &&& BP_CC_L ≠ 0) false) (p.length + 1) (p, 0)

/-- `run_symbols`: the bytes of the run at `p` that is not \s, letter or number. -/
def runSymbols (simd : Bool) (p : List UInt8) : Run Nat :=
  loop (runRound T simd bpAsciiSymbolRunAvx2 (fun cl => cl &&& (BP_CC_L ||| BP_CC_N ||| BP_CC_S) = 0) true)
    (p.length + 1) (p, 0)

/-- The CR/LF run behind a symbol run. -/
def runNewlines : List UInt8 → Nat
  | [] => 0
  | b :: p => if b = 0x0D || b = 0x0A then runNewlines p + 1 else 0

/-- A symbol run from offset `k` of `p`, and the CR/LF run behind it. -/
def symbolSpan (simd : Bool) (p : List UInt8) (k : Nat) : Run Nat := do
  let n ← runSymbols T simd (p.drop k)
  pure (k + n + runNewlines (p.drop (k + n)))

/-- The variables of the whitespace walk, as offsets from where it starts. -/
structure Walk where
  j : Nat
  lastNlEnd : Nat
  lastCpStart : Nat
  ncp : Nat

/-- A round of the whitespace walk. -/
def walkRound : List UInt8 × Walk → Run (Flow (List UInt8 × Walk) (List UInt8 × Walk))
  | ([], w) => .ok (.done ([], w))
  | (b :: rest, w) =>
    let c := peek T b rest
    if c.cl &&& BP_CC_S = 0 then .ok (.done (b :: rest, w))
    else
      let j := w.j + c.adv
      .ok (.next ((b :: rest).drop c.adv,
        ⟨j, if c.cl &&& BP_CC_NL ≠ 0 then j else w.lastNlEnd, w.j, w.ncp + 1⟩))

/-- A5/A6/A7: the span of whitespace at `p`. -/
def whitespaceSpan (p : List UInt8) : Run Nat := do
  let (rest, w) ← loop (walkRound T) (p.length + 1) (p, ⟨0, 0, 0, 0⟩)
  pure
    (if w.lastNlEnd ≠ 0 then w.lastNlEnd        -- A5
    else if rest.length = 0 then w.j            -- A6 at the end
    else if 2 ≤ w.ncp then w.lastCpStart        -- A6 give-back
    else w.j)                                   -- A7

/-- One round of the scanner: the length of the span that starts at a byte `b`. -/
def spanLength (simd : Bool) (b : UInt8) (rest : List UInt8) : Run Nat :=
  let p := b :: rest
  let cur := peek T b rest
  let m := if b = 0x27 then tryContraction rest else 0
  if m ≠ 0 then .ok m
  else if cur.cl &&& BP_CC_L ≠ 0 then do
    pure (cur.adv + (← runLetters T simd (p.drop cur.adv)))
  else
    -- decoded only when `cur` can be the optional prefix of a word
    let nx := if cur.cl &&& (BP_CC_L ||| BP_CC_N ||| BP_CC_NL) = 0 then peekNext T (p.drop cur.adv) else none
    match nx.filter fun x => x.cl &&& BP_CC_L ≠ 0 with
    | some x => do pure (cur.adv + x.adv + (← runLetters T simd (p.drop (cur.adv + x.adv))))
    | none =>
      if cur.cl &&& BP_CC_N ≠ 0 then .ok cur.adv
      else
        match nx.filter fun x => b = 0x20 && x.cl &&& (BP_CC_L ||| BP_CC_N ||| BP_CC_S) = 0 with
        | some x => symbolSpan T simd p (1 + x.adv)
        | none =>
          if cur.cl &&& (BP_CC_L ||| BP_CC_N ||| BP_CC_S) = 0 then symbolSpan T simd p cur.adv
          else whitespaceSpan T p

variable {σ : Type} (emit : σ → List UInt8 → Run (Except Err Unit × σ))

/-- A round of `bp_scan_gpt4`'s loop: emit the span at the position and go on behind it. -/
def scanRound (simd : Bool) : List UInt8 × σ → Run (Flow (List UInt8 × σ) (Except Err Unit × σ))
  | ([], s) => .ok (.done (.ok (), s))
  | (b :: rest, s) => do
    let n ← spanLength T simd b rest
    match ← emit s ((b :: rest).take n) with
    | (.error e, s) => pure (.done (.error e, s))
    | (.ok _, s) => pure (.next ((b :: rest).drop n, s))

/-- `bp_scan_gpt4`. -/
def bpScanGpt4 (simd : Bool) (s : σ) (t : List UInt8) : Run (Except Err Unit × σ) :=
  loop (scanRound T emit simd) (t.length + 1) (t, s)

end Scanner

end Bytepair
