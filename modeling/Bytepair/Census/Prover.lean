import Bytepair.Scan.Model
import Bytepair.Nfc.Model

/-!
# The census prover

`src/bp_census.c`, from the classes of units to `prove_impossible`: which tokens the census says
no text can come to, read off the token's bytes alone. A set of classes is its bits.
-/

namespace Bytepair
open Support

/-- `CR_*`: why a token is impossible. -/
inductive CensusReason where
  | none
  | mergeOrder
  | invalidUtf8
  | pretokenShape
  | contraction
  | nfcExcluded
  deriving DecidableEq

def U_L : Nat := 1
def U_N : Nat := 2
def U_SP : Nat := 4
def U_SNL : Nat := 8
def U_SO : Nat := 16
def U_O : Nat := 32
def MAX_UNITS : Nat := 260

/-- `utf8_len_from_lead`; 0 for a byte that leads nothing. -/
def utf8LenFromLead (b : UInt8) : Nat :=
  if b < 0x80 then 1
  else if 0xC2 ≤ b && b ≤ 0xDF then 2
  else if 0xE0 ≤ b && b ≤ 0xEF then 3
  else if 0xF0 ≤ b && b ≤ 0xF4 then 4
  else 0

section Units

variable (T : Tables)

/-- `cp_unit`. -/
def cpUnit (cp : Nat) : Nat :=
  if cp = 0x20 then U_SP
  else if cp = 0x0D || cp = 0x0A then U_SNL
  else
    let c := T.bpCharClass cp
    if c &&& BP_CC_L ≠ 0 then U_L
    else if c &&& BP_CC_N ≠ 0 then U_N
    else if c &&& BP_CC_S ≠ 0 then U_SO
    else U_O

/-- The classes of some code points, and whether all of them are quick-check No. -/
def unionBits (cps : List Nat) : Nat × Bool :=
  let bits := cps.foldl (fun bits cp => bits ||| cpUnit T cp) 0
  (bits, bits ≠ 0 && cps.all fun cp => T.bpNfcQc cp = 0)

/-- The code points from `lo` to `hi` that end in the `6 * k` bits of `low`, surrogates left out. -/
def highCandidates (lo hi k low : Nat) : List Nat :=
  (((List.range (hi >>> (6 * k) + 1)).map fun high => high <<< (6 * k) ||| low).takeWhile (· ≤ hi)).filter
    fun cp => lo ≤ cp && !(0xD800 ≤ cp && cp ≤ 0xDFFF)

/-- The least and the largest code point of a length. -/
def lengthRange (m : Nat) : Nat × Nat :=
  if m = 2 then (0x80, 0x7FF) else if m = 3 then (0x800, 0xFFFF) else (0x10000, 0x10FFFF)

/-- The code points whose last bytes are the continuation bytes `p`. -/
def prefixCandidates (p : List UInt8) : List Nat :=
  let low := p.foldl (fun low b => low <<< 6 ||| (b &&& 63).toNat) 0
  (List.range' (p.length + 1) (4 - p.length)).flatMap fun m =>
    highCandidates (lengthRange m).1 (lengthRange m).2 p.length low

/-- `partial_prefix_bits`. -/
def partialPrefixBits (p : List UInt8) : Nat × Bool := unionBits T (prefixCandidates p)

/-- `n` continuation bytes with the `6 * n` bits of a number. -/
def contBytes : Nat → Nat → List UInt8
  | 0, _ => []
  | n + 1, v => contBytes n (v / 64) ++ [0x80 ||| UInt8.ofNat (v % 64)]

/-- The code point of bytes that are one of `need` bytes. -/
def completion (need : Nat) : List UInt8 → Option Nat
  | [] => none
  | b :: rest =>
    let (cp, adv) := bpUtf8Next b rest
    if cp ≠ malformed && adv = need then some cp else none

/-- The code points whose first bytes are `p`, of `need` bytes. -/
def suffixCandidates (need : Nat) (p : List UInt8) : List Nat :=
  (List.range (64 ^ (need - p.length))).filterMap fun c => completion need (p ++ contBytes (need - p.length) c)

/-- `partial_suffix_bits`. -/
def partialSuffixBits (b : UInt8) (rest : List UInt8) : Nat × Bool :=
  let need := utf8LenFromLead b
  if need = 0 || need ≤ rest.length + 1 then (0, false)
  else if rest.any notCont then (0, false)
  else unionBits T (suffixCandidates need (b :: rest))

/-- The loop of `alignment_units` from a byte of a token on, with the units before it. -/
def alignFrom : Nat → List UInt8 → List Nat → Bool → Option (List Nat × Bool)
  | fuel + 1, b :: rest, units, qcno =>
    let need := utf8LenFromLead b
    if need = 0 then none
    else if need ≤ rest.length + 1 then
      let (cp, adv) := bpUtf8Next b rest
      if cp = malformed || adv ≠ need then none
      else if MAX_UNITS ≤ units.length then none
      else alignFrom fuel ((b :: rest).drop adv) (units ++ [cpUnit T cp]) (qcno || T.bpNfcQc cp = 0)
    else
      let (bits, aq) := partialSuffixBits T b rest
      if bits = 0 then none
      else if MAX_UNITS ≤ units.length then none
      else some (units ++ [bits], qcno || aq)
  | _, _, units, qcno => if units = [] then none else some (units, qcno)

/-- `alignment_units`: the sets of classes of a token's units where its first `k` bytes end a character, and
whether one of the units is of quick-check No. -/
def alignmentUnits (t : List UInt8) (k : Nat) : Option (List Nat × Bool) :=
  if k = 0 then alignFrom T t.length t [] false
  else if (t.take k).any notCont then none
  else
    let (bits, aq) := partialPrefixBits T (t.take k)
    if bits = 0 then none
    else alignFrom T t.length (t.drop k) [bits] aq

attribute [grind =] cpUnit alignFrom

end Units

section Language

/-- The set has a class of some others. -/
def meets (u bits : Nat) : Bool := u &&& bits ≠ 0

/-- `fits_pretoken_language`, of a token's units; there is at least one. -/
def fitsPretokenLanguage (us : List Nat) : Bool :=
  let first := us.headD 0
  us.all (meets · U_L) || us.all (meets · (U_SP ||| U_SO ||| U_SNL)) ||
    us.length = 1 && meets first (U_N ||| U_SP ||| U_SO ||| U_O) ||
    meets first (U_SP ||| U_SO ||| U_O) && us.tail.all (meets · U_L) && 2 ≤ us.length ||
    (let symbols := if meets first U_SP then us.tail else us
    let behind := symbols.dropWhile (meets · U_O)
    (behind.dropWhile (meets · U_SNL)).isEmpty && (0 < symbols.length - behind.length || us.length = 1))

attribute [grind =] fitsPretokenLanguage

variable (T : Tables)

/-- The bytes are letters. -/
def allLetters : Nat → List UInt8 → Bool
  | fuel + 1, b :: rest =>
    let (cp, adv) := bpUtf8Next b rest
    if cp = malformed then false
    else if rest.length + 1 < adv then false
    else if T.bpCharClass cp &&& BP_CC_L = 0 then false
    else allLetters fuel ((b :: rest).drop adv)
  | _, _ => true

/-- The bytes of the contraction at the head of a token, with its apostrophe; 0 for none. -/
def contractionLength : List UInt8 → Nat
  | 0x27 :: b :: rest =>
    let a := b ||| 0x20
    if a = 0x73 || a = 0x74 || a = 0x6D || a = 0x64 then 2
    else
      match rest with
      | [] => 0
      | c :: _ =>
        if b = 0xC5 && c = 0xBF then 3
        else
          let b := c ||| 0x20
          if a = 0x72 && b = 0x65 || a = 0x76 && b = 0x65 || a = 0x6C && b = 0x6C then 3 else 0
  | _ => 0

/-- `blocked_by_contraction`. -/
def blockedByContraction (t : List UInt8) : Bool :=
  let m := contractionLength t
  if m = 0 || t.length ≤ m then false else allLetters T t.length (t.drop m)

/-- The loop over the alignments: an early answer, or whether there was one at all, and whether one of them
fits the language with units of quick-check No. -/
def tryAlignments (t : List UInt8) : List Nat → Bool × Bool → CensusReason ⊕ (Bool × Bool)
  | [], found => .inr found
  | k :: ks, (anyAlignment, fitsQcno) =>
    if k < t.length then
      match alignmentUnits T t k with
      | none => tryAlignments t ks (anyAlignment, fitsQcno)
      | some (units, qcno) =>
        if fitsPretokenLanguage units then
          if qcno then tryAlignments t ks (true, true) else .inl .none
        else tryAlignments t ks (true, fitsQcno)
    else .inr (anyAlignment, fitsQcno)

/-- `prove_impossible`. -/
def proveImpossible (t : List UInt8) : CensusReason :=
  if blockedByContraction T t then .contraction
  else
    match tryAlignments T t [0, 1, 2, 3] (false, false) with
    | .inl reason => reason
    | .inr (anyAlignment, fitsQcno) =>
      if fitsQcno then .nfcExcluded
      else if t.length ≤ 3 && !t.any notCont then .none
      else if anyAlignment then .pretokenShape else .invalidUtf8

attribute [grind =] tryAlignments proveImpossible

end Language

end Bytepair
