import Bytepair.Scan.Split
import Bytepair.Support.Scatter
import Bytepair.Tables.Emit

/-!
# The class probe

`tools/probe_classes.py`: it asks the pre-tokenizer of another library for its pieces of two strings around each code
point, and reads the class of the code point from how many there are. A string is its code points, and `pre` returns the
pieces. The workers of a pool may hand their results over in any order. gzip, the clock and the digests of files are left
out, so an artifact is its class bytes.
-/

namespace Bytepair.Probe
open Support

def MAX_CP : Nat := 0x110000
def SURROGATE_FIRST : Nat := 0xD800
def SURROGATE_LAST : Nat := 0xDFFF

/-- A class byte. -/
def classByte (bits : Nat) : UInt8 := UInt8.ofNat bits

/-- `SHAPE_TO_CLASS`: the pieces of `aXa` and of `!X!`, and the class. -/
def shapeToClass : List ((Nat × Nat) × UInt8) :=
  [((1, 2), classByte BP_CC_L), ((3, 3), classByte BP_CC_N), ((2, 3), classByte BP_CC_S), ((2, 2), classByte BP_CC_S),
    ((3, 2), classByte (BP_CC_S ||| BP_CC_NL)), ((2, 1), 0)]

section Chunks

variable (pre : List Nat → List (List Nat))

/-- What `_probe_chunk` has: the class bytes from `lo` on, the code points whose shapes are not modelled, and those whose
shape one code point each is expected to have. -/
structure Chunk where
  lo : Nat
  out : List UInt8
  odd : List (Nat × Nat × Nat)
  rare : List ((Nat × Nat) × Nat)

/-- How many pieces the two strings around a code point have. -/
def shapeOf (cp : Nat) : Nat × Nat := ((pre [0x61, cp, 0x61]).length, (pre [0x21, cp, 0x21]).length)

/-- A round of `_probe_chunk`. -/
def probeRound (s : Chunk) (cp : Nat) : Chunk :=
  if SURROGATE_FIRST ≤ cp ∧ cp ≤ SURROGATE_LAST then s -- class 0, not probed
  else
    let shape := shapeOf pre cp
    match shapeToClass.lookup shape with
    | none => { s with out := s.out.set (cp - s.lo) 0, odd := s.odd ++ [(cp, shape)] }
    | some cls =>
      { s with
        out := s.out.set (cp - s.lo) cls
        rare := if shape = (2, 2) ∨ shape = (3, 2) then s.rare ++ [(shape, cp)] else s.rare }

/-- `_probe_chunk` on `[lo, hi)`. -/
def probeChunk (lo hi : Nat) : Chunk :=
  (List.range' lo (hi - lo)).foldl (probeRound pre) ⟨lo, List.replicate (hi - lo) 0, [], []⟩

/-- What the workers return, for the chunks in the order they are done. -/
def chunkResults (order : List (Nat × Nat)) : List Chunk := order.map fun b => probeChunk pre b.1 b.2

end Chunks

section Gather

/-- What `probe_all` collects. -/
structure Gathered where
  classes : List UInt8
  unmodelled : List (Nat × Nat × Nat)
  rare : List ((Nat × Nat) × Nat)

/-- `classes[lo : lo + len(blob)] = blob`, and the two lists. -/
def gatherRound (s : Gathered) (c : Chunk) : Gathered :=
  ⟨splice s.classes c.lo c.out, s.unmodelled ++ c.odd, s.rare ++ c.rare⟩

/-- The order of tuples. -/
def tripleLe (x y : Nat × Nat × Nat) : Bool :=
  x.1 < y.1 || x.1 == y.1 && (x.2.1 < y.2.1 || x.2.1 == y.2.1 && x.2.2 ≤ y.2.2)

def rareLe (x y : (Nat × Nat) × Nat) : Bool := tripleLe (x.1.1, x.1.2, x.2) (y.1.1, y.1.2, y.2)

/-- `probe_all`, where the results come in the given order. -/
def probeAll (results : List Chunk) : Gathered :=
  let s := results.foldl gatherRound ⟨List.replicate MAX_CP 0, [], []⟩
  { s with unmodelled := s.unmodelled.mergeSort tripleLe, rare := s.rare.mergeSort rareLe }

end Gather

section Report

/-- A `PROBE PROBLEM`, with what its text is filled with. -/
inductive Problem where
  | unmodelled (count : Nat) (first : List (Nat × Nat × Nat))
  | literalSpace (cps : List Nat)
  | crLf (cps : List Nat)
  deriving DecidableEq

def Problem.template : Problem → String
  | .unmodelled .. => "unmodelled probe shapes for %d codepoints, first 10: %s"
  | .literalSpace _ => "the literal-space alternative fires for %s, expected U+0020 alone"
  | .crLf _ => "the CR/LF classes fire for %s, expected U+000A and U+000D alone"

/-- `sorted(cp for shape, cp in rare if shape == …)`. -/
def shapeCps (rare : List ((Nat × Nat) × Nat)) (shape : Nat × Nat) : List Nat :=
  ((rare.filter (·.1 == shape)).map Prod.snd).mergeSort

def problems (g : Gathered) : List Problem :=
  let shape22 := shapeCps g.rare (2, 2)
  let shape32 := shapeCps g.rare (3, 2)
  (if g.unmodelled ≠ [] then [.unmodelled g.unmodelled.length (g.unmodelled.take 10)] else []) ++
    (if shape22 ≠ [0x20] then [.literalSpace shape22] else []) ++
    (if shape32 ≠ [0x0A, 0x0D] then [.crLf shape32] else [])

/-- The counts of `summarize`. -/
structure Counts where
  letter : Nat
  number : Nat
  whitespace : Nat
  crLf : Nat
  other : Nat

/-- A round of `summarize`. -/
def countRound (c : Counts) (cls : UInt8) : Counts :=
  if cls = 0 then { c with other := c.other + 1 }
  else
    let bit b := if cls &&& classByte b ≠ 0 then 1 else 0
    ⟨c.letter + bit BP_CC_L, c.number + bit BP_CC_N, c.whitespace + bit BP_CC_S, c.crLf + bit BP_CC_NL, c.other⟩

def summarize (classes : List UInt8) : Counts := classes.foldl countRound ⟨0, 0, 0, 0, 0⟩

/-- The total that `main` prints: the sum of the counts, without that of CR and LF. -/
def Counts.total (c : Counts) : Nat := c.letter + c.number + c.whitespace + c.crLf + c.other - c.crLf

/-- What `main` leaves: the artifact, which is written in any case, the counts, the problems and the exit status. -/
structure Report where
  artifact : List UInt8
  counts : Counts
  problems : List Problem
  status : Nat

/-- `main`. -/
def report (results : List Chunk) : Report :=
  let g := probeAll results
  ⟨g.classes, summarize g.classes, problems g, if problems g = [] then 0 else 1⟩

/-- `read_classes`, from the bytes that gzip gives back. -/
def readClasses (data : List UInt8) : Except String (List UInt8) :=
  if data.length ≠ MAX_CP then .error "%s: expected %d class bytes, found %d" else .ok data

end Report

end Bytepair.Probe
