import Bytepair.Utf8
import Bytepair.Vocab.Model

/-!
# The inspector of images

`tools/bpv_dump.py`: an image is parsed, and what is in it is checked without the `tokenizer.json` it was made
from. The constants, the hash and the probe are its own, not the converter's. Left out are the report
on standard output and the mean of the probes, a quotient of what is kept.
-/

namespace Bytepair.Dump
open Support

def MAGIC : Nat := 0x31565042
def FORMAT_VERSION : Nat := 1
def HEADER_SIZE : Nat := 192
def SECTION_ALIGN : Nat := 64
def EMPTY_KEY : Nat := 0xFFFFFFFFFFFFFFFF
def PAIR_SLOT_BYTES : Nat := 16

def SECTION_NAMES : List String := ["token_offsets", "token_blob", "pair_table", "byte_to_id", "added", "meta"]

def PROFILE_NAMES : List (Nat × String) := [(0, "none (BPE over whole input)"), (1, "GPT-4-style scanner")]

/-- What fills a format string. -/
inductive Arg where
  | int (i : Nat)
  | text (s : String)
  | bytes (bs : List UInt8)
  | ratio (a b : Nat)

/-- `IntegrityError`: its format string, and what fills it. -/
structure IntegrityError where
  template : String
  args : List Arg

def check (cond : Bool) (template : String) (args : List Arg) : Except IntegrityError Unit :=
  if cond then .ok () else .error ⟨template, args⟩

def fmix64 (h : Nat) : Nat :=
  let h := h % 2 ^ 64
  let h := h ^^^ (h >>> 33)
  let h := h * 0xFF51AFD7ED558CCD % 2 ^ 64
  let h := h ^^^ (h >>> 33)
  let h := h * 0xC4CEB9FE1A85EC53 % 2 ^ 64
  h ^^^ (h >>> 33)

/-- `read_u32_array`. -/
def readU32Array (buf : List UInt8) : Except IntegrityError (List Nat) := do
  check (buf.length % 4 = 0) "u32 array section length is not a multiple of 4" []
  pure (words 4 (buf.length / 4) buf)

/-- `read_u64_array`. -/
def readU64Array (buf : List UInt8) : Except IntegrityError (List Nat) := do
  check (buf.length % 8 = 0) "u64 array section length is not a multiple of 8" []
  pure (words 8 (buf.length / 8) buf)

/-- `bs.decode("utf-8")`, where it does not raise. -/
def decodeUtf8 (bs : List UInt8) : Option (List Nat) :=
  if (units bs).all (· < tagBase) then some (units bs) else none

section Parse

/-- A parsed image. -/
structure Image where
  data : List UInt8
  flags : Nat
  profileId : Nat
  vocabCount : Nat
  addedCount : Nat
  pairSlotsLog2 : Nat
  sections : List (Nat × Nat)
  sourceHash : Nat

/-- The loop over the section table. -/
def checkSections (size : Nat) : Nat → List (String × Nat × Nat) → Except IntegrityError Unit
  | _, [] => .ok ()
  | prevEnd, (name, off, sz) :: rest => do
    check (off % SECTION_ALIGN = 0) "section %s is not 64-byte aligned" [.text name]
    check (prevEnd ≤ off) "section %s overlaps or precedes the previous section" [.text name]
    check (off + sz ≤ size) "section %s runs past the end of the file" [.text name]
    checkSections size (off + sz) rest

/-- `Image.__init__`. -/
def Image.parse (data : List UInt8) : Except IntegrityError Image := do
  let size := data.length
  check (HEADER_SIZE ≤ size) "file is shorter than the 192-byte header region" []
  let field i := wordAt 4 data (4 * i)
  check (field 0 = MAGIC) "bad magic 0x%08X (expected 0x%08X)" [.int (field 0), .int MAGIC]
  check (field 1 = FORMAT_VERSION) "unsupported format_version %d" [.int (field 1)]
  check (field 2 >>> 1 = 0) "unknown flag bits set: 0x%08X" [.int (field 2)]
  check ((PROFILE_NAMES.map (·.1)).contains (field 3)) "unknown profile_id %d" [.int (field 3)]
  check (field 7 = 0) "reserved header field is not zero" []
  check (0 < field 4) "vocab_count is zero" []
  check (field 6 ≤ 40) "implausible pair_slots_log2 %d" [.int (field 6)]
  check ((data.drop 136).take 56 = List.replicate 56 0) "header bytes 136..191 are not zero" []
  let sections := (List.range 6).map fun i => (wordAt 8 data (32 + 16 * i), wordAt 8 data (40 + 16 * i))
  checkSections size HEADER_SIZE (SECTION_NAMES.zip sections)
  let first := (sections[0]?.getD (0, 0)).1
  check (first = HEADER_SIZE) "first section starts at %d, not %d" [.int first, .int HEADER_SIZE]
  pure ⟨data, field 2, field 3, field 4, field 5, field 6, sections, wordAt 8 data 128⟩

/-- `section`. -/
def Image.sectionBytes (img : Image) (i : Nat) : List UInt8 :=
  let s := img.sections[i]?.getD (0, 0)
  (img.data.drop s.1).take s.2

end Parse

section Tokens

/-- The checks of the token table. -/
def checkTokens (img : Image) : Except IntegrityError (List Nat × List UInt8) := do
  let raw := img.sectionBytes 0
  check (raw.length = 4 * (img.vocabCount + 1)) "token_offsets is %d bytes, expected %d for vocab_count %d"
    [.int raw.length, .int (4 * (img.vocabCount + 1)), .int img.vocabCount]
  let offsets ← readU32Array raw
  let blob := img.sectionBytes 1
  let offset i := offsets[i]?.getD 0
  check (offset 0 = 0) "token_offsets[0] is not zero" []
  (List.range img.vocabCount).forM fun i =>
    check (offset i ≤ offset (i + 1)) "token_offsets is not monotonic at id %d" [.int i]
  check (offset img.vocabCount = blob.length) "token_offsets tail is %d, token_blob is %d bytes"
    [.int (offset img.vocabCount), .int blob.length]
  pure (offsets, blob)

/-- `token_bytes`. -/
def tokenBytes (offsets : List Nat) (blob : List UInt8) (tid : Nat) : List UInt8 :=
  (blob.drop (offsets[tid]?.getD 0)).take (offsets[tid + 1]?.getD 0 - offsets[tid]?.getD 0)

/-- The checks of `byte_to_id`. -/
def checkByteIds (img : Image) (token : Nat → List UInt8) : Except IntegrityError Unit := do
  let raw := img.sectionBytes 3
  check (raw.length = 1024) "byte_to_id is %d bytes, expected 1024" [.int raw.length]
  let byteIds ← readU32Array raw
  (List.range 256).forM fun b => do
    let tid := byteIds[b]?.getD 0
    check (tid < img.vocabCount) "byte_to_id[0x%02X] = %d exceeds vocab_count" [.int b, .int tid]
    check (token tid = [UInt8.ofNat b]) "byte_to_id[0x%02X] -> id %d whose token is %r, not the single byte"
      [.int b, .int tid, .bytes (token tid)]
  let distinct := byteIds.dedup.length
  check (distinct = 256) "byte_to_id maps 256 bytes onto %d ids" [.int distinct]

end Tokens

section Pairs

/-- What the loop over the slots keeps. -/
structure PairFacts where
  occupied : Nat
  ranks : List Nat
  totalProbes : Nat
  maxProbe : Nat

/-- The walk to a key: where it ends and the steps it took, of which so many more are left. -/
def walk (pairs : List Nat) (mask key slot : Nat) : Nat → Nat → Nat → Except IntegrityError (Nat × Nat)
  | 0, probe, steps =>
    if pairs[2 * probe]?.getD 0 = key then .ok (probe, steps)
    else do
      check (pairs[2 * probe]?.getD 0 ≠ EMPTY_KEY)
        "pair at slot %d is unreachable: probing from its home slot hits an empty slot first" [.int slot]
      .error ⟨"probe sequence for slot %d does not terminate", [.int slot]⟩
  | room + 1, probe, steps =>
    if pairs[2 * probe]?.getD 0 = key then .ok (probe, steps)
    else do
      check (pairs[2 * probe]?.getD 0 ≠ EMPTY_KEY)
        "pair at slot %d is unreachable: probing from its home slot hits an empty slot first" [.int slot]
      walk pairs mask key slot room ((probe + 1) &&& mask) (steps + 1)

/-- One slot of the table. -/
def checkSlot (vocabCount : Nat) (token : Nat → List UInt8) (pairs : List Nat) (nslots : Nat) (f : PairFacts) (slot : Nat) :
    Except IntegrityError PairFacts :=
  let key := pairs[2 * slot]?.getD 0
  if key = EMPTY_KEY then .ok f
  else do
    let value := pairs[2 * slot + 1]?.getD 0
    let left := key >>> 32
    let right := key % 2 ^ 32
    let rank := value >>> 32
    let merged := value % 2 ^ 32
    check (left < vocabCount && right < vocabCount) "pair table slot %d references ids (%d, %d) beyond vocab_count"
      [.int slot, .int left, .int right]
    check (merged < vocabCount) "pair table slot %d merges to id %d, beyond vocab_count" [.int slot, .int merged]
    check (token left ++ token right = token merged) "pair table slot %d: bytes(%d)+bytes(%d) != bytes(%d)"
      [.int slot, .int left, .int right, .int merged]
    check (!f.ranks.contains rank) "rank %d appears in more than one pair table slot" [.int rank]
    let (probe, steps) ← walk pairs (nslots - 1) key slot (nslots - 1) (fmix64 key &&& (nslots - 1)) 1
    check (probe = slot) "probe for slot %d's key lands on slot %d" [.int slot, .int probe]
    pure ⟨f.occupied + 1, rank :: f.ranks, f.totalProbes + steps, max f.maxProbe steps⟩

/-- The checks of the table of pairs. -/
def checkPairs (img : Image) (token : Nat → List UInt8) : Except IntegrityError PairFacts := do
  let nslots := 1 <<< img.pairSlotsLog2
  let raw := img.sectionBytes 2
  check (raw.length = nslots * PAIR_SLOT_BYTES) "pair_table is %d bytes, expected %d for 2^%d slots"
    [.int raw.length, .int (nslots * PAIR_SLOT_BYTES), .int img.pairSlotsLog2]
  let pairs ← readU64Array raw
  let f ← (List.range nslots).foldlM (checkSlot img.vocabCount token pairs nslots) ⟨0, [], 0, 0⟩
  check (0 < f.occupied) "pair table is empty" []
  check (20 * f.occupied ≤ 13 * nslots) "pair table load factor %.4f exceeds %.2f"
    [.ratio f.occupied nslots, .ratio 13 20]
  check (((List.range f.occupied).all fun rank => f.ranks.contains rank) && f.ranks.all (· < f.occupied))
    "merge ranks are not exactly 0..%d; the merge order is not recoverable" [.int (f.occupied - 1)]
  pure f

end Pairs

section Added

/-- An added token as it is reported. -/
structure AddedFacts where
  record : BpvAdded
  text : List Nat

/-- One added record, behind those whose ids were seen. -/
def checkRecord (vocabCount : Nat) (offsets : List Nat) (blob : List UInt8) (seen : List AddedFacts) (record : BpvAdded × Nat) :
    Except IntegrityError (List AddedFacts) := do
  let (a, i) := record
  let offset i := offsets[i]?.getD 0
  check (a.id < vocabCount) "added record %d has id %d beyond vocab_count" [.int i, .int a.id]
  check (!(seen.map (·.record.id)).contains a.id) "added record %d repeats id %d" [.int i, .int a.id]
  check (a.offset + a.len ≤ blob.length) "added record %d span runs past the token blob" [.int i]
  check (0 < a.len) "added record %d has zero length" [.int i]
  check (a.flags >>> 1 = 0) "added record %d has unknown flag bits 0x%08X" [.int i, .int a.flags]
  check (a.offset = offset a.id && (a.len : Int) = offset (a.id + 1) - offset a.id)
    "added record %d span (%d,%d) disagrees with token_offsets" [.int i, .int a.offset, .int a.len]
  match decodeUtf8 ((blob.drop a.offset).take a.len) with
  | some text => pure (seen ++ [⟨a, text⟩])
  | none => .error ⟨"added record %d content is not valid UTF-8", [.int i]⟩

/-- The checks of the added records. -/
def checkAdded (img : Image) (offsets : List Nat) (blob : List UInt8) : Except IntegrityError (List AddedFacts) := do
  let raw := img.sectionBytes 4
  check (raw.length = 16 * img.addedCount) "added section is %d bytes, expected %d for %d records"
    [.int raw.length, .int (16 * img.addedCount), .int img.addedCount]
  let added ← readU32Array raw
  (addedRecords added).zipIdx.foldlM (checkRecord img.vocabCount offsets blob) []

end Added

section Meta

/-- The strings of the rest of the section, `n` having been read. Each takes four bytes or more, so a section
is read in as many rounds as it has bytes. -/
def metaStrings : Nat → Nat → List UInt8 → Except IntegrityError (List (List Nat))
  | 0, _, _ => .ok []
  | _ + 1, _, [] => .ok []
  | fuel + 1, n, bs => do
    check (4 ≤ bs.length) "meta section truncated in a length prefix" []
    let ln := littleEndian (bs.take 4)
    check (ln ≤ bs.length - 4) "meta string runs past the section" []
    match decodeUtf8 ((bs.drop 4).take ln) with
    | some s => do
      let ss ← metaStrings fuel (n + 1) (bs.drop (4 + ln))
      pure (s :: ss)
    | none => .error ⟨"meta string %d is not valid UTF-8", [.int n]⟩

/-- The checks of the meta section. -/
def checkMeta (info : List UInt8) : Except IntegrityError (List (List Nat)) := do
  let strings ← metaStrings info.length 0 info
  check (strings.length = 3) "meta holds %d strings, expected 3" [.int strings.length]
  pure strings

end Meta

/-- What is reported of an image. -/
structure Facts where
  blobBytes : Nat
  emptyTokens : Nat
  pairSlots : Nat
  pairs : PairFacts
  added : List AddedFacts
  strings : List (List Nat)

/-- `integrity_checks`. -/
def integrityChecks (img : Image) : Except IntegrityError Facts := do
  let (offsets, blob) ← checkTokens img
  let emptyTokens := (List.range img.vocabCount).countP fun i => offsets[i]?.getD 0 = offsets[i + 1]?.getD 0
  checkByteIds img (tokenBytes offsets blob)
  let pairs ← checkPairs img (tokenBytes offsets blob)
  let added ← checkAdded img offsets blob
  let strings ← checkMeta (img.sectionBytes 5)
  pure ⟨blob.length, emptyTokens, 1 <<< img.pairSlotsLog2, pairs, added, strings⟩

/-- The status of `main` on a file, if it can be read. -/
def main (samples : Int) (data : Option (List UInt8)) : Nat :=
  if samples < 1 then 1
  else
    match data with
    | none => 1
    | some data =>
      match Image.parse data >>= integrityChecks with
      | .ok _ => 0
      | .error _ => 3

end Bytepair.Dump
