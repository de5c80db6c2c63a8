import Bytepair.Convert.Model
import Bytepair.Vocab.Model

/-!
# The converter's own check

`verify_image` of `tools/bpv_convert.py`: the image is read again as it was written, and compared with the
`tokenizer.json` it came from. `main` is the two of them, and the status it exits with.
-/

namespace Bytepair.Convert
open Support

/-- How a verification ends before its end: `VerifyError`, or an exception nothing catches. -/
inductive VerifyFailure where
  | verify (template : String) (args : List Arg)
  | missing -- a key that a `dict` does not have, or a value of another type
  | undecodable -- `decode("utf-8")` of malformed bytes
  | hang -- a probe of a table without room

/-- `_vrequire`. -/
def vrequire (cond : Bool) (template : String) (args : List Arg) : Except VerifyFailure Unit :=
  if cond then .ok () else .error (.verify template args)

/-- `d[key]` and the like: the value, or the exception. -/
def expect {α : Type} (x : Option α) : Except VerifyFailure α :=
  match x with
  | some a => .ok a
  | none => .error .missing

/-- `bs.decode("utf-8")`. -/
def decodeUtf8 (bs : List UInt8) : Except VerifyFailure Str :=
  if (units bs).all (· < tagBase) then .ok (units bs) else .error .undecodable

def SECTION_NAMES : List String := ["token_offsets", "token_blob", "pair_table", "byte_to_id", "added", "meta"]

section Sections

/-- The loop over the section table: the sections lie behind one another in the file. -/
def verifySections (size : Nat) : Nat → List (String × Nat × Nat) → Except VerifyFailure Unit
  | _, [] => .ok ()
  | prevEnd, (name, off, sz) :: rest => do
    vrequire (off % SECTION_ALIGN = 0) "section %s is not 64-byte aligned" [.text (str name)]
    vrequire (prevEnd ≤ off) "section %s starts before the previous section ends" [.text (str name)]
    vrequire (off + sz ≤ size) "section %s runs past the end of the file" [.text (str name)]
    verifySections size (off + sz) rest

/-- The checks of the fixed fields of the header. -/
def verifyHeader (image raw : List UInt8) : Except VerifyFailure Unit := do
  let size := image.length
  vrequire (HEADER_SIZE ≤ size) "file shorter than the header" []
  vrequire (size % SECTION_ALIGN = 0) "file size is not a multiple of %d" [.int SECTION_ALIGN]
  let field i := wordAt 4 image (4 * i)
  vrequire (field 0 = MAGIC) "bad magic 0x%08X" [.int (field 0)]
  vrequire (field 1 = FORMAT_VERSION) "bad format_version %d" [.int (field 1)]
  vrequire (field 2 >>> 1 = 0) "unknown flag bits set: 0x%08X" [.int (field 2)]
  vrequire (field 3 = PROFILE_ID_GPT4_STYLE) "bad profile_id %d" [.int (field 3)]
  vrequire (field 7 = 0) "reserved header field is not zero" []
  vrequire (0 < field 4) "vocab_count is zero" []
  vrequire (MIN_PAIR_SLOTS_LOG2 ≤ field 6 && field 6 ≤ 40) "implausible pair_slots_log2 %d" [.int (field 6)]
  vrequire ((image.drop 136).take 56 = List.replicate 56 0) "header padding bytes 136..191 are not zero" []
  vrequire (wordAt 8 image 128 = fnv1a64 raw) "source_hash does not match the input file" []

end Sections

section Tables

/-- The offsets are those of a blob. -/
def verifyOffsets (vocabCount : Nat) (offsets : List Nat) (blob : List UInt8) : Except VerifyFailure Unit := do
  let offset i := offsets[i]?.getD 0
  vrequire (offset 0 = 0) "token_offsets[0] is not zero" []
  vrequire (offset vocabCount = blob.length) "token_offsets tail does not equal blob size" []
  (List.range vocabCount).forM fun i =>
    vrequire (offset i ≤ offset (i + 1)) "token_offsets not monotonic at id %d" [.int i]
  vrequire (offset vocabCount ≤ blob.length) "token_offsets run past the blob" []

/-- `token_bytes`. -/
def tokenBytes (offsets : List Nat) (blob : List UInt8) (tid : Nat) : List UInt8 :=
  (blob.drop (offsets[tid]?.getD 0)).take (offsets[tid + 1]?.getD 0 - offsets[tid]?.getD 0)

def verifyByteIds (vocabCount : Nat) (token : Nat → List UInt8) (byteIds : List Nat) : Except VerifyFailure Unit := do
  (List.range 256).forM fun b => do
    let tid := byteIds[b]?.getD 0
    vrequire (tid < vocabCount) "byte_to_id[0x%02X] = %d is out of range" [.int b, .int tid]
    vrequire (token tid = [UInt8.ofNat b]) "byte_to_id[0x%02X] points at a token that is not that single byte" [.int b]
  vrequire (decide byteIds.Nodup) "byte_to_id entries are not distinct" []

/-- `lookup`: a loop that is over within as many rounds as there are slots. -/
def lookupPair (pairs : List Nat) (mask key : Nat) : Nat → Nat → Except VerifyFailure (Option Nat)
  | 0, _ => .error .hang
  | bound + 1, slot =>
    let k := pairs[2 * slot]?.getD 0
    if k = key then .ok (some (pairs[2 * slot + 1]?.getD 0))
    else if k = EMPTY_KEY then .ok none
    else lookupPair pairs mask key bound ((slot + 1) &&& mask)

/-- One merge is retrieved as its rank and its merged id. -/
def verifyMerge (vocab : List (Str × Json)) (pairs : List Nat) (nslots : Nat) (entry : Json × Nat) :
    Except VerifyFailure Unit := do
  let (entry, rank) := entry
  let (leftS, rightS) ← expect (mergeParts rank entry).toOption
  let left ← expect (vocabId vocab leftS)
  let right ← expect (vocabId vocab rightS)
  let key := left <<< 32 ||| right
  let value ← lookupPair pairs (nslots - 1) key nslots (fmix64 key &&& (nslots - 1))
  vrequire value.isSome "merge %d is not retrievable from the pair table" [.int rank]
  let merged ← expect (vocabId vocab (leftS ++ rightS))
  vrequire (value = some (rank <<< 32 ||| merged)) "merge %d has the wrong rank or merged id in the pair table" [.int rank]

def verifyPairs (vocab : List (Str × Json)) (merges : List Json) (pairs : List Nat) (nslots : Nat) :
    Except VerifyFailure Unit := do
  let occupied := (List.range nslots).countP fun s => pairs[2 * s]?.getD 0 ≠ EMPTY_KEY
  vrequire (occupied = merges.length) "pair table holds %d entries but the source has %d merges"
    [.int occupied, .int merges.length]
  merges.zipIdx.forM (verifyMerge vocab pairs nslots)

/-- The bytes of every vocabulary entry are at its offsets. -/
def verifyVocab (vocabCount : Nat) (token : Nat → List UInt8) (vocab : List (Str × Json)) : Except VerifyFailure Unit :=
  vocab.forM fun (text, id) => do
    let tid ← expect (tokenId id)
    vrequire (tid < vocabCount) "vocabulary id %d exceeds vocab_count" [.int tid]
    let raw ← expect (text.mapM u2b)
    vrequire (token tid = raw) "token blob content for id %d does not match the source vocabulary" [.int tid]

end Tables

section Added

/-- `{t["id"]: t for t in entries}`. -/
def sourceAdded (entries : List Json) : Except VerifyFailure (List (Nat × List (Str × Json))) :=
  entries.foldlM (fun found entry => do
    let t ← expect (items entry)
    let tid ← expect (tokenId (get t "id" .null))
    pure ((tid, t) :: found.filter (·.1 ≠ tid))) []

/-- The content of an added token, as bytes. -/
def contentBytes (t : List (Str × Json)) : Except VerifyFailure (List UInt8) :=
  match get t "content" .null with
  | .str s => expect (encodeUtf8 s).toOption
  | _ => .error .missing

def verifyRecord (vocabCount : Nat) (offsets : List Nat) (blob : List UInt8) (source : List (Nat × List (Str × Json)))
    (record : BpvAdded × Nat) : Except VerifyFailure Unit := do
  let (a, i) := record
  let offset i := offsets[i]?.getD 0
  vrequire (a.id < vocabCount) "added record %d has an out-of-range id" [.int i]
  vrequire (a.offset + a.len ≤ blob.length) "added record %d points outside the blob" [.int i]
  vrequire (a.flags >>> 1 = 0) "added record %d has unknown flag bits" [.int i]
  let src := source.lookup a.id
  vrequire src.isSome "added record %d has an id not present in the source" [.int i]
  let t := src.getD []
  vrequire ((blob.drop a.offset).take a.len = (← contentBytes t))
    "added record %d blob bytes differ from the literal token string" [.int i]
  vrequire (a.offset = offset a.id && (a.len : Int) = offset (a.id + 1) - offset a.id)
    "added record %d span disagrees with token_offsets" [.int i]
  vrequire (a.flags % 2 = if truthy (get t "special" (.bool false)) then 1 else 0)
    "added record %d special flag differs from the source" [.int i]

def verifyAdded (vocabCount addedCount : Nat) (offsets : List Nat) (blob : List UInt8) (entries : List Json)
    (records : List BpvAdded) : Except VerifyFailure Unit := do
  let source ← sourceAdded entries
  vrequire (source.length = addedCount) "added_count does not match the source" []
  records.zipIdx.forM (verifyRecord vocabCount offsets blob source)

end Added

section Meta

/-- `n` strings from the start of the section, and what is behind them. -/
def metaStrings : Nat → List UInt8 → Except VerifyFailure (List Str × List UInt8)
  | 0, bs => .ok ([], bs)
  | n + 1, bs => do
    vrequire (4 ≤ bs.length) "meta section truncated" []
    let ln := littleEndian (bs.take 4)
    vrequire (ln ≤ bs.length - 4) "meta string runs past the section" []
    let s ← decodeUtf8 ((bs.drop 4).take ln)
    let (ss, tail) ← metaStrings n (bs.drop (4 + ln))
    pure (s :: ss, tail)

def verifyMeta (sourceName : Str) (info : List UInt8) : Except VerifyFailure Unit := do
  let (strings, tail) ← metaStrings 3 info
  vrequire tail.isEmpty "meta section has trailing bytes" []
  vrequire (strings[0]? = some sourceName) "meta source name mismatch" []
  vrequire (strings[1]? = some (str CONVERTER_VERSION)) "meta converter version mismatch" []
  vrequire (strings[2]? = some (str PROFILE1_REGEX)) "meta profile regex mismatch" []

end Meta

/-- `verify_image`, of the image of the file `raw` that reads as `doc`. -/
def verifyImage (image raw : List UInt8) (doc : Json) (sourceName : Str) : Except VerifyFailure Unit := do
  verifyHeader image raw
  let h := BpvHeader.read image
  let table := h.sections.map fun s => (s.off, s.size)
  verifySections image.length HEADER_SIZE (SECTION_NAMES.zip table)
  vrequire (h.tokenOffsets.off = HEADER_SIZE) "first section does not start at offset 192" []
  vrequire (h.tokenOffsets.size = 4 * (h.vocabCount + 1)) "token_offsets size does not match vocab_count" []
  let offsets := words 4 (h.vocabCount + 1) (h.tokenOffsets.bytes image)
  let blob := h.tokenBlob.bytes image
  verifyOffsets h.vocabCount offsets blob
  vrequire (h.byteToId.size = 1024) "byte_to_id is not 1024 bytes" []
  verifyByteIds h.vocabCount (tokenBytes offsets blob) (words 4 256 (h.byteToId.bytes image))
  let nslots := 1 <<< h.pairSlotsLog2
  vrequire (h.pairTable.size = nslots * 16) "pair_table size does not match pair_slots_log2" []
  let pairs := words 8 (2 * nslots) (h.pairTable.bytes image)
  let doc ← expect (items doc)
  let model ← expect (items (get doc "model" .null))
  let vocab ← expect (items (get model "vocab" .null))
  let merges ← expect (elements (get model "merges" .null))
  verifyPairs vocab merges pairs nslots
  verifyVocab h.vocabCount (tokenBytes offsets blob) vocab
  vrequire (h.added.size = 16 * h.addedCount) "added section size does not match added_count" []
  let entries ← expect (elements (get doc "added_tokens" (.arr [])))
  verifyAdded h.vocabCount h.addedCount offsets blob entries
    (addedRecords (words 4 (h.addedCount * 4) (h.added.bytes image)))
  verifyMeta sourceName (h.metaInfo.bytes image)
  vrequire (h.flags % 2 = if isNull (get doc "normalizer" .null) then 0 else FLAG_NFC)
    "nfc flag does not match the source normalizer" []

/-- The status `main` ends with, if it ends, on a file, if it can be read, and what `json.loads` makes of it. `disk` is
what is read back of a file that is written. An exception that nothing catches ends Python with status 1. The report that
is printed behind a check that passes is left out. -/
def main (ceilLog2 : Nat → Nat) (sourceName : Str) (input : Option (List UInt8 × Option Json))
    (disk : List UInt8 → Option (List UInt8)) : Option Nat :=
  match input with
  | none => some 1
  | some (_, none) => some 2
  | some (raw, some doc) =>
    match convert ceilLog2 raw doc sourceName with
    | .error (.refusal _ _) => some 2
    | .error .overflow => some 1
    | .error .surrogate => some 1
    | .error .hang => none
    | .ok image =>
      match disk image with
      | none => some 1
      | some written =>
        match verifyImage written raw doc sourceName with
        | .ok _ => some 0
        | .error (.verify _ _) => some 3
        | .error .missing => some 1
        | .error .undecodable => some 1
        | .error .hang => none

end Bytepair.Convert
