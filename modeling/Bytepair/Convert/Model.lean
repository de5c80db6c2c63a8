import Bytepair.Utf8
import Bytepair.Util
import Mathlib.Data.List.Sort

/-!
# The converter

`tools/bpv_convert.py`, from the parsed `tokenizer.json` to the bytes of the image. A Python
`str` is its code points, lone surrogates included; a `dict` is its items in order, and
looking a key up finds the first. What a refusal says is its format string and what fills it.
Left out are the statistics of a run and the warnings on standard error.
-/

namespace Bytepair.Convert
open Support

/-- A Python string. -/
abbrev Str := List Nat

def str (s : String) : Str := s.toList.map Char.toNat

/-- What `json.loads` makes of a text. Of a float only its truth value is looked at. -/
inductive Json where
  | null
  | bool (b : Bool)
  | int (i : Int)
  | float (zero : Bool)
  | str (s : Str)
  | arr (xs : List Json)
  | obj (kvs : List (Str × Json))

/-- What fills a format string. -/
inductive Arg where
  | int (i : Int)
  | text (s : Str)
  | json (j : Json)

/-- How a conversion ends without an image: `Refusal`, or an exception nothing catches. -/
inductive Failure where
  | refusal (template : String) (args : List Arg)
  | overflow -- a number too large for its field
  | surrogate -- `encode("utf-8")` of a lone surrogate
  | hang -- a probe of a table without room

def MAGIC : Nat := 0x31565042
def FORMAT_VERSION : Nat := 1
def FLAG_NFC : Nat := 1
def PROFILE_ID_GPT4_STYLE : Nat := 1
def HEADER_SIZE : Nat := 192
def SECTION_ALIGN : Nat := 64
def EMPTY_KEY : Nat := 0xFFFFFFFFFFFFFFFF
def MIN_PAIR_SLOTS_LOG2 : Nat := 4

def CONVERTER_VERSION : String := "bpv_convert 0.1.0"

def PROFILE1_REGEX : String :=
  "(?i:'s|'t|'re|'ve|'m|'ll|'d)|[^\\r\\n\\p\x7bL\x7d\\p\x7bN\x7d]?\\p\x7bL\x7d+|\\p\x7bN\x7d|" ++
    " ?[^\\s\\p\x7bL\x7d\\p\x7bN\x7d]+[\\r\\n]*|\\s*[\\r\\n]+|\\s+(?!\\S)|\\s+"

/-- `_require`. -/
def require (cond : Bool) (template : String) (args : List Arg) : Except Failure Unit :=
  if cond then .ok () else .error (.refusal template args)

section Primitives

def fnv1a64 (data : List UInt8) : Nat :=
  data.foldl (fun h b => (h ^^^ b.toNat) * 0x100000001B3 % 2 ^ 64) 0xCBF29CE484222325

def fmix64 (h : Nat) : Nat :=
  let h := h % 2 ^ 64
  let h := h ^^^ (h >>> 33)
  let h := h * 0xFF51AFD7ED558CCD % 2 ^ 64
  let h := h ^^^ (h >>> 33)
  let h := h * 0xC4CEB9FE1A85EC53 % 2 ^ 64
  h ^^^ (h >>> 33)

def alignUp (value alignment : Nat) : Nat := (value + alignment - 1) / alignment * alignment

/-- The bytes that stand for themselves. -/
def isPrintable (b : Nat) : Bool := 0x21 ≤ b && b < 0x7F || 0xA1 ≤ b && b < 0xAD || 0xAE ≤ b && b < 0x100

/-- The alphabet from byte `b` on, `extra` of the bytes before it being moved. -/
def alphabetFrom (b extra : Nat) : Nat → List (Nat × Nat)
  | 0 => []
  | n + 1 =>
    if isPrintable b then (b, b) :: alphabetFrom (b + 1) extra n
    else (b, 0x100 + extra) :: alphabetFrom (b + 1) (extra + 1) n

/-- `byte_to_unicode`: the pairs of a byte and its code point. -/
def byteToUnicode : List (Nat × Nat) := alphabetFrom 0 0 256

/-- The code point of a byte, and the byte of a code point. -/
def b2u (b : UInt8) : Nat := (byteToUnicode.lookup b.toNat).getD 0

def u2b (ch : Nat) : Option UInt8 := ((byteToUnicode.find? (·.2 = ch)).map (·.1)).map UInt8.ofNat

/-- The little-endian bytes of a number. -/
def toLittleEndian : Nat → Nat → List UInt8
  | 0, _ => []
  | k + 1, n => UInt8.ofNat n :: toLittleEndian k (n / 256)

/-- `struct.pack` and `array.tobytes` of numbers of `k` bytes. -/
def pack (k : Nat) (values : List Nat) : Except Failure (List UInt8) :=
  if values.all (· < 256 ^ k) then .ok (values.flatMap (toLittleEndian k)) else .error .overflow

def u32Array (values : List Nat) : Except Failure (List UInt8) := pack 4 values

def u64Array (values : List Nat) : Except Failure (List UInt8) := pack 8 values

/-- `s.encode("utf-8")`. -/
def encodeUtf8 (s : Str) : Except Failure (List UInt8) :=
  if s.any fun ch => 0xD800 ≤ ch && ch < 0xE000 then .error .surrogate else .ok (s.flatMap encodeUnit)

end Primitives

section Values

/-- `d.get(key, default)`. -/
def get (kvs : List (Str × Json)) (key : String) (default : Json) : Json := (kvs.lookup (str key)).getD default

def isStr (j : Json) (s : String) : Bool :=
  match j with
  | .str t => t = str s
  | _ => false

/-- What a check of a stage's type says it got: the type, or the name of the value's Python type. -/
def typeOf : Json → Arg
  | .obj kvs => .json (get kvs "type" .null)
  | .null => .text (str "NoneType")
  | .bool _ => .text (str "bool")
  | .int _ => .text (str "int")
  | .float _ => .text (str "float")
  | .str _ => .text (str "str")
  | .arr _ => .text (str "list")

def isFalse : Json → Bool
  | .bool b => !b
  | _ => false

def isNull : Json → Bool
  | .null => true
  | _ => false

/-- `bool(j)`. -/
def truthy : Json → Bool
  | .null => false
  | .bool b => b
  | .int i => i ≠ 0
  | .float zero => !zero
  | .str s => s ≠ []
  | .arr xs => !xs.isEmpty
  | .obj kvs => !kvs.isEmpty

/-- `set(d.keys()) == {key}`. -/
def keysAre (kvs : List (Str × Json)) (key : String) : Bool := kvs.all (·.1 = str key) && !kvs.isEmpty

/-- A token id: an `int`, and not a `bool`, from 0 on. -/
def tokenId : Json → Option Nat
  | .int i => if 0 ≤ i then some i.toNat else none
  | _ => none

/-- The items of a `dict`; none of another value. -/
def items : Json → Option (List (Str × Json))
  | .obj kvs => some kvs
  | _ => none

def elements : Json → Option (List Json)
  | .arr xs => some xs
  | _ => none

/-- Go on with a value, or refuse. -/
def need {α : Type} (x : Option α) (template : String) (args : List Arg) : Except Failure α :=
  match x with
  | some a => .ok a
  | none => .error (.refusal template args)

end Values

section Validate

/-- `validate_normalizer`. -/
def validateNormalizer (doc : List (Str × Json)) : Except Failure Nat :=
  match get doc "normalizer" .null with
  | .null => .ok 0
  | norm => do
    require ((items norm).any fun kvs => keysAre kvs "type" && isStr (get kvs "type" .null) "NFC")
      "unsupported normalizer: bytepair implements exactly \x7b\"type\":\"NFC\"\x7d or null, got %s" [.json norm]
    pure FLAG_NFC

/-- The checks of stage 1. -/
def validateSplit (split : Json) : Except Failure Unit := do
  let kvs ← need ((items split).filter fun kvs => isStr (get kvs "type" .null) "Split")
    "unsupported pre_tokenizer: stage 1 must be Split, got %r" [typeOf split]
  let pattern ← need ((items (get kvs "pattern" .null)).filter fun p => keysAre p "Regex")
    "unsupported Split pattern: bytepair implements only pattern.Regex" []
  require (isStr (get pattern "Regex" .null) PROFILE1_REGEX)
    "unsupported Split regex: this build implements profile 1 only; source regex does not match the pinned profile 1 pattern"
    []
  require (isStr (get kvs "behavior" .null) "Isolated")
    "unsupported Split behavior: expected Isolated, got %r" [.json (get kvs "behavior" .null)]
  require (isFalse (get kvs "invert" .null))
    "unsupported Split: invert must be false, got %r" [.json (get kvs "invert" .null)]

/-- The checks of stage 2. -/
def validateByteLevel (bl : Json) : Except Failure Unit := do
  let kvs ← need ((items bl).filter fun kvs => isStr (get kvs "type" .null) "ByteLevel")
    "unsupported pre_tokenizer: stage 2 must be ByteLevel, got %r" [typeOf bl]
  require (isFalse (get kvs "add_prefix_space" .null))
    "unsupported ByteLevel: add_prefix_space must be false, got %r" [.json (get kvs "add_prefix_space" .null)]
  require (isFalse (get kvs "use_regex" .null))
    "unsupported ByteLevel: use_regex must be false, got %r" [.json (get kvs "use_regex" .null)]

/-- `validate_pre_tokenizer`. -/
def validatePreTokenizer (doc : List (Str × Json)) : Except Failure Unit := do
  let pre ← need ((items (get doc "pre_tokenizer" .null)).filter fun kvs => isStr (get kvs "type" .null) "Sequence")
    "unsupported pre_tokenizer: expected a Sequence of [Split, ByteLevel]" []
  match get pre "pretokenizers" .null with
  | .arr [split, bl] => do
    validateSplit split
    validateByteLevel bl
  | stages =>
    .error (.refusal "unsupported pre_tokenizer: expected exactly 2 stages, got %d"
      [.int ((elements stages).elim (-1) fun xs => xs.length)])

/-- The optional fields of the model, with what each must be. -/
def modelChecks (model : List (Str × Json)) : List (String × Json × Json × Bool) :=
  let unset name := (name, Json.null, get model name .null, isNull (get model name .null))
  let empty name := (name, Json.str [], get model name (.str []), !truthy (get model name (.str [])))
  let off name := (name, Json.bool false, get model name (.bool false), isFalse (get model name (.bool false)))
  [unset "dropout", unset "unk_token", empty "continuing_subword_prefix", empty "end_of_word_suffix",
    off "fuse_unk", off "byte_fallback", off "ignore_merges"]

/-- `validate_model`: the vocabulary and the merges. -/
def validateModel (doc : List (Str × Json)) : Except Failure (List (Str × Json) × List Json) := do
  let model ← need (items (get doc "model" .null)) "tokenizer.json has no model object" []
  require (isStr (get model "type" .null) "BPE")
    "unsupported model type: expected BPE, got %r" [.json (get model "type" .null)]
  (modelChecks model).forM fun (name, expected, actual, ok) =>
    require ok "unsupported BPE model: %s must be %r, got %r" [.text (str name), .json expected, .json actual]
  let vocab ← need (items (get model "vocab" .null)) "model.vocab is missing or not an object" []
  let merges ← need (elements (get model "merges" .null)) "model.merges is missing or not a list" []
  pure (vocab, merges)

/-- An added token as the source lists it. -/
structure AddedToken where
  tid : Nat
  content : Str
  special : Bool

/-- The checks of one entry of `added_tokens`. -/
def validateAdded (entry : Json) : Except Failure AddedToken := do
  let kvs ← need (items entry) "added_tokens entry is not an object" []
  let content ← need (match get kvs "content" .null with
    | .str s => if s ≠ [] then some s else none
    | _ => none) "added token has no content" []
  let tid ← need (tokenId (get kvs "id" .null)) "added token %r has a non-integer id" [.text content]
  ["single_word", "lstrip", "rstrip", "normalized"].forM fun field =>
    require (isFalse (get kvs field (.bool false)))
      "unsupported added token %r: %s must be false; bytepair implements only the all-false configuration and will not approximate it"
      [.text content, .text (str field)]
  pure ⟨tid, content, truthy (get kvs "special" (.bool false))⟩

/-- `validate_added_tokens`: the added tokens by id. -/
def validateAddedTokens (doc : List (Str × Json)) : Except Failure (List AddedToken) := do
  let entries ← need (elements (get doc "added_tokens" (.arr []))) "added_tokens must be a list" []
  let out ← entries.mapM validateAdded
  require (decide (out.map AddedToken.tid).Nodup) "added_tokens contain duplicate ids" []
  require (decide (out.map AddedToken.content).Nodup) "added_tokens contain duplicate contents" []
  pure (out.insertionSort fun s t => s.tid ≤ t.tid)

end Validate

section Build

/-- One entry of the vocabulary: its id and its bytes, before those claimed so far. -/
def decodeEntry (idToBytes : List (Nat × List UInt8)) (entry : Str × Json) :
    Except Failure (List (Nat × List UInt8)) := do
  let (text, id) := entry
  let tid ← need (tokenId id) "vocabulary entry %r has a non-integer id" [.text text]
  let raw ← text.mapM fun ch => need (u2b ch)
    "vocabulary entry %r contains %r, which is not in the GPT-2 byte alphabet" [.text text, .text [ch]]
  require (idToBytes.lookup tid).isNone "vocabulary id %d is claimed by two entries" [.int tid]
  pure ((tid, raw) :: idToBytes)

/-- `decode_vocab`. -/
def decodeVocab (vocab : List (Str × Json)) : Except Failure (List (Nat × List UInt8)) :=
  vocab.foldlM decodeEntry []

/-- `vocab.get(text)`, behind `decode_vocab`: every value is an id. -/
def vocabId (vocab : List (Str × Json)) (text : Str) : Option Nat := (vocab.lookup text).bind tokenId

/-- `build_byte_to_id`. -/
def buildByteToId (vocab : List (Str × Json)) : Except Failure (List Nat) := do
  let table ← (List.range 256).mapM fun b => need (vocabId vocab [b2u (UInt8.ofNat b)])
    "vocabulary has no single-byte token for byte 0x%02X (%r); byte-level BPE requires all 256"
    [.int b, .text [b2u (UInt8.ofNat b)]]
  require (decide table.Nodup) "single-byte tokens are not distinct" []
  pure table

/-- The two tokens of an entry of `model.merges`. -/
def mergeParts (rank : Nat) : Json → Except Failure (Str × Str)
  | .str s =>
    match s.splitOn 0x20 with
    | [left, right] => .ok (left, right)
    | _ => .error (.refusal
        "merge %d (%r) is not a two-token string; byte-level vocabularies never contain a literal space" [.int rank, .text s])
  | .arr [.str left, .str right] => .ok (left, right)
  | .arr [_, _] => .error (.refusal "merge %d has non-string members" [.int rank])
  | _ => .error (.refusal "merge %d is neither a string nor a 2-element list" [.int rank])

/-- The table of pairs while it is built. -/
structure PairTable where
  keys : List Nat
  values : List Nat
  byteMismatches : Nat

/-- The first slot from `slot` on that is empty or holds the key. -/
def probeSlot (keys : List Nat) (mask key : Nat) : Nat → Nat → Option Nat
  | 0, _ => none
  | bound + 1, slot =>
    let k := keys[slot]?.getD EMPTY_KEY
    if k = EMPTY_KEY || k = key then some slot else probeSlot keys mask key bound ((slot + 1) &&& mask)

/-- Put a pair into the table. -/
def insertPair (t : PairTable) (mask rank key value : Nat) (leftS rightS : Str) : Except Failure PairTable :=
  match probeSlot t.keys mask key t.keys.length (fmix64 key &&& mask) with
  | none => .error .hang
  | some slot =>
    if t.keys[slot]?.getD EMPTY_KEY = key then
      .error (.refusal "merge %d duplicates an earlier pair (%r, %r)" [.int rank, .text leftS, .text rightS])
    else .ok { t with keys := t.keys.set slot key, values := t.values.set slot value }

/-- One round of the loop over the merges. -/
def insertMerge (vocab : List (Str × Json)) (idToBytes : List (Nat × List UInt8)) (mask : Nat) (t : PairTable)
    (entry : Json × Nat) : Except Failure PairTable := do
  let (entry, rank) := entry
  let (leftS, rightS) ← mergeParts rank entry
  let left ← need (vocabId vocab leftS) "merge %d: left token %r is not in the vocabulary" [.int rank, .text leftS]
  let right ← need (vocabId vocab rightS) "merge %d: right token %r is not in the vocabulary" [.int rank, .text rightS]
  let merged ← need (vocabId vocab (leftS ++ rightS))
    "merge %d: merged token %r is not in the vocabulary" [.int rank, .text (leftS ++ rightS)]
  let bytesOf id := (idToBytes.lookup id).getD []
  if bytesOf left ++ bytesOf right ≠ bytesOf merged then pure { t with byteMismatches := t.byteMismatches + 1 }
  else do
    require (left < 2 ^ 32 && right < 2 ^ 32 && merged < 2 ^ 32)
      "merge %d references an id that does not fit in u32" [.int rank]
    let key := left <<< 32 ||| right
    require (key ≠ EMPTY_KEY) "merge %d produces the reserved empty key" [.int rank]
    insertPair t mask rank key (rank <<< 32 ||| merged) leftS rightS

/-- `build_pair_table`: the keys and the values. -/
def buildPairTable (merges : List Json) (vocab : List (Str × Json)) (idToBytes : List (Nat × List UInt8))
    (nslots : Nat) : Except Failure (List Nat × List Nat) := do
  let t ← merges.zipIdx.foldlM (insertMerge vocab idToBytes (nslots - 1))
    ⟨List.replicate nslots EMPTY_KEY, List.replicate nslots EMPTY_KEY, 0⟩
  require (t.byteMismatches = 0)
    "%d merge(s) do not satisfy bytes(left)+bytes(right) == bytes(merged); the vocabulary and merge list disagree"
    [.int t.byteMismatches]
  pure (t.keys, t.values)

/-- `encode_meta`. -/
def encodeMeta (texts : List Str) : Except Failure (List UInt8) := do
  let blobs ← texts.mapM fun text => do
    let blob ← encodeUtf8 text
    pure ((← u32Array [blob.length]) ++ blob)
  pure blobs.flatten

/-- The sections one behind the other from a file offset on, each followed by zeros up to the
next multiple of 64. -/
def layout (cursor : Nat) : List (List UInt8) → List UInt8
  | [] => []
  | payload :: payloads =>
    let next := alignUp (cursor + payload.length) SECTION_ALIGN
    payload ++ List.replicate (next - (cursor + payload.length)) 0 ++ layout next payloads

/-- The offsets and the sizes of the sections. -/
def sectionTable (cursor : Nat) : List (List UInt8) → List (Nat × Nat)
  | [] => []
  | payload :: payloads =>
    (cursor, payload.length) :: sectionTable (alignUp (cursor + payload.length) SECTION_ALIGN) payloads

/-- The image of its header fields and its sections. -/
def assemble (flags vocabCount addedCount slotsLog2 sourceHash : Nat) (payloads : List (List UInt8)) :
    Except Failure (List UInt8) := do
  let fixed ← pack 4 [MAGIC, FORMAT_VERSION, flags, PROFILE_ID_GPT4_STYLE, vocabCount, addedCount, slotsLog2, 0]
  let table ← pack 8 ((sectionTable HEADER_SIZE payloads).flatMap fun s => [s.1, s.2])
  let hash ← pack 8 [sourceHash]
  pure (fixed ++ table ++ hash ++ List.replicate 56 0 ++ layout HEADER_SIZE payloads)

/-- The bytes of a token id: of the vocabulary, of an added token, or none. -/
def pieceOf (idToBytes addedBytes : List (Nat × List UInt8)) (tid : Nat) : List UInt8 :=
  ((idToBytes.lookup tid).or (addedBytes.lookup tid)).getD []

/-- The bytes of an added token, which is not in the vocabulary. -/
def addedEntry (idToBytes : List (Nat × List UInt8)) (t : AddedToken) : Except Failure (Nat × List UInt8) := do
  require (idToBytes.lookup t.tid).isNone
    "added token id %d (%r) collides with a base vocabulary id" [.int t.tid, .text t.content]
  pure (t.tid, ← encodeUtf8 t.content)

/-- The record of an added token. -/
def addedRecord (offsets : List Nat) (addedBytes : List (Nat × List UInt8)) (t : AddedToken) : List Nat :=
  [t.tid, offsets[t.tid]?.getD 0, ((addedBytes.lookup t.tid).getD []).length, if t.special then 1 else 0]

variable (ceilLog2 : Nat → Nat)

/-- `convert`, of the file `raw` that reads as `doc`. `ceilLog2` stands for
`int(math.ceil(math.log2(nmerges / MAX_LOAD_FACTOR)))`; what it has to give is checked. -/
def convert (raw : List UInt8) (doc : Json) (sourceName : Str) : Except Failure (List UInt8) := do
  let doc ← need (items doc) "input JSON is not an object" []
  let flags ← validateNormalizer doc
  validatePreTokenizer doc
  let (vocab, merges) ← validateModel doc
  let added ← validateAddedTokens doc
  let idToBytes ← decodeVocab vocab
  let addedBytes ← added.mapM (addedEntry idToBytes)
  let ids := idToBytes.map (·.1) ++ added.map AddedToken.tid
  require (!ids.isEmpty) "the tokenizer has no tokens" []
  let vocabCount := ids.foldl max 0 + 1
  require (vocabCount < 2 ^ 32) "vocab_count does not fit in u32" []
  let pieces := (List.range vocabCount).map (pieceOf idToBytes addedBytes)
  let blob := pieces.flatten
  let offsets := pieces.scanl (fun n piece => n + piece.length) 0
  require (blob.length < 2 ^ 32) "token blob does not fit in u32 offsets" []
  let byteIds ← buildByteToId vocab
  byteIds.zipIdx.forM fun (tid, b) =>
    require ((idToBytes.lookup tid).getD [] = [UInt8.ofNat b])
      "single-byte token for 0x%02X decodes to %d bytes, not 1" [.int b, .int ((idToBytes.lookup tid).getD []).length]
  let nmerges := merges.length
  let slotsLog2 := if nmerges = 0 then MIN_PAIR_SLOTS_LOG2 else max MIN_PAIR_SLOTS_LOG2 (ceilLog2 nmerges)
  let nslots := 1 <<< slotsLog2
  require (20 * nmerges ≤ 13 * nslots) "internal: computed pair table load factor exceeds %.2f" []
  let (keys, values) ← buildPairTable merges vocab idToBytes nslots
  let addedRecords := added.flatMap (addedRecord offsets addedBytes)
  let payloads ← [u32Array offsets, pure blob, u64Array ((keys.zip values).flatMap fun s => [s.1, s.2]),
    u32Array byteIds, u32Array addedRecords,
    encodeMeta [sourceName, str CONVERTER_VERSION, str PROFILE1_REGEX]].mapM id
  assemble flags vocabCount added.length slotsLog2 (fnv1a64 raw) payloads

end Build

end Bytepair.Convert
