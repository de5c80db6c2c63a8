import Bytepair.Census.Run
import Bytepair.Support.Json

/-!
# The report of the census

What `bp_census_run` writes to its `json` stream. The stream is the characters it is written, and all of them are
ASCII. `bpCensusRun_json_iff`: it is a JSON text with a record for every token exactly if a comma that announces
a record is followed by one.
-/

namespace Bytepair
open Support

section Model

/-- `verdict_name`. -/
def verdictName : CensusVerdict → List Char
  | .added => "added".toList
  | .self => "self".toList
  | .context => "context".toList
  | .impossible => "impossible".toList
  | .unresolved => "unresolved".toList

/-- `reason_name`. -/
def reasonName : CensusReason → List Char
  | .none => []
  | .mergeOrder => "merge-order".toList
  | .invalidUtf8 => "invalid-utf8".toList
  | .pretokenShape => "pretoken-shape".toList
  | .contraction => "contraction".toList
  | .nfcExcluded => "nfc-excluded".toList

/-- `%u`. -/
def unsigned (n : Nat) : List Char := Nat.toDigits 10 n

/-- `%02x` of a byte. -/
def hexByte (b : UInt8) : List Char := [(b.toNat / 16).digitChar, (b.toNat % 16).digitChar]

/-- `put_hex`. -/
def putHex (p : List UInt8) : List Char := p.flatMap hexByte

/-- What `put_json_text` writes for a byte. -/
def jsonByte (b : UInt8) : List Char :=
  if b.toNat = 0x22 ∨ b.toNat = 0x5C then ['\\', Char.ofNat b.toNat]
  else if 0x20 ≤ b.toNat ∧ b.toNat < 0x7F then [Char.ofNat b.toNat]
  else ['\\', 'u', '0', '0'] ++ hexByte b

/-- `put_json_text`. -/
def putJsonText (p : List UInt8) : List Char := p.flatMap jsonByte

/-- The object that is written for a token. -/
def writeToken (row : CensusRow) : List Char :=
  let r := row.result
  "\x7b\"id\":".toList ++ unsigned row.id ++ ",\"hex\":\"".toList ++ putHex row.bytes ++ "\",\"text\":\"".toList ++
    putJsonText row.bytes ++ "\",\"verdict\":\"".toList ++ verdictName r.verdict ++ "\"".toList ++
    (if r.verdict = .impossible then ",\"reason\":\"".toList ++ reasonName r.reason ++ "\"".toList else []) ++
    (if r.witness ≠ [] then
      ",\"witness_hex\":\"".toList ++ putHex r.witness ++ "\",\"witness\":\"".toList ++ putJsonText r.witness ++
        "\"".toList
    else []) ++
    (if r.verdict = .unresolved then ",\"search_bound\":".toList ++ unsigned r.searched else []) ++ "\x7d".toList

/-- The line of a token, with `n` the number of ids that are looked at. -/
def writeRow (n : Nat) (row : CensusRow) : List Char :=
  "  ".toList ++ writeToken row ++ (if row.id + 1 < n then ",".toList else "".toList) ++ "\n".toList

/-- What is written before the loop. -/
def writeHeader (v : BpVocab) (n : Nat) (deep : Bool) : List Char :=
  "\x7b\n \"vocab_count\": ".toList ++ unsigned v.hdr.vocabCount ++ ",\n \"censused\": ".toList ++ unsigned n ++
    ",\n \"deep\": ".toList ++ (if deep then "true".toList else "false".toList) ++ ",\n \"tokens\": [\n".toList

/-- What `bp_census_run` writes to `json`: the rows are written as they are found. -/
def censusJson (T : Tables) (v : BpVocab) (c : BpCtx) (deep : Bool) (limit : Nat) : Run (List Char) := do
  let ((found, _), _) ← bpCensusRun T v c deep limit
  let n := censusCount v limit
  pure (writeHeader v n deep ++ found.rows.flatMap (writeRow n) ++ " ]\n\x7d\n".toList)

end Model

section Spec

/-- The code units of an ASCII string. -/
def codes (s : List Char) : List Nat := s.map Char.toNat

/-- What the members of a token's record have to say: its id, its bytes in hexadecimal and as a text with a code unit
for each, and a witness in the same two ways. -/
structure RecordOf (v : BpVocab) (t : Nat) (members : List (List Nat × Json)) : Prop where
  keys : (members.map Prod.fst).Nodup
  id : members.lookup (codes "id".toList) = some (.number (unsigned t))
  hex : members.lookup (codes "hex".toList) = some (.string (codes (putHex (v.span t))))
  text : members.lookup (codes "text".toList) = some (.string ((v.span t).map UInt8.toNat))
  witness : ∀ w, members.lookup (codes "witness".toList) = some w → ∃ bs : List UInt8, w = .string (bs.map UInt8.toNat) ∧
    members.lookup (codes "witness_hex".toList) = some (.string (codes (putHex bs)))

def IsRecord (v : BpVocab) (t : Nat) (record : Json) : Prop := ∃ members, record = .object members ∧ RecordOf v t members

/-- The ids below `n` that are in use. -/
def usedIds (v : BpVocab) (n : Nat) : List Nat := (List.range n).filter fun t => v.span t ≠ []

/-- The text is one JSON object, and its tokens are the records of the ids in use, in order. -/
def IsReport (v : BpVocab) (n : Nat) (s : List Char) : Prop := ∃ members records, Json.IsText s (.object members) ∧
  (members.map Prod.fst).Nodup ∧ members.lookup (codes "tokens".toList) = some (.array records) ∧
  List.Forall₂ (IsRecord v) (usedIds v n) records

/-- The last of the ids below `n` is in use, or none of them is. -/
def LastUsed (v : BpVocab) (n : Nat) : Prop := (∃ t, n = t + 1 ∧ v.span t ≠ []) ∨ ∀ t < n, v.span t = []

end Spec

section Strings

theorem hexValue_digitChar {d : Nat} (h : d < 16) : Json.hexValue d.digitChar = some d := by
  decide +revert

/-- A byte is escaped as itself. -/
theorem piece_jsonByte (b : UInt8) : Json.Piece (jsonByte b) [b.toNat] := by
  have hlt : b.toNat < 256 := UInt8.toNat_lt b
  unfold jsonByte
  split
  · next h =>
    apply Json.Piece.short
    rcases h with h | h
    · rw [h]
      decide
    · rw [h]
      decide
  split
  · next hno hplain =>
    generalize b.toNat = x at *
    have hchar : ∀ x < 0x7F, (Char.ofNat x).toNat = x := by decide
    have hx := hchar x hplain.2
    have hne : ∀ c : Char, c.toNat ≠ x → Char.ofNat x ≠ c := by
      rintro _ hc rfl
      exact hc hx
    have hpiece := @Json.Piece.plain (Char.ofNat x) (hx.symm ▸ hplain.1) (hne _ fun h => hno (.inl h.symm))
      (hne _ fun h => hno (.inr h.symm))
    rwa [Json.utf16, if_pos (by omega), hx] at hpiece
  · have hpiece := @Json.Piece.hex '0' '0' _ _ 0 0 _ _ rfl rfl (@hexValue_digitChar (b.toNat / 16) (by omega))
      (@hexValue_digitChar (b.toNat % 16) (by omega))
    rwa [show ((0 * 16 + 0) * 16 + b.toNat / 16) * 16 + b.toNat % 16 = b.toNat by omega] at hpiece

/-- **The text of bytes** is well escaped, and says the bytes. -/
theorem body_putJsonText (bs : List UInt8) : Json.Body (putJsonText bs) (bs.map UInt8.toNat) := by
  induction bs with
  | nil => exact .nil
  | cons b bs ih => exact .cons (piece_jsonByte b) ih

/-- Hexadecimal digits spell themselves in a string. -/
theorem body_putHex (bs : List UInt8) : Json.Body (putHex bs) (codes (putHex bs)) := by
  apply Json.body_plain
  intro c hc
  obtain ⟨b, -, hc⟩ := List.mem_flatMap.1 hc
  have hlt : b.toNat < 256 := UInt8.toNat_lt b
  have hdigit : ∀ d < 16, 0x20 ≤ d.digitChar.toNat ∧ d.digitChar.toNat < 0x10000 ∧ d.digitChar ≠ '"' ∧
      d.digitChar ≠ '\\' := by decide
  rcases List.mem_cons.1 hc with rfl | hc
  · exact hdigit _ (by omega)
  · rw [List.mem_singleton.1 hc]
    exact hdigit _ (by omega)

end Strings

section Token

/-- A member with a string. -/
def stringMember (name s : List Char) (units : List Nat) : Json.Member := ⟨name, codes name, Json.quoted s, .string units⟩

/-- A member with a number. -/
def numberMember (name : List Char) (n : Nat) : Json.Member := ⟨name, codes name, unsigned n, .number (unsigned n)⟩

/-- The members that are written for a token. -/
def tokenMembers (row : CensusRow) : List Json.Member :=
  let r := row.result
  [numberMember "id".toList row.id, stringMember "hex".toList (putHex row.bytes) (codes (putHex row.bytes)),
    stringMember "text".toList (putJsonText row.bytes) (row.bytes.map UInt8.toNat),
    stringMember "verdict".toList (verdictName r.verdict) (codes (verdictName r.verdict))] ++
    ((if r.verdict = .impossible then
      [stringMember "reason".toList (reasonName r.reason) (codes (reasonName r.reason))] else []) ++
    ((if r.witness ≠ [] then
      [stringMember "witness_hex".toList (putHex r.witness) (codes (putHex r.witness)),
        stringMember "witness".toList (putJsonText r.witness) (r.witness.map UInt8.toNat)] else []) ++
    if r.verdict = .unresolved then [numberMember "search_bound".toList r.searched] else []))

/-- What a member is. -/
abbrev said (m : Json.Member) : List Nat × Json := (m.key, m.value)

def tokenRecord (row : CensusRow) : Json := .object ((tokenMembers row).map said)

/-- A record is written as its members between braces. -/
theorem writeToken_eq (row : CensusRow) :
    writeToken row = '{' :: ([','].intercalate ((tokenMembers row).map Json.Member.written) ++ ['}']) := by
  obtain ⟨id, bytes, verdict, reason, witness, searched⟩ := row
  unfold writeToken tokenMembers
  dsimp only
  by_cases hw : witness = []
  · cases verdict <;> simp [hw, Json.Member.written, stringMember, numberMember, Json.quoted]
  · cases verdict <;> simp [hw, Json.Member.written, stringMember, numberMember, Json.quoted]

/-- Plain letters spell themselves. -/
theorem body_letters {s : List Char}
    (h : (s.all fun c => 0x20 ≤ c.toNat && c.toNat < 0x10000 && c != '"' && c != '\\') = true) :
    Json.Body s (codes s) := by
  apply Json.body_plain
  intro c hc
  have hchar := List.all_eq_true.1 h c hc
  simpa [and_assoc] using hchar

theorem body_verdictName (verdict : CensusVerdict) : Json.Body (verdictName verdict) (codes (verdictName verdict)) := by
  apply body_letters
  cases verdict <;> decide

theorem body_reasonName (reason : CensusReason) : Json.Body (reasonName reason) (codes (reasonName reason)) := by
  apply body_letters
  cases reason <;> decide

theorem stringMember_ok {name s : List Char} {units : List Nat} (hname : Json.Body name (codes name))
    (hs : Json.Body s units) : (stringMember name s units).Ok := ⟨hname, .string hs⟩

theorem numberMember_ok {name : List Char} (hname : Json.Body name (codes name)) (n : Nat) :
    (numberMember name n).Ok := ⟨hname, .number (Json.numeral_toDigits n)⟩

theorem tokenMembers_ok (row : CensusRow) : ∀ m ∈ tokenMembers row, m.Ok := by
  unfold tokenMembers
  refine List.forall_mem_append.2 ⟨?_, List.forall_mem_append.2 ⟨?_, List.forall_mem_append.2 ⟨?_, ?_⟩⟩⟩
  · refine List.forall_mem_cons.2 ⟨?_, List.forall_mem_cons.2 ⟨?_, List.forall_mem_cons.2 ⟨?_, ?_⟩⟩⟩
    · exact numberMember_ok (body_letters (by decide)) _
    · exact stringMember_ok (body_letters (by decide)) (body_putHex _)
    · exact stringMember_ok (body_letters (by decide)) (body_putJsonText _)
    · exact List.forall_mem_singleton.2 (stringMember_ok (body_letters (by decide)) (body_verdictName _))
  · split
    · exact List.forall_mem_singleton.2 (stringMember_ok (body_letters (by decide)) (body_reasonName _))
    · exact List.forall_mem_nil _
  · split
    · refine List.forall_mem_cons.2 ⟨?_, List.forall_mem_singleton.2 ?_⟩
      · exact stringMember_ok (body_letters (by decide)) (body_putHex _)
      · exact stringMember_ok (body_letters (by decide)) (body_putJsonText _)
    · exact List.forall_mem_nil _
  · split
    · exact List.forall_mem_singleton.2 (numberMember_ok (body_letters (by decide)) _)
    · exact List.forall_mem_nil _

/-- A record has the members that a report has for its id. -/
theorem tokenRecord_isRecord {v : BpVocab} {row : CensusRow} (hbytes : row.bytes = v.span row.id) :
    IsRecord v row.id (tokenRecord row) := by
  refine ⟨_, rfl, ?_⟩
  obtain ⟨id, bytes, verdict, reason, witness, searched⟩ := row
  dsimp only at hbytes ⊢
  rw [tokenMembers]
  dsimp only
  constructor
  · by_cases hwitness : witness = []
    · rw [if_neg (not_not.2 hwitness)]
      cases verdict <;> exact of_decide_eq_true rfl
    · rw [if_pos hwitness]
      cases verdict <;> exact of_decide_eq_true rfl
  · rfl
  · rw [← hbytes]
    rfl
  · rw [← hbytes]
    rfl
  · intro w hw
    refine ⟨witness, ?_⟩
    by_cases hwitness : witness = []
    · rw [if_neg (not_not.2 hwitness)] at hw
      cases verdict <;> cases hw
    · rw [if_pos hwitness] at hw ⊢
      cases verdict <;> exact ⟨(Option.some.inj hw).symm, rfl⟩

/-- The object of a token spells its record. -/
theorem spells_writeToken (row : CensusRow) : Json.Spells (.value (tokenRecord row)) (writeToken row) := by
  rw [writeToken_eq]
  exact .object (Json.spells_members (List.cons_ne_nil _ _) (tokenMembers_ok row))

end Token

section Document

variable {n : Nat}

theorem blank_newline : Json.Blank ['\n'] := Json.blank_of_all rfl

theorem spells_unsigned (k : Nat) : Json.Spells (.value (.number (unsigned k))) (unsigned k) :=
  .number (Json.numeral_toDigits k)

/-- Records with their lines: all but the last end with a comma. -/
theorem spells_rows {front : List CensusRow} {last : CensusRow} (hfront : ∀ row ∈ front, row.id + 1 < n)
    (hlast : ¬last.id + 1 < n) {l : List Char} (hl : Json.Blank l) :
    Json.Spells (.elements ((front ++ [last]).map tokenRecord))
      (l ++ (front ++ [last]).flatMap (writeRow n) ++ [' ']) := by
  have hindent : ∀ {l : List Char}, Json.Blank l → Json.Blank (l ++ [' ', ' ']) := fun hl =>
    List.forall_mem_append.2 ⟨hl, Json.blank_of_all rfl⟩
  induction front generalizing l with
  | nil =>
    have hpadded := Json.Spells.padded (hindent hl) (spells_writeToken last) (@Json.blank_of_all ['\n', ' '] rfl)
    have htext : l ++ ([] ++ [last]).flatMap (writeRow n) ++ [' '] =
        l ++ [' ', ' '] ++ writeToken last ++ ['\n', ' '] := by
      simp [writeRow, hlast]
    rw [htext]
    exact .element hpadded
  | cons row front ih =>
    obtain ⟨hrow, hfront⟩ := List.forall_mem_cons.1 hfront
    have hpadded := Json.Spells.padded (hindent hl) (spells_writeToken row) Json.blank_nil
    have htext : l ++ (row :: front ++ [last]).flatMap (writeRow n) ++ [' '] =
        l ++ [' ', ' '] ++ writeToken row ++ [] ++ ',' :: (['\n'] ++ (front ++ [last]).flatMap (writeRow n) ++ [' ']) := by
      simp [writeRow, hrow]
    rw [htext]
    exact .elements hpadded (ih hfront blank_newline)

/-- A member on a line of its own, with `after` behind its value. -/
def line (name s after : List Char) : List Char :=
  ['\n', ' '] ++ Json.quoted name ++ ':' :: ([' '] ++ s ++ after)

/-- A line spells a member. -/
theorem spells_line {name s after : List Char} {v : Json} (hname : Json.Body name (codes name))
    (h : Json.Spells (.value v) s) (hafter : Json.Blank after) :
    Json.Spells (.members [(codes name, v)]) (line name s after) := by
  have hmember := Json.Spells.member (@Json.blank_of_all ['\n', ' '] rfl) hname Json.blank_nil
    (Json.Spells.padded (@Json.blank_of_all [' '] rfl) h hafter)
  rwa [List.append_nil] at hmember

def deepText (deep : Bool) : List Char := if deep then "true".toList else "false".toList

theorem spells_deep (deep : Bool) : Json.Spells (.value (.bool deep)) (deepText deep) := by
  cases deep with
  | true => exact .true
  | false => exact .false

/-- The report is its lines between braces. -/
theorem document_eq (v : BpVocab) (deep : Bool) (inside : List Char) :
    writeHeader v n deep ++ inside ++ " ]\n\x7d\n".toList =
      [] ++ ('{' :: ((line "vocab_count".toList (unsigned v.hdr.vocabCount) [] ++
        ',' :: (line "censused".toList (unsigned n) [] ++ ',' :: (line "deep".toList (deepText deep) [] ++
        ',' :: line "tokens".toList ('[' :: (['\n'] ++ inside ++ [' '] ++ [']'])) ['\n']))) ++ ['}'])) ++ ['\n'] := by
  have hcount : "\x7b\n \"vocab_count\": ".toList =
      '{' :: '\n' :: ' ' :: '"' :: ("vocab_count".toList ++ ['"', ':', ' ']) := rfl
  have hcensused : ",\n \"censused\": ".toList = ',' :: '\n' :: ' ' :: '"' :: ("censused".toList ++ ['"', ':', ' ']) := rfl
  have hdeep : ",\n \"deep\": ".toList = ',' :: '\n' :: ' ' :: '"' :: ("deep".toList ++ ['"', ':', ' ']) := rfl
  have htokens : ",\n \"tokens\": [\n".toList =
      ',' :: '\n' :: ' ' :: '"' :: ("tokens".toList ++ ['"', ':', ' ', '[', '\n']) := rfl
  have hend : " ]\n\x7d\n".toList = [' ', ']', '\n', '}', '\n'] := rfl
  unfold writeHeader
  simp only [hcount, hcensused, hdeep, htokens, hend, line, Json.quoted, deepText, List.append_assoc, List.cons_append,
    List.nil_append]

/-- The document around the array of the records. -/
theorem spells_document (v : BpVocab) (deep : Bool) {records : List Json} {inside : List Char}
    (h : Json.Spells (.value (.array records)) ('[' :: (['\n'] ++ inside ++ [' '] ++ [']']))) :
    Json.IsText (writeHeader v n deep ++ inside ++ " ]\n\x7d\n".toList) (.object
      [(codes "vocab_count".toList, .number (unsigned v.hdr.vocabCount)),
        (codes "censused".toList, .number (unsigned n)), (codes "deep".toList, .bool deep),
        (codes "tokens".toList, .array records)]) := by
  rw [document_eq]
  refine .padded Json.blank_nil (.object (.members ?_ (.members ?_ (.members ?_ ?_)))) blank_newline
  · exact spells_line (body_letters (by decide)) (spells_unsigned _) Json.blank_nil
  · exact spells_line (body_letters (by decide)) (spells_unsigned _) Json.blank_nil
  · exact spells_line (body_letters (by decide)) (spells_deep _) Json.blank_nil
  · exact spells_line (body_letters (by decide)) h blank_newline

/-- A row is read through, and a comma is behind it but for the last id. -/
theorem scan_writeRow (row : CensusRow) {r : Json.Reading} (hr : r.Outside) :
    Json.scan r (writeRow n row) = if row.id + 1 < n then .comma else .plain := by
  have hindent : Json.Blank "  ".toList := Json.blank_of_all rfl
  unfold writeRow
  rw [Json.scan_append, Json.scan_append, Json.scan_append, Json.scan_blank hindent hr,
    (spells_writeToken row).scan hr]
  split <;> rfl

/-- Behind lines that all end with a comma a record is announced. -/
theorem scan_rows {rows : List CensusRow} (hrows : ∀ row ∈ rows, row.id + 1 < n) (hne : rows ≠ [])
    {r : Json.Reading} (hr : r.Outside) : Json.scan r (rows.flatMap (writeRow n)) = .comma := by
  induction rows generalizing r with
  | nil => exact absurd rfl hne
  | cons row rows ih =>
    obtain ⟨hrow, hrows⟩ := List.forall_mem_cons.1 hrows
    rw [List.flatMap_cons, Json.scan_append, scan_writeRow row hr, if_pos hrow]
    cases rows with
    | nil => rfl
    | cons row' rows => exact ih hrows (List.cons_ne_nil _ _) (.inr rfl)

theorem scan_unsigned (k : Nat) : Json.scan .plain (unsigned k) = .plain :=
  (spells_unsigned k).scan (.inl rfl)

theorem scan_header (v : BpVocab) (deep : Bool) : Json.scan .plain (writeHeader v n deep) = .plain := by
  have hcount : Json.scan .plain "\x7b\n \"vocab_count\": ".toList = .plain := by decide
  have hcensused : Json.scan .plain ",\n \"censused\": ".toList = .plain := by decide
  have hdeep : Json.scan .plain ",\n \"deep\": ".toList = .plain := by decide
  have htokens : Json.scan .plain ",\n \"tokens\": [\n".toList = .plain := by decide
  unfold writeHeader
  rw [Json.scan_append, Json.scan_append, Json.scan_append, Json.scan_append, Json.scan_append, Json.scan_append, hcount,
    scan_unsigned, hcensused, scan_unsigned, hdeep]
  have hvalue := (spells_deep deep).scan (.inl rfl : Json.Reading.Outside .plain)
  rw [deepText] at hvalue
  rw [hvalue, htokens]

/-- A document in which no record follows the last comma is no JSON text. -/
theorem not_isText_of_commas (v : BpVocab) (deep : Bool) {rows : List CensusRow} (hrows : ∀ row ∈ rows, row.id + 1 < n)
    (hne : rows ≠ []) :
    ¬∃ j, Json.IsText (writeHeader v n deep ++ rows.flatMap (writeRow n) ++ " ]\n\x7d\n".toList) j := by
  apply Json.not_isText_of_broken
  rw [Json.scan_append, Json.scan_append, scan_header, scan_rows hrows hne (.inl rfl)]
  rfl

end Document

section Rows

variable {host : Host} {map : List UInt8} {v : BpVocab}

/-- The stream of a census: the lines are those of the ids in use. -/
theorem censusJson_rows (h : Opens host map v) {c : BpCtx} (hc : c.Reached shipped v) (deep : Bool) (limit : Nat) :
    ∃ rows, RowsOf v (List.range (censusCount v limit)) rows ∧ censusJson shipped v c deep limit =
      .ok (writeHeader v (censusCount v limit) deep ++ rows.flatMap (writeRow (censusCount v limit)) ++
        " ]\n\x7d\n".toList) := by
  have hready : Ready v c.scratch.Granted c := ⟨h.coherent hc, fun hg => hg⟩
  obtain ⟨found, status, c', hrun, -, hsound, -⟩ := bpCensusRun_spec h hready deep limit
  refine ⟨found.rows, hsound.rows, ?_⟩
  rw [censusJson, hrun, Run.ok_bind]
  rfl

variable {n : Nat} {rows : List CensusRow}

/-- A row is of an id in use below the limit. -/
theorem RowsOf.mem (hrows : RowsOf v (List.range n) rows) {row : CensusRow} (h : row ∈ rows) :
    row.id < n ∧ v.span row.id ≠ [] := by
  have hid : row.id ∈ rows.map CensusRow.id := List.mem_map.2 ⟨row, h, rfl⟩
  rw [hrows.ids] at hid
  obtain ⟨hlt, hne⟩ := List.mem_filter.1 hid
  exact ⟨List.mem_range.1 hlt, of_decide_eq_true hne⟩

/-- The records say what they should. -/
theorem RowsOf.records (hrows : RowsOf v (List.range n) rows) :
    List.Forall₂ (IsRecord v) (usedIds v n) (rows.map tokenRecord) := by
  rw [usedIds, ← hrows.ids, List.forall₂_map_left_iff, List.forall₂_map_right_iff, List.forall₂_same]
  exact fun row hrow => tokenRecord_isRecord (hrows.bytes row hrow)

/-- The array of the records is spelled if the last id is in use, or none is. -/
theorem RowsOf.array (hrows : RowsOf v (List.range n) rows) (hlast : LastUsed v n) :
    Json.Spells (.value (.array (rows.map tokenRecord)))
      ('[' :: (['\n'] ++ rows.flatMap (writeRow n) ++ [' '] ++ [']'])) := by
  rcases hlast with ⟨t, rfl, ht⟩ | hnone
  · have hids : rows.map CensusRow.id = usedIds v t ++ [t] := by
      rw [hrows.ids, List.range_succ, List.filter_append, usedIds]
      simp [ht]
    obtain ⟨front, back, rfl, hfront, hback⟩ := List.map_eq_append_iff.1 hids
    obtain ⟨last, rfl, hid⟩ := List.map_eq_singleton_iff.1 hback
    refine .array (spells_rows ?_ ?_ blank_newline)
    · intro row hrow
      have hmem : row.id ∈ usedIds v t := hfront ▸ List.mem_map.2 ⟨row, hrow, rfl⟩
      have hlt := List.mem_range.1 (List.mem_filter.1 hmem).1
      omega
    · omega
  · have hnil : rows = [] := by
      apply List.eq_nil_iff_forall_not_mem.2
      intro row hrow
      obtain ⟨hlt, hne⟩ := hrows.mem hrow
      exact hne (hnone row.id hlt)
    rw [hnil]
    exact .emptyArray (Json.blank_of_all rfl)

/-- A row whose id is not the last, and no row for the last: then every line ends with a comma. -/
theorem RowsOf.commas (hrows : RowsOf v (List.range n) rows) (hlast : ¬LastUsed v n) :
    (∀ row ∈ rows, row.id + 1 < n) ∧ rows ≠ [] := by
  obtain ⟨hhole, hsome⟩ := not_or.1 hlast
  constructor
  · intro row hrow
    obtain ⟨hlt, hne⟩ := hrows.mem hrow
    rcases Nat.lt_or_ge (row.id + 1) n with hbefore | hge
    · exact hbefore
    · exact absurd ⟨row.id, by omega, hne⟩ hhole
  · rintro rfl
    apply hsome
    intro t ht
    by_contra hne
    have hmem : t ∈ (List.range n).filter fun t => v.span t ≠ [] :=
      List.mem_filter.2 ⟨List.mem_range.2 ht, decide_eq_true hne⟩
    rw [← hrows.ids] at hmem
    cases hmem

end Rows

section Report

variable {host : Host} {map : List UInt8} {v : BpVocab}

/-- **When the report is JSON.** On every handle, with every limit and at either depth, what is written to the stream
is one JSON object with a record for each id in use below the number that are looked at, in order, exactly if the
last of these ids is in use, or none is. -/
theorem bpCensusRun_json_iff (h : Opens host map v) {c : BpCtx} (hc : c.Reached shipped v) (deep : Bool) (limit : Nat) :
    ∃ s, censusJson shipped v c deep limit = .ok s ∧
      (IsReport v (censusCount v limit) s ↔ LastUsed v (censusCount v limit)) := by
  obtain ⟨rows, hrows, hrun⟩ := censusJson_rows h hc deep limit
  refine ⟨_, hrun, ?_⟩
  constructor
  · rintro ⟨members, records, htext, -⟩
    by_contra hlast
    obtain ⟨hcommas, hne⟩ := hrows.commas hlast
    exact not_isText_of_commas v deep hcommas hne ⟨_, htext⟩
  · intro hlast
    refine ⟨_, _, spells_document v deep (hrows.array hlast), ?_, rfl, hrows.records⟩
    exact of_decide_eq_true rfl

theorem bpCensusRun_json_toy : ∃ c : BpCtx, c.Reached shipped Convert.toy.vocab ∧
    ∃ s, censusJson shipped Convert.toy.vocab c true 0 = .ok s ∧
      IsReport Convert.toy.vocab (censusCount Convert.toy.vocab 0) s := by
  obtain ⟨c, hc, -⟩ := toy_context
  obtain ⟨s, hrun, hiff⟩ := bpCensusRun_json_iff Convert.toy_opens hc true 0
  refine ⟨c, hc, s, hrun, hiff.2 (.inl ⟨censusCount Convert.toy.vocab 0 - 1, ?_⟩)⟩
  decide +kernel

/-- A vocabulary with an id that is not in use. -/
def sparse : Convert.Sample where
  flags := 0
  tokens := [[], [0x61, 0x62]]
  merges := []
  added := []
  info := [0, 0, 0, 0]
  sourceHash := 0

theorem sparse_opens : sparse.Opens := Convert.Sample.opens (by decide +kernel)

/-- With a limit behind an id that is not in use, what is written is no JSON text. -/
theorem not_censusJson : Opens ⟨true, true, true⟩ sparse.image sparse.vocab ∧
    (∀ c : BpCtx, c.Reached shipped sparse.vocab → ∀ deep, ∃ s, censusJson shipped sparse.vocab c deep 257 = .ok s ∧
      ¬∃ j, Json.IsText s j) ∧
    ¬∀ (host : Host) (map : List UInt8) (v : BpVocab), Opens host map v → ∀ c : BpCtx, c.Reached shipped v →
      ∀ (deep : Bool) (limit : Nat), ∃ s, censusJson shipped v c deep limit = .ok s ∧
        IsReport v (censusCount v limit) s := by
  have hopens : Opens ⟨true, true, true⟩ sparse.image sparse.vocab := sparse_opens
  have hcount : censusCount sparse.vocab 257 = 257 := by decide +kernel
  have hhole : sparse.vocab.span 256 = [] := by decide +kernel
  have hletter : sparse.vocab.span 0x61 ≠ [] := by decide +kernel
  have hlast : ¬LastUsed sparse.vocab 257 := by
    rintro (⟨t, ht, hused⟩ | hnone)
    · obtain rfl : t = 256 := by omega
      exact hused hhole
    · exact hletter (hnone 0x61 (by decide))
  have hrun : ∀ c : BpCtx, c.Reached shipped sparse.vocab → ∀ deep, ∃ s,
      censusJson shipped sparse.vocab c deep 257 = .ok s ∧ ¬∃ j, Json.IsText s j := by
    intro c hc deep
    obtain ⟨rows, hrows, hrun⟩ := censusJson_rows hopens hc deep 257
    rw [hcount] at hrows hrun
    obtain ⟨hcommas, hne⟩ := hrows.commas hlast
    exact ⟨_, hrun, not_isText_of_commas _ deep hcommas hne⟩
  refine ⟨hopens, hrun, fun hall => ?_⟩
  obtain ⟨c, hc, -⟩ := exists_context sparse.vocab
  obtain ⟨s, hs, hno⟩ := hrun c hc true
  obtain ⟨s', hs', members, records, htext, -⟩ := hall _ _ _ hopens c hc true 257
  obtain rfl : s = s' := Except.ok.inj (hs.symm.trans hs')
  exact hno ⟨_, htext⟩

end Report

end Bytepair
