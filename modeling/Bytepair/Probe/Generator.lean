import Bytepair.Probe.Model

/-!
# The generator: `main`

What `tools/gen_tables.py` does around the tables: it checks the digests of the Unicode files and the evidence for the
version of the normalization data, compares the probed classes with those of `UnicodeData.txt`, and emits tables only where
few differ. The parsers of the Unicode files and of JSON, SHA-256 and the files that are written are left out: the files are
given as what is read of them.
-/

namespace Bytepair.GenTables
open Support

def UCD_NFC_VERSION : String := "9.0.0"

def LETTER_CATEGORIES : List String := ["Lu", "Ll", "Lt", "Lm", "Lo"]
def NUMBER_CATEGORIES : List String := ["Nd", "Nl", "No"]
def SPACE_CATEGORIES : List String := ["Zs", "Zl", "Zp"]

/-- The members of White_Space that have no category Z. -/
def WHITESPACE_CONTROLS : List Nat := [0x09, 0x0A, 0x0B, 0x0C, 0x0D, 0x85]

section Evidence

/-- A problem of the evidence for the version of the normalization data. -/
inductive PinProblem where
  | disagreements (count : Nat)
  | version (found : Option String)
  | ucd9
  | ucd16
  | selfCheck
  | marks
  | decompositions
  | tokenizer
  | build (classProbe nfcProbe : Option String)
  deriving DecidableEq

def PinProblem.template : PinProblem → String
  | .disagreements _ => "the probe records %d disagreement%s between the build and UCD %s"
  | .version _ => "the probe pins NFC to %s, this generator emits %s"
  | .ucd9 => "the probe ran against different Unicode 9.0.0 files"
  | .ucd16 => "the probe ran against different Unicode 16.0.0 files"
  | .selfCheck => "the probe's reference normalizer failed its own NormalizationTest.txt"
  | .marks => "the build does not treat every post-9.0.0 combining mark as a starter, so the 9.0.0 pin is wrong"
  | .decompositions => "the build composes a decomposition added after 9.0.0, so the 9.0.0 pin is wrong"
  | .tokenizer => "the class probe and the NFC probe used different tokenizer files"
  | .build .. => "the class probe and the NFC probe used different builds (%s vs %s)"

/-- How `main` ends by an exception. -/
inductive Stop where
  | failure (f : Failure)
  | osError
  | digest (name expected actual : String)
  | noDigests
  | noProbe
  | pin (problems : List PinProblem)
  | classes (template : String)
  deriving DecidableEq

def Stop.template : Stop → Option String
  | .failure (.systemExit template _) => some template
  | .failure _ => none
  | .osError => none
  | .digest .. => some "UCD file %s does not match SHA256SUMS\n  expected %s\n  actual   %s"
  | .noDigests => some "%s lists no files"
  | .noProbe => some "%s is missing; run tools/probe_nfc_version.py before generating"
  | .pin _ => some "NFC version pin not evidenced:\n  "
  | .classes template => some template

/-- The digests of files, by name. -/
abbrev Digests := List (String × String)

/-- The loop of `verify_sums` over the lines that are left. -/
def verifyFrom (sha256 : String → Option String) : Digests → Digests → Except Stop Digests
  | digests, [] => .ok digests
  | digests, (name, digest) :: lines =>
    match sha256 name with
    | none => .error .osError
    | some actual =>
      if actual ≠ digest then .error (.digest name digest actual)
      else verifyFrom sha256 (if (digests.lookup name).isSome then digests else digests ++ [(name, digest)]) lines

/-- `verify_sums`, over the lines of `SHA256SUMS` that list a file. -/
def verifySums (sha256 : String → Option String) (lines : Digests) : Except Stop Digests := do
  let digests ← verifyFrom sha256 [] lines
  if digests = [] then throw .noDigests
  pure digests

/-- What is read of the NFC probe. A list is its length, a missing one 0; a flag is whether the value is true. -/
structure NfcProbe where
  disagreements : Nat
  nfcUnicodeVersion : Option String
  ucd9Sha256 : Option Digests
  ucd16Sha256 : Option Digests
  selfCheckFailures : Bool
  treatsAllAsStarters : Bool
  composesNone : Bool
  tokenizerSha256 : Option String
  probedBuild : Option String
  assertions : Option Nat
  codepointsProbed : Option Nat

/-- What is read of the class probe's metadata. -/
structure ClassMeta where
  tokenizerSha256 : Option String
  probedBuild : Option String

/-- The value is a dict with these items, in any order. -/
def sameDigests (found : Option Digests) (digests : Digests) : Bool := found.any fun items => items.isPerm digests

/-- The problems of `check_nfc_probe`. -/
def pinProblems (probe : NfcProbe) (digests9 digests16 : Digests) (classMeta : ClassMeta) : List PinProblem :=
  (if probe.disagreements ≠ 0 then [.disagreements probe.disagreements] else []) ++
    (if probe.nfcUnicodeVersion ≠ some UCD_NFC_VERSION then [.version probe.nfcUnicodeVersion] else []) ++
    (if sameDigests probe.ucd9Sha256 digests9 then [] else [.ucd9]) ++
    (if sameDigests probe.ucd16Sha256 digests16 then [] else [.ucd16]) ++
    (if probe.selfCheckFailures then [.selfCheck] else []) ++
    (if probe.treatsAllAsStarters then [] else [.marks]) ++
    (if probe.composesNone then [] else [.decompositions]) ++
    (if probe.tokenizerSha256 ≠ classMeta.tokenizerSha256 then [.tokenizer] else []) ++
    (if probe.probedBuild ≠ classMeta.probedBuild then [.build classMeta.probedBuild probe.probedBuild] else [])

/-- `check_nfc_probe`; a file that is missing is none. -/
def checkNfcProbe (probe : Option NfcProbe) (digests9 digests16 : Digests) (classMeta : Option ClassMeta) :
    Except Stop NfcProbe :=
  match probe, classMeta with
  | none, _ => .error .noProbe
  | some _, none => .error .osError
  | some probe, some classMeta =>
    if pinProblems probe digests9 digests16 classMeta ≠ [] then
      .error (.pin (pinProblems probe digests9 digests16 classMeta))
    else .ok probe

end Evidence

section Classes

/-- `classes[cp] |= bits`. -/
def orClass (classes : List UInt8) (item : Nat × Nat) : Except Failure (List UInt8) :=
  if item.1 < classes.length then .ok (classes.modify item.1 (· ||| Probe.classByte item.2)) else .error .valueError

/-- The class bits of a general category. -/
def categoryBits (cat : String) : Nat :=
  if LETTER_CATEGORIES.contains cat then BP_CC_L
  else if NUMBER_CATEGORIES.contains cat then BP_CC_N
  else if SPACE_CATEGORIES.contains cat then BP_CC_S
  else 0

/-- A round over the categories; one without class bits writes nothing. -/
def categoryRound (classes : List UInt8) (item : Nat × String) : Except Failure (List UInt8) :=
  if categoryBits item.2 = 0 then .ok classes else orClass classes (item.1, categoryBits item.2)

/-- `ucd_char_classes`. -/
def ucdCharClasses (category : List (Nat × String)) : Except Failure (List UInt8) := do
  let classes ← category.foldlM categoryRound (List.replicate MAX_CP 0)
  let classes ← (WHITESPACE_CONTROLS.map fun cp => (cp, BP_CC_S)).foldlM orClass classes
  let classes ← orClass classes (0x0D, BP_CC_NL)
  orClass classes (0x0A, BP_CC_NL)

end Classes

section Main

/-- What is parsed: the categories of the one Unicode version, and the normalization data of the other. -/
structure Parsed where
  category : List (Nat × String)
  ucd : Ucd
  qc : List QcRange
  keys : (category.map Prod.fst).Nodup

/-- A directory of Unicode files: the lines of its `SHA256SUMS`, and the digests of the files that can be read. -/
structure UcdDir where
  sums : Digests
  sha256 : String → Option String

/-- What `main` reads. -/
structure Inputs where
  ucd : UcdDir
  ucd9 : UcdDir
  nfcProbe : Option NfcProbe
  classMeta : Option ClassMeta
  artifact : List UInt8
  parsed : Except Failure Parsed

/-- What `main` leaves: its status, the code points it reports as different, and the tables it writes. -/
structure Outcome where
  status : Nat
  disagreements : List Nat
  tables : Option Tables

/-- `[cp for cp in range(MAX_CP) if derived[cp] != probe_classes[cp]]`. -/
def disagreements (derived probeClasses : List UInt8) : List Nat :=
  (List.range MAX_CP).filter fun cp => derived[cp]? != probeClasses[cp]?

/-- The checks at the start of `main`. -/
def evidence (i : Inputs) : Except Stop NfcProbe := do
  let digests ← verifySums i.ucd.sha256 i.ucd.sums
  let digests9 ← verifySums i.ucd9.sha256 i.ucd9.sums
  checkNfcProbe i.nfcProbe digests9 digests i.classMeta

/-- The tables of `main`, from the probed classes and what is parsed. -/
def generate (classes : List UInt8) (parsed : Parsed) : Except Failure Tables := do
  let fullDecomp ← expandDecompositions parsed.ucd.decomp
  let pairs ← compositionPairs parsed.ucd
  let bytes ← cccBytes parsed.ucd.ccc
  let cc ← buildTwoLevel classes
  let ccc ← buildTwoLevel bytes
  emitSource cc ccc parsed.qc fullDecomp pairs

/-- `main`, with `--max-disagreements`. -/
def main (i : Inputs) (maxDisagreements : Int) : Except Stop Outcome := do
  let nfcProbe ← evidence i
  let classes ← (Probe.readClasses i.artifact).mapError Stop.classes
  let parsed ← i.parsed.mapError Stop.failure
  let derived ← (ucdCharClasses parsed.category).mapError Stop.failure
  let found := disagreements derived classes
  -- the report reads two counts of the NFC probe
  if nfcProbe.assertions = none ∨ nfcProbe.codepointsProbed = none then throw (.failure .keyError)
  if maxDisagreements < found.length then return ⟨1, found, none⟩
  let tables ← (generate classes parsed).mapError Stop.failure
  return ⟨0, found, some tables⟩

end Main

section Marks

/-- The bits that a list of code points with bits has for a code point. -/
def bitsAt (items : List (Nat × Nat)) (cp : Nat) : Nat :=
  items.foldr (fun item bits => if item.1 = cp then item.2 ||| bits else bits) 0

theorem bitsAt_cons (item : Nat × Nat) (items : List (Nat × Nat)) (cp : Nat) :
    bitsAt (item :: items) cp = if item.1 = cp then item.2 ||| bitsAt items cp else bitsAt items cp := rfl

/-- A loop that marks one code point a round leaves each with the bits of all its rounds. -/
theorem foldlM_marks {ι : Type} {round : List UInt8 → ι → Except Failure (List UInt8)} {mark : ι → Nat × Nat} {n : Nat}
    (hround : ∀ classes item, classes.length = n → (mark item).1 < n → round classes item = orClass classes (mark item))
    {items : List ι} {classes : List UInt8} (hlen : classes.length = n) (h : ∀ item ∈ items, (mark item).1 < n) :
    ∃ classes', items.foldlM round classes = .ok classes' ∧ classes'.length = n ∧
      ∀ cp : Nat, classes'[cp]? = classes[cp]?.map (· ||| Probe.classByte (bitsAt (items.map mark) cp)) := by
  induction items generalizing classes with
  | nil =>
    refine ⟨classes, rfl, hlen, fun cp => ?_⟩
    simp [bitsAt, Probe.classByte]
  | cons item items ih =>
    obtain ⟨hitem, hrest⟩ := List.forall_mem_cons.1 h
    have hone : round classes item = .ok (classes.modify (mark item).1 (· ||| Probe.classByte (mark item).2)) := by
      rw [hround classes item hlen hitem, orClass, if_pos (by rwa [hlen])]
    obtain ⟨classes', hrun, hlen', hread⟩ := @ih (classes.modify (mark item).1 (· ||| Probe.classByte (mark item).2))
      (by rwa [List.length_modify]) hrest
    refine ⟨classes', ?_, hlen', fun cp => ?_⟩
    · rw [List.foldlM_cons, hone]
      exact hrun
    · rw [hread, List.getElem?_modify, List.map_cons, bitsAt_cons]
      split
      · cases classes[cp]? with
        | none => rfl
        | some cls => simp [Probe.classByte, UInt8.ofNat_or, UInt8.or_assoc]
      · cases classes[cp]? with
        | none => rfl
        | some cls => rfl

/-- The same bits at some code points. -/
theorem bitsAt_const {cps : List Nat} {bits cp : Nat} :
    bitsAt (cps.map fun c => (c, bits)) cp = if cp ∈ cps then bits else 0 := by
  induction cps with
  | nil => rfl
  | cons c cps ih =>
    rw [List.map_cons, bitsAt_cons, ih]
    rcases eq_or_ne c cp with rfl | hne
    · rw [if_pos rfl, if_pos List.mem_cons_self]
      split
      · apply Nat.or_self
      · apply Nat.or_zero
    · simp only [if_neg hne, List.mem_cons, hne.symm, false_or]

/-- A dict marks each of its code points once. -/
theorem bitsAt_dict {items : List (Nat × String)} (hkeys : (items.map Prod.fst).Nodup) (cp : Nat) :
    bitsAt (items.map fun item => (item.1, categoryBits item.2)) cp = (items.lookup cp).elim 0 categoryBits := by
  induction items with
  | nil => rfl
  | cons item items ih =>
    obtain ⟨c, cat⟩ := item
    rw [List.map_cons, List.nodup_cons] at hkeys
    rw [List.map_cons, bitsAt_cons, ih hkeys.2, List.lookup_cons]
    rcases eq_or_ne cp c with rfl | hne
    · have hnone : items.lookup cp = none := lookup_eq_none.2 hkeys.1
      rw [if_pos rfl, hnone, beq_self_eq_true, Option.elim_none, Nat.or_zero, Option.elim_some]
    · rw [if_neg hne.symm, beq_false_of_ne hne]

end Marks

section Derived

/-- The class bits of a code point by its general category. -/
def derivedBits (category : List (Nat × String)) (cp : Nat) : Nat :=
  (category.lookup cp).elim 0 categoryBits ||| (if cp ∈ WHITESPACE_CONTROLS then BP_CC_S else 0) |||
    if isCrLf cp then BP_CC_NL else 0

theorem derivedBits_lt (category : List (Nat × String)) (cp : Nat) : derivedBits category cp < 2 ^ 8 := by
  unfold derivedBits
  apply Nat.or_lt_two_pow
  · apply Nat.or_lt_two_pow
    · cases category.lookup cp with
      | none => exact Nat.two_pow_pos 8
      | some cat =>
        rw [Option.elim_some, categoryBits]
        repeat' split
        all_goals decide
    · split <;> decide
  · split <;> decide

/-- The round over the categories is that over their bits. -/
theorem categoryRound_eq {classes : List UInt8} {item : Nat × String} (h : item.1 < classes.length) :
    categoryRound classes item = orClass classes (item.1, categoryBits item.2) := by
  unfold categoryRound
  split
  · next hzero =>
    rw [orClass, if_pos h, hzero]
    congr 1
    apply List.ext_getElem?
    intro cp
    rw [List.getElem?_modify]
    cases classes[cp]? with
    | none => rfl
    | some cls => split <;> simp [Probe.classByte]
  · rfl

/-- `ucd_char_classes` gives every code point the bits of its category, and the controls theirs. -/
theorem ucdCharClasses_spec {category : List (Nat × String)} (hkeys : (category.map Prod.fst).Nodup)
    (h : ∀ item ∈ category, item.1 < MAX_CP) :
    ∃ classes, ucdCharClasses category = .ok classes ∧
      ∀ cp < MAX_CP, classes[cp]? = some (Probe.classByte (derivedBits category cp)) := by
  obtain ⟨byCategory, hrun, hlen, hread⟩ := @foldlM_marks (Nat × String) categoryRound
    (fun item => (item.1, categoryBits item.2)) MAX_CP (fun classes item hlen hitem => categoryRound_eq (hlen ▸ hitem))
    category (List.replicate MAX_CP 0) List.length_replicate h
  obtain ⟨withControls, hrun₁, hlen₁, hread₁⟩ := @foldlM_marks (Nat × Nat) orClass id MAX_CP (fun _ _ _ _ => rfl)
    (WHITESPACE_CONTROLS.map fun cp => (cp, BP_CC_S)) byCategory hlen (by decide)
  obtain ⟨classes, hrun₂, -, hread₂⟩ := @foldlM_marks (Nat × Nat) orClass id MAX_CP (fun _ _ _ _ => rfl)
    ([0x0D, 0x0A].map fun cp => (cp, BP_CC_NL)) withControls hlen₁ (by decide)
  refine ⟨classes, ?_, fun cp hcp => ?_⟩
  · rw [ucdCharClasses, hrun, ok_bind, hrun₁, ok_bind, ← hrun₂]
    simp only [List.map_cons, List.map_nil, List.foldlM_cons, List.foldlM_nil, bind_pure]
  · rw [hread₂, hread₁, hread, List.getElem?_replicate, if_pos hcp, bitsAt_dict hkeys, List.map_id, List.map_id,
      bitsAt_const, bitsAt_const]
    simp [derivedBits, Probe.classByte, UInt8.ofNat_or, isCrLf]

end Derived

section Outcomes

/-- The code points whose bits by category are not the given ones. -/
def differing (category : List (Nat × String)) (bits : Nat → Nat) : List Nat :=
  (List.range MAX_CP).filter fun cp => derivedBits category cp != bits cp

/-- Classes that are written as one byte are one. -/
theorem classByte_inj {a b : Nat} (ha : a < 2 ^ 8) (hb : b < 2 ^ 8) (h : Probe.classByte a = Probe.classByte b) : a = b := by
  have hnat := congrArg UInt8.toNat h
  rwa [Probe.classByte, Probe.classByte, UInt8.toNat_ofNat_of_lt' ha, UInt8.toNat_ofNat_of_lt' hb] at hnat

/-- The code points that disagree are those whose classes differ. -/
theorem disagreements_eq {category : List (Nat × String)} {bits : Nat → Nat} {derived classes : List UInt8}
    (hbits : ∀ cp, bits cp < 2 ^ 8)
    (hderived : ∀ cp < MAX_CP, derived[cp]? = some (Probe.classByte (derivedBits category cp)))
    (hclasses : ∀ cp < MAX_CP, classes[cp]? = some (Probe.classByte (bits cp))) :
    disagreements derived classes = differing category bits := by
  unfold disagreements differing
  refine List.filter_congr fun cp hmem => ?_
  have hcp := List.mem_range.1 hmem
  rw [hderived cp hcp, hclasses cp hcp, Bool.eq_iff_iff, bne_iff_ne, bne_iff_ne, not_iff_not, Option.some.injEq]
  constructor
  · exact classByte_inj (derivedBits_lt category cp) (hbits cp)
  · exact congrArg Probe.classByte

/-- What the steps of `main` make of the normalization data. -/
structure Parsed.Gives (parsed : Parsed) (p : Parse) : Prop where
  decomp : expandDecompositions parsed.ucd.decomp = .ok p.decomp
  pairs : compositionPairs parsed.ucd = .ok p.pairs
  ccc : parsed.ucd.ccc = p.ccc
  qc : parsed.qc = p.qc

/-- What is generated is what is emitted of the parse. -/
theorem Parsed.Gives.generate_eq {parsed : Parsed} {p : Parse} (h : parsed.Gives p) :
    generate p.classes parsed = emitTables p := by
  obtain ⟨cc, blocks, hcc, -⟩ := buildTwoLevel_spec p.classes_length
  obtain ⟨bytes, hbytes, -⟩ := cccBytes_spec p
  rw [generate, h.decomp, ok_bind, h.pairs, ok_bind, h.ccc, hbytes, ok_bind, hcc, ok_bind, h.qc, emitTables, hcc, ok_bind,
    hbytes, ok_bind]

/-- The digests are as listed and the probe vouches for the version, with the counts that the report prints. -/
def Inputs.Evidenced (i : Inputs) : Prop :=
  ∃ probe, evidence i = .ok probe ∧ probe.assertions ≠ none ∧ probe.codepointsProbed ≠ none

/-- What `main` does where the evidence is there and what it reads is well formed: it stops where more classes than
allowed are not as by category, and emits the tables else. -/
theorem main_spec {i : Inputs} {parsed : Parsed} {p : Parse} {bits : Nat → Nat} (hev : i.Evidenced)
    (hparsed : i.parsed = .ok parsed) (hcategory : ∀ item ∈ parsed.category, item.1 < MAX_CP) (hgives : parsed.Gives p)
    (hp : p.classes = i.artifact) (hbits : ∀ cp, bits cp < 2 ^ 8)
    (hclasses : ∀ cp < MAX_CP, i.artifact[cp]? = some (Probe.classByte (bits cp))) (maxDisagreements : Int) :
    main i maxDisagreements =
      if maxDisagreements < (differing parsed.category bits).length then
        .ok ⟨1, differing parsed.category bits, none⟩
      else ((emitTables p).mapError Stop.failure).map fun T => ⟨0, differing parsed.category bits, some T⟩ := by
  obtain ⟨probe, hevidence, hassertions, hprobed⟩ := hev
  obtain ⟨derived, hrun, hderived⟩ := ucdCharClasses_spec parsed.keys hcategory
  have hread : Probe.readClasses i.artifact = .ok i.artifact := by
    apply if_neg
    rw [← hp]
    exact not_not_intro p.classes_length
  rw [main, hevidence, ok_bind, hread, hparsed]
  simp only [Except.mapError, ok_bind, hrun, disagreements_eq hbits hderived hclasses, hassertions, hprobed, or_self, if_false]
  split
  · rfl
  · rw [← hp, hgives.generate_eq]
    cases emitTables p <;> rfl

end Outcomes

end Bytepair.GenTables
