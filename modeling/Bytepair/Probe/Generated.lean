import Bytepair.Probe.Exact
import Bytepair.Probe.Generator
import Bytepair.Scan.Shipped

/-!
# The scanner over probed classes

From the probe over the generator to the scanner: whatever pre-tokenizer that splits by the regex is probed, the scanner
over the tables that are generated from the classes splits every text as it does.
-/

namespace Bytepair.Probe
open Support

section Classes

variable {kind : Nat → Kind}

theorem kindBits_lt (cp : Nat) : kindBits kind cp < 256 := by
  unfold kindBits
  split
  · decide
  · split
    · decide
    · cases kind cp <;> decide

/-- The tables of the kinds pass the checks on a class table, where ASCII is as usual. -/
theorem kindTables_checked (hascii : ∀ cp < 0x80, kind cp = asciiKind cp) : (kindTables kind).ClassesChecked 0x1100 where
  index k hk := ⟨hk, id⟩
  first := rfl
  cell i _ := by
    change cellOk i (kindBits kind i) = true
    unfold cellOk
    split
    · next hi =>
      rw [Bool.or_eq_true, beq_iff_eq, beq_iff_eq] at hi
      rcases hi with rfl | rfl <;> rw [kindBits_scalar (by decide), hascii _ (by decide)] <;> decide
    · next hi =>
      have hcr : isCrLf i = false := by simpa [isCrLf] using hi
      unfold kindBits
      rw [hcr]
      split
      · rfl
      · cases kind i <;> decide
  ascii n hn := by
    have all : ∀ n < 256, (letterTail (UInt8.ofNat n) = true ↔ n < 0x80 ∧ asciiKind n = .letter) ∧
        (symbolTail (UInt8.ofNat n) = true ↔ n < 0x80 ∧ asciiKind n = .other) := of_allBelow (by decide +kernel)
    have hscalar : n < 0x80 → IsScalar n := fun h => .inl (by omega)
    rw [(all n hn).1, (all n hn).2]
    constructor
    · exact and_congr_right fun h => by rw [isL_kind (hscalar h), hascii n h, decide_eq_true_eq]
    · exact and_congr_right fun h => by rw [isOther_kind (hscalar h), hascii n h, decide_eq_true_eq]
  space := by
    rw [isS_kind (by decide), hascii 0x20 (by decide)]
    decide

/-- The scanner sees a table by the class of each code point only. -/
theorem scannable_of_classes {T T' : Tables} (hT : T.Scannable) (h : ∀ u, T'.bpCharClass u = T.bpCharClass u) :
    T'.Scannable ∧ splitRegex T' = splitRegex T := by
  have hL : isL T' = isL T := funext fun u => by rw [isL, isL, h]
  have hN : isN T' = isN T := funext fun u => by rw [isN, isN, h]
  have hS : isS T' = isS T := funext fun u => by rw [isS, isS, h]
  have hO : isOther T' = isOther T := funext fun u => by rw [isOther, isOther, hL, hN, hS]
  constructor
  · constructor
    · constructor
      · rw [hL, hN, hS]
        exact hT.letter
      · rw [hN, hS]
        exact hT.number
      · intro u
        rw [h]
        exact hT.newline u
      · rw [hS]
        exact hT.newline_space
      · rw [hS]
        exact hT.space
    · rw [hL]
      exact hT.asciiLetter
    · rw [hO]
      exact hT.asciiSymbol
  · unfold splitRegex wordRegex symbolRegex newlineRegex trailingRegex
    rw [hL, hN, hS, hO]

end Classes

/-- The classes are emitted, and read back. -/
theorem emit_classes (p : GenTables.Parse) : ∃ T, GenTables.emitTables p = .ok T ∧
    ∀ cp, T.bpCharClass cp = (p.classes[cp]?.map UInt8.toNat).getD 0 := by
  obtain ⟨ccIndex, ccBlocks, hcc, hclass⟩ := GenTables.buildTwoLevel_spec p.classes_length
  obtain ⟨bytes, hbytes, hlen, -⟩ := GenTables.cccBytes_spec p
  obtain ⟨cccIndex, cccBlocks, hccc, -⟩ := GenTables.buildTwoLevel_spec hlen
  have hrun : GenTables.emitTables p =
      GenTables.emitSource (ccIndex, ccBlocks) (cccIndex, cccBlocks) p.qc p.decomp p.pairs := by
    rw [GenTables.emitTables, hcc, ok_bind, hbytes, ok_bind, hccc, ok_bind]
  rw [GenTables.emitSource_eq] at hrun
  exact ⟨_, hrun, GenTables.two_levels p.classes_length hclass⟩

section Probed

variable {kind : Nat → Kind} {pre : List Nat → List (List Nat)} {chunk : Nat} {order : List (Nat × Nat)}

theorem probes_of_ascii (hascii : ∀ cp < 0x80, kind cp = asciiKind cp) : Probes kind where
  letter := hascii 0x61 (by decide)
  mark := hascii 0x21 (by decide)

/-- What the tables that are generated from the artifact say of a code point. -/
theorem charClass_probed (hascii : ∀ cp < 0x80, kind cp = asciiKind cp) (hpre : Engine kind pre) (hchunk : 0 < chunk)
    (horder : order.Perm (chunkBounds MAX_CP chunk)) (cp : Nat) :
    ((report (chunkResults pre order)).artifact[cp]?.map UInt8.toNat).getD 0 = (kindTables kind).bpCharClass cp := by
  have hprobes := probes_of_ascii hascii
  rcases Nat.lt_or_ge cp MAX_CP with hlt | hge
  · have hnl : isCrLf cp = true → kind cp ≠ .number := by
      intro hcr
      rcases crLf_cases hcr with rfl | rfl <;> rw [hascii _ (by decide)] <;> decide
    unfold MAX_CP at hlt
    rw [artifact_of_kind hprobes hpre hchunk horder hlt hnl, charClass_kind (by omega), Option.map_some, Option.getD_some,
      classByte, UInt8.toNat_ofNat', Nat.mod_eq_of_lt (kindBits_lt cp)]
  · rw [artifact_eq hchunk horder, List.getElem?_eq_none (by rwa [length_slice])]
    unfold MAX_CP at hge
    exact (bpCharClass_of_gt (by omega)).symm

/-- **The scanner splits as the probed pre-tokenizer.** Whatever pre-tokenizer that splits by the regex of profile 1, over any
classes that are the usual ones in ASCII, is probed, in whatever order the chunks are done: the probe has no complaint. Where
`gen_tables.py` finds its evidence and well-formed Unicode data, it writes nothing from this artifact if more code points than
allowed have another class by category; else it writes tables over which the scanner hands over, for every text of whole code
points, with the kernels or without, the pieces of that pre-tokenizer, up to the first error. -/
theorem generated_scanner (hascii : ∀ cp < 0x80, kind cp = asciiKind cp) (hpre : Engine kind pre) (hchunk : 0 < chunk)
    (horder : order.Perm (chunkBounds MAX_CP chunk)) {i : GenTables.Inputs}
    (hartifact : i.artifact = (report (chunkResults pre order)).artifact) (hev : i.Evidenced) {parsed : GenTables.Parsed}
    (hparsed : i.parsed = .ok parsed) (hcategory : ∀ item ∈ parsed.category, item.1 < MAX_CP) {p : GenTables.Parse}
    (hgives : parsed.Gives p) (hp : p.classes = i.artifact) (maxDisagreements : Int) :
    (report (chunkResults pre order)).status = 0 ∧
      (maxDisagreements < (GenTables.differing parsed.category (kindBits kind)).length →
        GenTables.main i maxDisagreements = .ok ⟨1, GenTables.differing parsed.category (kindBits kind), none⟩) ∧
      ((GenTables.differing parsed.category (kindBits kind)).length ≤ maxDisagreements →
        ∃ T, GenTables.main i maxDisagreements = .ok ⟨0, GenTables.differing parsed.category (kindBits kind), some T⟩ ∧
          ∀ (σ : Type) (emit : σ → List UInt8 → Run (Except Err Unit × σ)) (simd : Bool) (s : σ) (t : List UInt8),
            (∀ u ∈ units t, IsScalar u) → bpScanGpt4 T emit simd s t = feed emit s ((pre (units t)).map encodeUnits)) := by
  have hprobes := probes_of_ascii hascii
  have hclasses : ∀ cp < GenTables.MAX_CP, i.artifact[cp]? = some (classByte (kindBits kind cp)) := by
    intro cp hcp
    rw [hartifact]
    apply artifact_of_kind hprobes hpre hchunk horder hcp
    intro hcr
    rcases crLf_cases hcr with rfl | rfl <;> rw [hascii _ (by decide)] <;> decide
  have hmain := GenTables.main_spec hev hparsed hcategory hgives hp kindBits_lt hclasses maxDisagreements
  refine ⟨?_, fun hmore => ?_, fun hfew => ?_⟩
  · rw [status_of_kind hprobes hpre hchunk horder]
    refine ⟨hascii 0x20 (by decide), fun cp hcr => .inr ?_⟩
    rcases crLf_cases hcr with rfl | rfl
    · exact hascii 0x0D (by decide)
    · exact hascii 0x0A (by decide)
  · rw [hmain, if_pos hmore]
  · obtain ⟨T, hT, hread⟩ := emit_classes p
    obtain ⟨hscannable, hregex⟩ := @scannable_of_classes _ T (kindTables_checked hascii).scannable fun cp => by
      rw [hread, hp, hartifact, charClass_probed hascii hpre hchunk horder]
    refine ⟨T, ?_, fun σ emit simd s t hscalar => ?_⟩
    · rw [hmain, if_neg (by omega), hT]
      rfl
    · rw [bpScanGpt4_eq hscannable, splitSpans, hregex, hpre.splits _ hscalar]
      rfl

end Probed

section Ascii

theorem length_ascii : (report (chunkResults (pieces asciiKind) lastFirst)).artifact.length = MAX_CP := by
  rw [@artifact_eq (pieces asciiKind) 4096 lastFirst (by decide) (List.reverse_perm _), length_slice]

/-- The general categories of ASCII, as far as they give class bits. -/
def asciiCategory (cp : Nat) : String :=
  if 0x41 ≤ cp ∧ cp ≤ 0x5A then "Lu"
  else if 0x61 ≤ cp ∧ cp ≤ 0x7A then "Ll"
  else if 0x30 ≤ cp ∧ cp ≤ 0x39 then "Nd"
  else if cp = 0x20 then "Zs"
  else "Cc"

/-- No code point has two categories. -/
theorem keys_ascii : (((List.range 0x80).map fun cp => (cp, asciiCategory cp)).map Prod.fst).Nodup := by
  rw [List.map_map]
  exact List.nodup_range.map fun _ _ h => h

/-- The categories of ASCII, without any normalization data. -/
def asciiParsed : GenTables.Parsed where
  category := (List.range 0x80).map fun cp => (cp, asciiCategory cp)
  ucd := ⟨[], [], [], [], List.nodup_nil⟩
  qc := []
  keys := keys_ascii

/-- One file in each directory, and a probe that vouches for it. -/
def asciiInputs : GenTables.Inputs where
  ucd := ⟨[("UnicodeData.txt", "16")], fun _ => some "16"⟩
  ucd9 := ⟨[("UnicodeData.txt", "9")], fun _ => some "9"⟩
  nfcProbe := some ⟨0, some "9.0.0", some [("UnicodeData.txt", "9")], some [("UnicodeData.txt", "16")], false, true, true,
    some "t", some "b", some 0, some 0⟩
  classMeta := some ⟨some "t", some "b"⟩
  artifact := (report (chunkResults (pieces asciiKind) lastFirst)).artifact
  parsed := .ok asciiParsed

theorem evidenced_ascii : asciiInputs.Evidenced := by
  refine ⟨_, rfl, ?_, ?_⟩
  · exact Option.some_ne_none 0
  · exact Option.some_ne_none 0

theorem pairs_ascii : GenTables.compositionPairs asciiParsed.ucd = .ok [] := by
  simp [GenTables.compositionPairs, asciiParsed, GenTables.pairsFrom, GenTables.disagree]
  rfl

/-- The parse of the small inputs. -/
theorem gives_ascii : ∃ p : GenTables.Parse, asciiParsed.Gives p ∧ p.classes = asciiInputs.artifact := by
  refine ⟨⟨asciiInputs.artifact, [], [], [], [], length_ascii, .nil, ?_, .nil, ?_, .nil, ?_, .nil, ?_⟩,
    ⟨rfl, pairs_ascii, rfl, rfl⟩, rfl⟩
  · exact fun _ hitem => absurd hitem List.not_mem_nil
  · exact fun _ hrange => absurd hrange List.not_mem_nil
  · exact fun _ hitem => absurd hitem List.not_mem_nil
  · exact fun _ hitem => absurd hitem List.not_mem_nil

theorem category_ascii {item : Nat × String} (h : item ∈ asciiParsed.category) : item.1 < 0x80 := by
  obtain ⟨cp, hcp, rfl⟩ := List.mem_map.1 h
  exact List.mem_range.1 hcp

/-- Behind U+0085 the categories of ASCII give no bits, as its kinds. -/
theorem derivedBits_ascii {cp : Nat} (h : 0x86 ≤ cp) :
    GenTables.derivedBits asciiParsed.category cp = kindBits asciiKind cp := by
  have hlookup : asciiParsed.category.lookup cp = none := by
    rw [lookup_eq_none]
    intro hmem
    obtain ⟨item, hitem, rfl⟩ := List.mem_map.1 hmem
    have := category_ascii hitem
    omega
  have hcontrols : cp ∉ GenTables.WHITESPACE_CONTROLS := by
    simp only [GenTables.WHITESPACE_CONTROLS, List.mem_cons, List.not_mem_nil, or_false]
    omega
  have hcr : isCrLf cp = false := by
    apply Bool.eq_false_iff.2
    intro hcr
    rcases crLf_cases hcr with rfl | rfl <;> omega
  have hkind : asciiKind cp = .other := by
    unfold asciiKind
    rw [if_neg (by omega), if_neg (by omega), if_neg (by omega)]
  unfold GenTables.derivedBits kindBits
  rw [hlookup, if_neg hcontrols, hcr, hkind]
  simp [Kind.bits]

/-- The categories differ from the classes at few code points. -/
theorem differing_ascii : (GenTables.differing asciiParsed.category (kindBits asciiKind)).length ≤ 0x86 := by
  have hsub : GenTables.differing asciiParsed.category (kindBits asciiKind) ⊆ List.range 0x86 := by
    intro cp hcp
    rw [List.mem_range]
    by_contra hge
    have hne := (List.mem_filter.1 hcp).2
    rw [derivedBits_ascii (by omega), bne_self_eq_false] at hne
    cases hne
  have hnodup : (GenTables.differing asciiParsed.category (kindBits asciiKind)).Nodup := List.nodup_range.filter _
  have hle := (List.subperm_of_subset hnodup hsub).length_le
  rwa [List.length_range] at hle

theorem generated_scanner_ascii : ∃ T dis, GenTables.main asciiInputs 200 = .ok ⟨0, dis, some T⟩ ∧
    bpScanGpt4 T (fun spans p => .ok (.ok (), spans ++ [p])) true [] [0x68, 0x69, 0x20, 0x79, 0x6F, 0x75, 0x21] =
      .ok (.ok (), [[0x68, 0x69], [0x20, 0x79, 0x6F, 0x75], [0x21]]) := by
  obtain ⟨p, hgives, hp⟩ := gives_ascii
  obtain ⟨-, -, hgenerated⟩ := @generated_scanner asciiKind (pieces asciiKind) 4096 lastFirst (fun _ _ => rfl)
    ⟨fun _ _ => rfl⟩ (by decide) (List.reverse_perm _) asciiInputs rfl evidenced_ascii asciiParsed rfl
    (fun item hitem => Nat.lt_trans (category_ascii hitem) (by decide)) p hgives hp 200
  have hfew := differing_ascii
  obtain ⟨T, hT, hscan⟩ := hgenerated (by omega)
  refine ⟨T, _, hT, ?_⟩
  rw [hscan _ _ true [] _ (by decide), feed_record]
  rfl

end Ascii

end Bytepair.Probe
