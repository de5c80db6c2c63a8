import Bytepair.Scan.Model
import Bytepair.Scan.Split

/-!
# The scanner makes the ordered tests

Each function of `src/bp_scan.c` on a text does to the bytes what its counterpart over units
(`Bytepair.Scan.Split`) does to the units of the text. `spanLength_eq` puts them together:
a round of the scanner emits the bytes of the next match of the split regex.
-/

namespace Bytepair
open Support

section Peek

variable {T : Tables}

/-- Beyond the last code point there is no class. -/
theorem bpCharClass_of_gt {cp : Nat} (h : 0x10FFFF < cp) : T.bpCharClass cp = 0 := by
  simp [Tables.bpCharClass, h]

/-- The unit at a byte, and what `bp_utf8_next` and `peek` say of it. -/
structure UnitAt (b : UInt8) (rest : List UInt8) (u : Nat) (t : List UInt8) : Prop where
  text : b :: rest = encodeUnit u ++ t
  units : units (b :: rest) = u :: units t
  ascii : b < 0x80 → u = b.toNat
  high : ¬b < 0x80 → 0x80 ≤ u
  adv : (bpUtf8Next b rest).2 = (encodeUnit u).length
  bad : (bpUtf8Next b rest).1 = malformed → 0x10FFFF < u
  good : (bpUtf8Next b rest).1 ≠ malformed → (bpUtf8Next b rest).1 = u

/-- At every byte there is a unit. -/
theorem unitAt (b : UInt8) (rest : List UInt8) : ∃ u t, UnitAt b rest u t := by
  obtain ⟨u, t, hu, hcat, hunit⟩ := nextUnit_spec b rest
  have hadv : (bpUtf8Next b rest).2 = (encodeUnit u).length := congrArg Prod.snd hu
  have hcp : (if (bpUtf8Next b rest).1 = malformed then tagBase + b.toNat else (bpUtf8Next b rest).1) = u :=
    congrArg Prod.fst hu
  refine ⟨u, t, hcat, units_cons hu hcat, fun hb => ?_, fun hb => ?_, hadv, fun hbad => ?_, fun hgood => ?_⟩
  · rw [bpUtf8Next_one hb] at hcp
    have hne : b.toNat ≠ malformed := by
      have := b.toNat_lt
      unfold malformed
      omega
    rw [if_neg hne] at hcp
    exact hcp.symm
  · by_contra hlt
    have henc := encodeUnit_one (Nat.lt_of_not_le hlt)
    rw [henc] at hcat
    have hb' : b = UInt8.ofNat u := (List.cons.inj hcat).1
    apply hb
    rw [hb', UInt8.lt_iff_toNat_lt, UInt8.toNat_ofNat_of_lt' (show u < 256 by omega)]
    exact Nat.lt_of_not_le hlt
  · rw [if_pos hbad] at hcp
    rw [← hcp]
    unfold tagBase
    omega
  · rwa [if_neg hgood] at hcp

theorem UnitAt.drop {b : UInt8} {rest t : List UInt8} {u : Nat} (h : UnitAt b rest u t) :
    (b :: rest).drop (encodeUnit u).length = t := by
  rw [h.text, List.drop_left]

theorem UnitAt.lt_length {b : UInt8} {rest t : List UInt8} {u : Nat} (h : UnitAt b rest u t) :
    t.length < (b :: rest).length := by
  have := length_encodeUnit_pos u
  rw [h.text, List.length_append]
  omega

theorem UnitAt.length_ascii {b : UInt8} {rest t : List UInt8} {u : Nat} (h : UnitAt b rest u t)
    (hb : b < 0x80) : (encodeUnit u).length = 1 := by
  rw [encodeUnit_one (by rw [h.ascii hb]; exact hb)]
  rfl

theorem UnitAt.rest_ascii {b : UInt8} {rest t : List UInt8} {u : Nat} (h : UnitAt b rest u t)
    (hb : b < 0x80) : t = rest := by
  rw [← h.drop, h.length_ascii hb]
  rfl

/-- Peeking at a byte gives the length and the class of its unit. -/
theorem UnitAt.peek {b : UInt8} {rest t : List UInt8} {u : Nat} (h : UnitAt b rest u t) :
    (peek T b rest).adv = (encodeUnit u).length ∧ (peek T b rest).cl = T.bpCharClass u := by
  unfold Bytepair.peek
  by_cases hb : b < 0x80
  · rw [if_pos hb, h.length_ascii hb, h.ascii hb]
    exact ⟨rfl, rfl⟩
  · rw [if_neg hb]
    refine ⟨h.adv, ?_⟩
    show (if (bpUtf8Next b rest).1 = malformed then 0 else T.bpCharClass (bpUtf8Next b rest).1) = _
    by_cases hbad : (bpUtf8Next b rest).1 = malformed
    · rw [if_pos hbad, bpCharClass_of_gt (h.bad hbad)]
    · rw [if_neg hbad, h.good hbad]

end Peek

section Runs

variable {T : Tables}

/-- What a kernel for a class of units consumes. -/
structure KernelOk (T : Tables) (kernel : List UInt8 → Run Nat) (test : UInt8 → Bool) (pass : Nat → Bool) :
    Prop where
  run : ∀ p, kernel p = .ok (p.takeWhile test).length
  test : ∀ b, test b = true ↔ b < 0x80 ∧ pass (T.bpCharClass b.toNat) = true

/-- A run of units begins with the run of its ASCII bytes. -/
theorem takeWhile_ascii {test : UInt8 → Bool} {p : Nat → Bool}
    (htest : ∀ b, test b = true ↔ b < 0x80 ∧ p b.toNat = true) (s : List UInt8) :
    unitBytes ((units s).takeWhile p) =
      (s.takeWhile test).length + unitBytes ((units (s.dropWhile test)).takeWhile p) := by
  have hrun : ∀ b ∈ s.takeWhile test, b < 0x80 ∧ p b.toNat = true := fun b hb =>
    (htest b).1 (List.mem_takeWhile_imp hb)
  conv_lhs => rw [← List.takeWhile_append_dropWhile (p := test) (l := s)]
  rw [units_ascii_append fun b hb => (hrun b hb).1, List.takeWhile_append_of_pos, unitBytes_append]
  · congr 1
    generalize s.takeWhile test = run at hrun
    induction run with
    | nil => rfl
    | cons b run ih =>
      obtain ⟨hb, hrun⟩ := List.forall_mem_cons.1 hrun
      have hone := encodeUnit_one (show b.toNat < 0x80 from hb.1)
      rw [List.map_cons, unitBytes_cons, hone, ih hrun, List.length_cons, List.length_cons]
      exact Nat.add_comm 1 _
  · intro u hu
    obtain ⟨b, hb, rfl⟩ := List.mem_map.1 hu
    exact (hrun b hb).2

section Round

variable {kernel : List UInt8 → Run Nat} {test : UInt8 → Bool} {pass : Nat → Bool} {passBad simd : Bool}

/-- The bytes of the run that is left, behind the `n` bytes of it before `s`. -/
def runValue (T : Tables) (pass : Nat → Bool) (s : List UInt8 × Nat) : Nat :=
  s.2 + unitBytes ((units s.1).takeWhile fun u => pass (T.bpCharClass u))

theorem runValue_stop {b : UInt8} {rest : List UInt8} {u : Nat} {t : List UInt8} (hu : UnitAt b rest u t)
    (hno : pass (T.bpCharClass u) = false) (n : Nat) : runValue T pass (b :: rest, n) = n := by
  simp [runValue, hu.units, hno]

theorem runValue_step {b : UInt8} {rest : List UInt8} {u : Nat} {t : List UInt8} (hu : UnitAt b rest u t)
    (hyes : pass (T.bpCharClass u) = true) (n : Nat) :
    runValue T pass (b :: rest, n) = runValue T pass (t, n + (encodeUnit u).length) := by
  simp [runValue, hu.units, hyes, Nat.add_assoc]

/-- A round at an ASCII byte, with the kernel. -/
theorem runRound_simd (hk : KernelOk T kernel test pass) {b : UInt8} {rest : List UInt8} (hb : b < 0x80)
    (n : Nat) :
    (∃ s', runRound T true kernel pass passBad (b :: rest, n) = .ok (.next s') ∧
      s'.1.length < (b :: rest).length ∧ runValue T pass s' = runValue T pass (b :: rest, n)) ∨
    runRound T true kernel pass passBad (b :: rest, n) = .ok (.done (runValue T pass (b :: rest, n))) := by
  have hsplit := takeWhile_ascii (p := fun u => pass (T.bpCharClass u)) hk.test (b :: rest)
  have hdrop : (b :: rest).drop ((b :: rest).takeWhile test).length = (b :: rest).dropWhile test := by
    conv_lhs => arg 2; rw [← List.takeWhile_append_dropWhile (p := test) (l := b :: rest)]
    exact List.drop_left
  have hstop : ∀ b' rest', (b :: rest).dropWhile test = b' :: rest' → test b' = false := by
    intro b' rest' h
    have := List.head?_dropWhile_not test (b :: rest)
    rw [h] at this
    simpa using this
  simp only [runRound, if_pos hb, if_true, hk.run, Run.ok_bind, hdrop]
  unfold runValue at *
  simp only [hsplit]
  cases hd : (b :: rest).dropWhile test with
  | nil => exact .inr rfl
  | cons b' rest' =>
    have hfalse := hstop b' rest' hd
    obtain ⟨u, t, hu⟩ := unitAt b' rest'
    by_cases hb' : b' < 0x80
    · have hno : pass (T.bpCharClass u) = false := by
        rw [hu.ascii hb', ← Bool.not_eq_true]
        intro hyes
        rw [(hk.test b').2 ⟨hb', hyes⟩] at hfalse
        cases hfalse
      refine .inr ?_
      simp [hb', hu.units, hno]
    · refine .inl ⟨_, by simp only [if_neg hb']; rfl, ?_, Nat.add_assoc _ _ _⟩
      -- the kernel consumed `b`, for `b'` is not ASCII
      have hlen := congrArg List.length (List.takeWhile_append_dropWhile (p := test) (l := b :: rest))
      rw [hd, List.length_append] at hlen
      rcases Nat.eq_zero_or_pos ((b :: rest).takeWhile test).length with hzero | hpos
      · have hall := List.takeWhile_append_dropWhile (p := test) (l := b :: rest)
        rw [List.eq_nil_of_length_eq_zero hzero, hd, List.nil_append] at hall
        obtain ⟨rfl, -⟩ := List.cons.inj hall
        exact absurd hb hb'
      · simp only [List.length_cons] at hlen ⊢
        omega

/-- A round at a byte, without the kernel or behind it. -/
theorem runRound_step (hbad : passBad = pass 0) {b : UInt8} {rest : List UInt8}
    (h : simd = false ∨ ¬b < 0x80) (n : Nat) :
    (∃ s', runRound T simd kernel pass passBad (b :: rest, n) = .ok (.next s') ∧
      s'.1.length < (b :: rest).length ∧ runValue T pass s' = runValue T pass (b :: rest, n)) ∨
    runRound T simd kernel pass passBad (b :: rest, n) = .ok (.done (runValue T pass (b :: rest, n))) := by
  obtain ⟨u, t, hu⟩ := unitAt b rest
  by_cases hb : b < 0x80
  · obtain rfl : simd = false := h.resolve_right (not_not.2 hb)
    have hround : runRound T false kernel pass passBad (b :: rest, n) =
        if pass (T.bpCharClass u) then .ok (.next (t, n + (encodeUnit u).length)) else .ok (.done n) := by
      simp only [runRound, if_pos hb, Bool.false_eq_true, if_false]
      rw [hu.ascii hb, hu.rest_ascii hb, ← hu.ascii hb, hu.length_ascii hb]
    rw [hround]
    cases hp : pass (T.bpCharClass u) with
    | true => exact .inl ⟨_, rfl, hu.lt_length, (runValue_step hu hp n).symm⟩
    | false => exact .inr (by rw [runValue_stop hu hp]; rfl)
  · have hcond : (if (bpUtf8Next b rest).1 = malformed then passBad
        else pass (T.bpCharClass (bpUtf8Next b rest).1)) = pass (T.bpCharClass u) := by
      by_cases hm : (bpUtf8Next b rest).1 = malformed
      · rw [if_pos hm, hbad, bpCharClass_of_gt (hu.bad hm)]
      · rw [if_neg hm, hu.good hm]
    have hround : runRound T simd kernel pass passBad (b :: rest, n) =
        if pass (T.bpCharClass u) then .ok (.next (t, n + (encodeUnit u).length)) else .ok (.done n) := by
      simp only [runRound, if_neg hb]
      rw [hcond, hu.adv, hu.drop]
    rw [hround]
    cases hp : pass (T.bpCharClass u) with
    | true => exact .inl ⟨_, rfl, hu.lt_length, (runValue_step hu hp n).symm⟩
    | false => exact .inr (by rw [runValue_stop hu hp]; rfl)

/-- A run over the text takes the bytes of the run of its units. -/
theorem runRound_eq (hk : KernelOk T kernel test pass) (hbad : passBad = pass 0) (p : List UInt8) :
    loop (runRound T simd kernel pass passBad) (p.length + 1) (p, 0) =
      .ok (unitBytes ((units p).takeWhile fun u => pass (T.bpCharClass u))) := by
  have hvalue : runValue T pass (p, 0) = unitBytes ((units p).takeWhile fun u => pass (T.bpCharClass u)) :=
    Nat.zero_add _
  rw [← hvalue]
  refine loop_value (fun s : List UInt8 × Nat => s.1.length) (runValue T pass) ?_ (Nat.lt_succ_self _)
  rintro ⟨s, n⟩
  cases s with
  | nil => exact .inr rfl
  | cons b rest =>
    by_cases hb : b < 0x80
    · cases simd with
      | true => exact runRound_simd hk hb n
      | false => exact runRound_step hbad (.inl rfl) n
    · exact runRound_step hbad (.inr hb) n

end Round

end Runs

section Spans

open Regex

variable {T : Tables} {simd : Bool}

/-- The kernels know the classes of ASCII by heart. -/
structure Tables.Scannable (T : Tables) : Prop extends T.Splits where
  asciiLetter : ∀ b, letterTail b = true ↔ b < 0x80 ∧ isL T b.toNat = true
  asciiSymbol : ∀ b, symbolTail b = true ↔ b < 0x80 ∧ isOther T b.toNat = true

theorem and_or_eq_zero {x a b : Nat} : x &&& (a ||| b) = 0 ↔ x &&& a = 0 ∧ x &&& b = 0 := by
  rw [Nat.and_or_distrib_left, Nat.or_eq_zero_iff]

theorem isOther_iff (u : Nat) :
    isOther T u = decide (T.bpCharClass u &&& (BP_CC_L ||| BP_CC_N ||| BP_CC_S) = 0) := by
  rw [Bool.eq_iff_iff, decide_eq_true_eq, and_or_eq_zero, and_or_eq_zero]
  simp [isOther, isL, isN, isS, and_assoc]

/-- The run of letters, with the kernel or without. -/
theorem runLetters_eq (hT : T.Scannable) (p : List UInt8) :
    runLetters T simd p = .ok (unitBytes ((units p).takeWhile (isL T))) := by
  unfold runLetters
  rw [runRound_eq ⟨bpAsciiLetterRunAvx2_eq, hT.asciiLetter⟩ (by decide)]
  rfl

/-- The run of symbols, with the kernel or without. -/
theorem runSymbols_eq (hT : T.Scannable) (p : List UInt8) :
    runSymbols T simd p = .ok (unitBytes ((units p).takeWhile (isOther T))) := by
  have hclass : isOther T = fun u => decide (T.bpCharClass u &&& (BP_CC_L ||| BP_CC_N ||| BP_CC_S) = 0) :=
    funext isOther_iff
  unfold runSymbols
  rw [runRound_eq ⟨bpAsciiSymbolRunAvx2_eq, fun b => by rw [hT.asciiSymbol, hclass]⟩ (by decide), hclass]

theorem takeWhile_eq_take (p : Nat → Bool) (us : List Nat) : us.takeWhile p = us.take (run p us) :=
  (List.prefix_iff_eq_take.1 (List.takeWhile_prefix p))

/-- The CR/LF run of a text is that of its units, a byte each. -/
theorem runNewlines_eq (p : List UInt8) :
    runNewlines p = unitBytes ((units p).take (run isCrLf (units p))) := by
  induction p with
  | nil => rfl
  | cons b rest ih =>
    obtain ⟨u, t, hu⟩ := unitAt b rest
    rw [runNewlines, hu.units, run_cons]
    by_cases hb : b = 0x0D ∨ b = 0x0A
    · have hlt : b < 0x80 := by rcases hb with rfl | rfl <;> decide
      have hcr : isCrLf u = true := by
        rw [hu.ascii hlt]
        rcases hb with rfl | rfl <;> rfl
      rw [if_pos (by simpa using hb), if_pos hcr, hu.rest_ascii hlt, List.take_succ_cons, unitBytes_cons,
        hu.length_ascii hlt, ih, Nat.add_comm]
    · have hcr : isCrLf u = false := by
        rw [← Bool.not_eq_true]
        intro hcr
        simp only [isCrLf, Bool.or_eq_true, decide_eq_true_eq] at hcr
        have hlt : b < 0x80 := by
          by_contra hge
          have := hu.high hge
          omega
        rw [hu.ascii hlt] at hcr
        exact hb (hcr.imp (fun h => UInt8.toNat_inj.1 h) fun h => UInt8.toNat_inj.1 h)
      rw [if_neg (by simpa using hb), hcr]
      rfl

theorem unitBytes_take_add (us : List Nat) (i k : Nat) :
    unitBytes (us.take (i + k)) = unitBytes (us.take i) + unitBytes ((us.drop i).take k) := by
  rw [List.take_add, unitBytes_append]

/-- A symbol span behind `i` units. -/
theorem symbolSpan_eq (hT : T.Scannable) (p : List UInt8) (i : Nat) :
    symbolSpan T simd p (unitBytes ((units p).take i)) =
      .ok (unitBytes ((units p).take (symbolUnits T (units p) i))) := by
  unfold symbolSpan symbolUnits
  rw [runSymbols_eq hT, Run.ok_bind, (units_drop p i).1, takeWhile_eq_take, ← unitBytes_take_add,
    runNewlines_eq, (units_drop p _).1, ← unitBytes_take_add]
  rfl

/-- A symbol at `i` belongs to the run from there. -/
theorem symbolUnits_succ {us : List Nat} {i u : Nat} (hi : us[i]? = some u) (hu : isOther T u = true) :
    symbolUnits T us (i + 1) = symbolUnits T us i := by
  obtain ⟨hlt, hget⟩ := List.getElem?_eq_some_iff.1 hi
  unfold symbolUnits
  rw [List.drop_eq_getElem_cons hlt, hget, run_cons, if_pos hu]
  simp only [Nat.add_assoc, Nat.add_comm 1]

end Spans

section Contraction

theorem caseless_lt {c u : Nat} (hc : c < 0x80) (h : caseless c u = true) : u < 0x80 := by
  simp only [caseless, Bool.or_eq_true, decide_eq_true_eq] at h
  omega

/-- Setting bit 5 of a byte is what makes the test of a letter caseless. -/
theorem or_20_eq {b : UInt8} {rest t : List UInt8} {u : Nat} (hu : UnitAt b rest u t) {c : UInt8}
    (hc : 0x61 ≤ c.toNat ∧ c.toNat < 0x7B) : decide (b ||| 0x20 = c) = caseless c.toNat u := by
  by_cases hb : b < 0x80
  · have all : ∀ n : Fin 128, ∀ k : Fin 26, decide (UInt8.ofNat n.1 ||| 0x20 = UInt8.ofNat (0x61 + k.1)) =
        caseless (0x61 + k.1) n.1 := by decide +kernel
    have := all ⟨b.toNat, hb⟩ ⟨c.toNat - 0x61, by omega⟩
    rw [hu.ascii hb]
    simpa [Nat.add_sub_cancel' hc.1] using this
  · have hne : b ||| 0x20 ≠ c := by
      rintro rfl
      rw [UInt8.toNat_or] at hc
      have hle : b.toNat ≤ b.toNat ||| (0x20 : UInt8).toNat := Nat.left_le_or
      have hge : 0x80 ≤ b.toNat := Nat.le_of_not_lt hb
      omega
    rw [decide_eq_false hne, eq_comm, ← Bool.not_eq_true]
    intro h
    exact absurd (caseless_lt (by omega) h) (Nat.not_lt.2 (hu.high hb))

theorem unitBytes_ascii {u : Nat} (h : u < 0x80) : unitBytes [u] = 1 := by
  rw [unitBytes_cons, encodeUnit_one h]
  rfl

/-- U+017F is the bytes C5 BF. -/
theorem longS_iff {b1 b2 : UInt8} {rest t : List UInt8} {u : Nat} (hu : UnitAt b1 (b2 :: rest) u t) :
    b1 = 0xC5 ∧ b2 = 0xBF ↔ u = 0x17F := by
  have henc : encodeUnit 0x17F = [0xC5, 0xBF] := by decide
  constructor
  · rintro ⟨rfl, rfl⟩
    have hunits := units_encodeUnit_append (show IsScalar 0x17F from .inl (by decide)) rest
    rw [henc] at hunits
    exact (List.cons.inj (hu.units.symm.trans hunits)).1
  · rintro rfl
    have htext := hu.text
    rw [henc] at htext
    exact ⟨(List.cons.inj htext).1, (List.cons.inj (List.cons.inj htext).2).1⟩

/-- What is found behind an apostrophe is the contraction of the regex. -/
theorem tryContraction_eq (rest : List UInt8) :
    tryContraction rest =
      if contractionUnits (units rest) = 0 then 0
      else 1 + unitBytes ((units rest).take (contractionUnits (units rest))) := by
  cases rest with
  | nil => rfl
  | cons b1 rest =>
    obtain ⟨u, t, hu⟩ := unitAt b1 rest
    rw [hu.units]
    have h73 := or_20_eq hu (c := 0x73) (by decide)
    have h74 := or_20_eq hu (c := 0x74) (by decide)
    have h6D := or_20_eq hu (c := 0x6D) (by decide)
    have h64 := or_20_eq hu (c := 0x64) (by decide)
    have h72 := or_20_eq hu (c := 0x72) (by decide)
    have h76 := or_20_eq hu (c := 0x76) (by decide)
    have h6C := or_20_eq hu (c := 0x6C) (by decide)
    simp only [UInt8.reduceToNat] at h73 h74 h6D h64 h72 h76 h6C
    simp only [tryContraction, h73, h74, h6D, h64, h72, h76, h6C]
    by_cases hone : (caseless 0x73 u || caseless 0x74 u || caseless 0x6D u || caseless 0x64 u) = true
    · have hlt : u < 0x80 := by
        simp only [Bool.or_eq_true] at hone
        rcases hone with ((h | h) | h) | h <;> exact caseless_lt (by decide) h
      have hk : contractionUnits (u :: units t) = 1 := by
        apply if_pos
        simp only [Bool.or_eq_true, caselessS] at hone ⊢
        exact hone.imp_left fun h => h.imp_left fun h => h.imp_left Or.inl
      rw [if_pos hone, hk, if_neg Nat.one_ne_zero, List.take_succ_cons, List.take_zero, unitBytes_ascii hlt]
    rw [if_neg hone]
    simp only [Bool.not_eq_true, Bool.or_eq_false_iff] at hone
    obtain ⟨⟨⟨hs, ht⟩, hm⟩, hd⟩ := hone
    cases rest with
    | nil =>
      -- a single byte behind the apostrophe is not U+017F
      have hne : u ≠ 0x17F := by
        rintro rfl
        have hlen := congrArg List.length hu.text
        simp [show encodeUnit 0x17F = [0xC5, 0xBF] by decide] at hlen
      have hnil : t = [] := List.eq_nil_of_length_eq_zero (by simpa using hu.lt_length)
      have hk : contractionUnits (u :: units t) = 0 := by
        simp [contractionUnits, caselessS, hs, ht, hm, hd, hne, hnil, units, unitsN]
      rw [hk]
      rfl
    | cons b2 rest =>
      by_cases hlong : u = 0x17F
      · have hbytes := (longS_iff hu).2 hlong
        have hk : contractionUnits (u :: units t) = 1 := by simp [contractionUnits, caselessS, hlong]
        have hlen : unitBytes [u] = 2 := by rw [hlong]; decide
        rw [hk, List.take_succ_cons, List.take_zero, hlen]
        simp [hbytes.1, hbytes.2]
      · have hbytes : ¬(decide (b1 = 0xC5) && decide (b2 = 0xBF)) = true := by
          simpa [← longS_iff hu] using hlong
        simp only [if_neg hbytes]
        by_cases hb : b1 < 0x80
        · obtain ⟨d, t2, hd2⟩ := unitAt b2 rest
          have h65 := or_20_eq hd2 (c := 0x65) (by decide)
          have h6C' := or_20_eq hd2 (c := 0x6C) (by decide)
          simp only [UInt8.reduceToNat] at h65 h6C'
          simp only [h65, h6C', hu.rest_ascii hb, hd2.units, contractionUnits, caselessS, hs, ht, hm, hd, hlong,
            decide_false, Bool.or_false, Bool.false_eq_true, if_false]
          by_cases htwo : (caseless 0x72 u && caseless 0x65 d || caseless 0x76 u && caseless 0x65 d ||
              caseless 0x6C u && caseless 0x6C d) = true
          · have hlt : d < 0x80 := by
              simp only [Bool.or_eq_true, Bool.and_eq_true] at htwo
              rcases htwo with (h | h) | h <;> exact caseless_lt (by decide) h.2
            have hu1 : u < 0x80 := by rw [hu.ascii hb]; exact hb
            have hbytes2 : unitBytes [u, d] = 2 := by
              rw [unitBytes_cons, unitBytes_ascii hlt, encodeUnit_one hu1]
              rfl
            simp [htwo, hbytes2]
          · simp [htwo]
        · have high : ∀ c, c < 0x80 → caseless c u = false := fun c hc => by
            rw [← Bool.not_eq_true]
            exact fun h => absurd (caseless_lt hc h) (Nat.not_lt.2 (hu.high hb))
          have h72' := high 0x72 (by decide)
          have h76' := high 0x76 (by decide)
          have h6C' := high 0x6C (by decide)
          have hk : contractionUnits (u :: units t) = 0 := by
            simp only [contractionUnits, caselessS, hs, ht, hm, hd, hlong, h72', h76', h6C']
            cases units t <;> rfl
          simp [hk, h72', h76', h6C']

end Contraction

section Whitespace

open Regex

variable {T : Tables}

/-- The walk over the whitespace units `done`, with `rest` ahead. -/
structure WalkAt (T : Tables) (p : List UInt8) (done : List Nat) (s : List UInt8 × Walk) : Prop where
  units : units p = done ++ units s.1
  space : ∀ u ∈ done, isS T u = true
  j : s.2.j = unitBytes done
  lastNlEnd : s.2.lastNlEnd = unitBytes (done.take (newlineEnd done))
  lastCpStart : s.2.lastCpStart = unitBytes done.dropLast
  ncp : s.2.ncp = done.length

/-- A round of the walk: one more unit, or the end of the whitespace. -/
theorem walkRound_spec (hT : T.Splits) {p : List UInt8} {done : List Nat} {s : List UInt8 × Walk}
    (h : WalkAt T p done s) :
    (∃ u s', walkRound T s = .ok (.next s') ∧ WalkAt T p (done ++ [u]) s' ∧ s'.1.length < s.1.length) ∨
    (walkRound T s = .ok (.done s) ∧ ∀ u ∈ (Bytepair.units s.1).head?, isS T u = false) := by
  obtain ⟨p', w⟩ := s
  cases p' with
  | nil => exact .inr ⟨rfl, by simp [Bytepair.units, unitsN]⟩
  | cons b rest =>
    obtain ⟨u, t, hu⟩ := unitAt b rest
    obtain ⟨hadv, hcl⟩ := hu.peek (T := T)
    by_cases hS : isS T u = true
    · have hcl' : ¬T.bpCharClass u &&& BP_CC_S = 0 := by simpa [isS] using hS
      refine .inl ⟨u, (t, _), by simp only [walkRound, hadv, hcl, hu.drop, if_neg hcl']; rfl, ?_, hu.lt_length⟩
      have hj : w.j + (encodeUnit u).length = unitBytes (done ++ [u]) := by
        rw [unitBytes_append, unitBytes_cons, unitBytes_nil, h.j, Nat.add_zero]
      refine ⟨?_, ?_, hj, ?_, ?_, ?_⟩
      · rw [h.units, hu.units, List.append_assoc]
        rfl
      · intro v hv
        rcases List.mem_append.1 hv with hv | hv
        · exact h.space v hv
        · obtain rfl := List.mem_singleton.1 hv
          exact hS
      · rw [newlineEnd_snoc]
        dsimp only
        have hnl := hT.newline u
        by_cases hc : isCrLf u = true
        · have hbit : T.bpCharClass u &&& BP_CC_NL ≠ 0 := hnl.2 (by simpa [isCrLf] using hc)
          rw [if_pos hbit, if_pos hc, List.take_of_length_le (by simp), hj]
        · have hbit : ¬T.bpCharClass u &&& BP_CC_NL ≠ 0 := fun hb => hc (by simpa [isCrLf] using hnl.1 hb)
          rw [if_neg hbit, if_neg hc, List.take_append_of_le_length (newlineEnd_spec done).1]
          exact h.lastNlEnd
      · rw [List.dropLast_concat]
        exact h.j
      · rw [List.length_append]
        exact congrArg (· + 1) h.ncp
    · have hcl' : T.bpCharClass u &&& BP_CC_S = 0 := by simpa [isS] using hS
      refine .inr ⟨by simp only [walkRound, hcl, if_pos hcl'], ?_⟩
      simpa [hu.units] using hS

/-- The walk ends with the run of white space. -/
theorem walk_eq (hT : T.Splits) (p : List UInt8) :
    ∃ s, loop (walkRound T) (p.length + 1) (p, ⟨0, 0, 0, 0⟩) = .ok s ∧
      WalkAt T p ((units p).takeWhile (isS T)) s := by
  obtain ⟨s, hs, done, hat, hend⟩ := loop_rule
    (fun s : List UInt8 × Walk => ∃ done, WalkAt T p done s) (fun s : List UInt8 × Walk => s.1.length)
    (fun s : List UInt8 × Walk => ∃ done, WalkAt T p done s ∧ ∀ u ∈ (units s.1).head?, isS T u = false)
    (by
      rintro s ⟨done, hat⟩
      rcases walkRound_spec hT hat with ⟨u, s', hstep, hat', hlt⟩ | ⟨hdone, hend⟩
      · exact .inl ⟨s', hstep, ⟨_, hat'⟩, hlt⟩
      · exact .inr ⟨s, hdone, done, hat, hend⟩)
    (p.length + 1) (p, ⟨0, 0, 0, 0⟩) ⟨[], by simp, by simp, rfl, rfl, rfl, rfl⟩ (Nat.lt_succ_self _)
  have hrun : (units p).takeWhile (isS T) = done := by
    have hnil : (units s.1).takeWhile (isS T) = [] := by
      cases hu : units s.1 with
      | nil => rfl
      | cons u us => exact List.takeWhile_cons_of_neg (by simp [hend u (by simp [hu])])
    rw [hat.units, List.takeWhile_append_of_pos hat.space, hnil, List.append_nil]
  exact ⟨s, hs, hrun ▸ hat⟩

theorem unitBytes_take_pos {us : List Nat} {k : Nat} (hus : us ≠ []) (hk : 0 < k) :
    0 < unitBytes (us.take k) := by
  obtain ⟨u, us, rfl⟩ := List.exists_cons_of_ne_nil hus
  obtain ⟨k, rfl⟩ := Nat.exists_eq_succ_of_ne_zero (Nat.ne_of_gt hk)
  rw [List.take_succ_cons, unitBytes_cons]
  exact Nat.add_pos_left (length_encodeUnit_pos u) _

theorem unitBytes_take_eq_zero {us : List Nat} {k : Nat} (hk : k ≤ us.length) :
    unitBytes (us.take k) = 0 ↔ k = 0 := by
  constructor
  · intro h
    rcases Nat.eq_zero_or_pos k with hzero | hpos
    · exact hzero
    · have hus : us ≠ [] := List.length_pos_iff.1 (Nat.lt_of_lt_of_le hpos hk)
      exact absurd h (Nat.ne_of_gt (unitBytes_take_pos hus hpos))
  · rintro rfl
    rfl

theorem units_eq_nil {s : List UInt8} : units s = [] ↔ s.length = 0 := by
  cases s with
  | nil => simp [units, unitsN]
  | cons b rest =>
    obtain ⟨u, t, hu⟩ := unitAt b rest
    simp [hu.units]

/-- A5, A6 and A7 as the walk decides them. -/
theorem whitespaceSpan_eq (hT : T.Splits) (p : List UInt8) :
    whitespaceSpan T p = .ok (unitBytes ((units p).take (whitespaceUnits T (units p)))) := by
  obtain ⟨⟨rest, w⟩, hwalk, hat⟩ := walk_eq hT p
  unfold whitespaceSpan whitespaceUnits
  rw [hwalk, Run.ok_bind]
  dsimp only
  rw [Run.pure_eq]
  have hlen : run (isS T) (units p) = ((units p).takeWhile (isS T)).length := rfl
  generalize (units p).takeWhile (isS T) = ws at hat hlen
  have hle := (newlineEnd_spec ws).1
  have htake : ∀ k ≤ ws.length, (units p).take k = ws.take k := fun k hk => by
    rw [hat.units, List.take_append_of_le_length hk]
  have hend : rest.length = 0 ↔ (units p).length = ws.length := by
    rw [← units_eq_nil, hat.units, List.length_append, Nat.add_eq_left, List.length_eq_zero_iff]
  have hnl : w.lastNlEnd = 0 ↔ newlineEnd ws = 0 := by
    rw [show w.lastNlEnd = _ from hat.lastNlEnd, unitBytes_take_eq_zero hle]
  have hj : w.j = unitBytes ((units p).take ws.length) := by
    rw [htake _ (Nat.le_refl _), List.take_length]
    exact hat.j
  have hncp : w.ncp = ws.length := hat.ncp
  apply congrArg Except.ok
  rw [hlen, hncp]
  by_cases he : newlineEnd ws = 0
  · rw [if_neg (not_not.2 (hnl.2 he)), if_neg (not_not.2 he)]
    by_cases hr : rest.length = 0
    · rw [if_pos hr, if_pos (hend.1 hr), hj]
    · rw [if_neg hr, if_neg (hend.not.1 hr)]
      by_cases h2 : 2 ≤ ws.length
      · rw [if_pos h2, if_pos h2, htake _ (Nat.sub_le _ _), ← List.dropLast_eq_take]
        exact hat.lastCpStart
      · rw [if_neg h2, if_neg h2, hj]
  · rw [if_pos (hnl.not.2 he), if_pos he, htake _ hle]
    exact hat.lastNlEnd

end Whitespace

section Spans

open Regex

variable {T : Tables} {simd : Bool}

theorem isL_eq_true {u : Nat} : isL T u = true ↔ T.bpCharClass u &&& BP_CC_L ≠ 0 := decide_eq_true_iff

theorem isN_eq_true {u : Nat} : isN T u = true ↔ T.bpCharClass u &&& BP_CC_N ≠ 0 := decide_eq_true_iff

theorem isOther_eq_true {u : Nat} :
    isOther T u = true ↔ T.bpCharClass u &&& (BP_CC_L ||| BP_CC_N ||| BP_CC_S) = 0 := by
  rw [isOther_iff, decide_eq_true_eq]

theorem isCrLf_eq_true (hT : T.Splits) {u : Nat} :
    isCrLf u = true ↔ T.bpCharClass u &&& BP_CC_NL ≠ 0 := by
  rw [hT.newline]
  simp [isCrLf]

/-- Where the units behind begin with a run, the next position has its class. -/
theorem peekNext_run {t : List UInt8} {p : Nat → Bool} (q : Nat → Prop)
    (hpq : ∀ {u}, p u = true ↔ q (T.bpCharClass u)) (h : run p (units t) ≠ 0) :
    ∃ u t' x, units t = u :: units t' ∧ t.drop (encodeUnit u).length = t' ∧ p u = true ∧
      peekNext T t = some x ∧ x.adv = (encodeUnit u).length ∧ q x.cl := by
  cases t with
  | nil => exact absurd rfl h
  | cons b rest =>
    obtain ⟨u, t', hu⟩ := unitAt b rest
    obtain ⟨hadv, hcl⟩ := hu.peek (T := T)
    have hp : p u = true := by
      rw [hu.units, run_cons] at h
      by_contra hno
      exact h (if_neg hno)
    exact ⟨u, t', _, hu.units, hu.drop, hp, rfl, hadv, by rw [hcl]; exact hpq.1 hp⟩

/-- And where they do not, it has not. -/
theorem peekNext_no_run {t : List UInt8} {p : Nat → Bool} (q : Nat → Prop)
    (hpq : ∀ {u}, p u = true ↔ q (T.bpCharClass u)) (h : run p (units t) = 0) :
    ∀ x ∈ peekNext T t, ¬q x.cl := by
  cases t with
  | nil => rintro _ ⟨⟩
  | cons b rest =>
    obtain ⟨u, t', hu⟩ := unitAt b rest
    obtain ⟨-, hcl⟩ := hu.peek (T := T)
    rintro x hx hq
    obtain rfl : Bytepair.peek T b rest = x := Option.some.inj hx
    rw [hcl, ← hpq] at hq
    rw [hu.units, run_cons, if_pos hq] at h
    exact Nat.succ_ne_zero _ h

theorem unitBytes_take_one_add (u : Nat) (us : List Nat) (n : Nat) :
    unitBytes ((u :: us).take (1 + n)) = (encodeUnit u).length + unitBytes (us.take n) := by
  rw [Nat.add_comm 1, List.take_succ_cons, unitBytes_cons]

/-- The run of letters in bytes. -/
theorem wordSpan_eq (hT : T.Scannable) (t : List UInt8) :
    runLetters T simd t = .ok (unitBytes ((units t).take (run (isL T) (units t)))) := by
  rw [runLetters_eq hT, takeWhile_eq_take]

theorem apostrophe_iff {b : UInt8} {rest : List UInt8} {u : Nat} {t : List UInt8} (hu : UnitAt b rest u t)
    {c : UInt8} (hc : c < 0x80) : b = c ↔ u = c.toNat := by
  constructor
  · rintro rfl
    exact hu.ascii hc
  · intro h
    by_cases hb : b < 0x80
    · exact UInt8.toNat_inj.1 ((hu.ascii hb).symm.trans h)
    · have := hu.high hb
      have hlt : c.toNat < 0x80 := hc
      omega

/-- A contraction, as the units it takes. -/
theorem contractionSpan_eq {b : UInt8} {rest t : List UInt8} {u : Nat} (hu : UnitAt b rest u t) :
    (if b = 0x27 then tryContraction rest else 0) =
      if (if u = 0x27 then contractionUnits (units t) else 0) = 0 then 0
      else 1 + unitBytes ((units t).take (contractionUnits (units t))) := by
  have hapos := apostrophe_iff hu (c := 0x27) (by decide)
  by_cases h27 : u = 0x27
  · have hb : b = 0x27 := hapos.2 h27
    have hrest : t = rest := hu.rest_ascii (by rw [hb]; decide)
    rw [if_pos hb, if_pos h27, ← hrest, tryContraction_eq]
  · rw [if_neg fun hb => h27 (hapos.1 hb), if_neg h27, if_pos rfl]

/-- A unit that may come before a word. -/
theorem lead_iff (hT : T.Scannable) {u : Nat} (hL : ¬isL T u = true) :
    T.bpCharClass u &&& (BP_CC_L ||| BP_CC_N ||| BP_CC_NL) = 0 ↔ (!(isN T u || isCrLf u)) = true := by
  rw [and_or_eq_zero, and_or_eq_zero, Bool.not_eq_true', Bool.or_eq_false_iff, ← Bool.not_eq_true,
    ← Bool.not_eq_true, isN_eq_true, isCrLf_eq_true hT.toSplits, not_not, not_not]
  exact ⟨fun h => ⟨h.1.2, h.2⟩, fun h => ⟨⟨not_not.1 (isL_eq_true.not.1 hL), h.1⟩, h.2⟩⟩

theorem filter_lead_none {c : Prop} [Decidable c] {o : Option BpCp} {q : BpCp → Bool} (h : c → ∀ x ∈ o, ¬q x = true) :
    (if c then o else none).filter q = none := by
  apply Option.filter_eq_none_iff.2
  intro x hx
  split at hx
  · next hc => exact h hc x hx
  · cases hx

/-- A2 with a unit in front: the letters behind it. -/
theorem letters_behind (hT : T.Scannable) {b : UInt8} {rest t : List UInt8} {u : Nat} (hu : UnitAt b rest u t)
    (hrun : run (isL T) (units t) ≠ 0) : ∃ x, peekNext T t = some x ∧ x.cl &&& BP_CC_L ≠ 0 ∧
      (do pure ((encodeUnit u).length + x.adv +
        (← runLetters T simd ((b :: rest).drop ((encodeUnit u).length + x.adv))))) =
          (.ok (unitBytes ((u :: units t).take (1 + run (isL T) (units t)))) : Run Nat) := by
  obtain ⟨u', t', x, ht', hx', hu', hx, hxadv, hxL⟩ := peekNext_run (· &&& BP_CC_L ≠ 0) isL_eq_true hrun
  refine ⟨x, hx, hxL, ?_⟩
  have hdrop : (b :: rest).drop ((encodeUnit u).length + (encodeUnit u').length) = t' := by
    rw [← List.drop_drop, hu.drop, hx']
  simp only [hxadv, hdrop, wordSpan_eq hT, Run.ok_bind, ht', run_cons, hu', if_true, Nat.add_comm _ 1,
    unitBytes_take_one_add, Nat.add_assoc]
  rfl

/-- A4 with a blank in front: the symbols behind it. -/
theorem symbols_behind (hT : T.Scannable) {b : UInt8} {rest t : List UInt8} {u : Nat} (hu : UnitAt b rest u t)
    (h20 : u = 0x20) (hrun : run (isOther T) (units t) ≠ 0) :
    ∃ x, peekNext T t = some x ∧ x.cl &&& (BP_CC_L ||| BP_CC_N ||| BP_CC_S) = 0 ∧
      symbolSpan T simd (b :: rest) (1 + x.adv) =
        .ok (unitBytes ((u :: units t).take (symbolUnits T (u :: units t) 1))) := by
  obtain ⟨u', t', x, ht', -, hu', hx, hxadv, hxO⟩ := peekNext_run
    (· &&& (BP_CC_L ||| BP_CC_N ||| BP_CC_S) = 0) isOther_eq_true hrun
  refine ⟨x, hx, hxO, ?_⟩
  have hspan := @symbolSpan_eq T simd hT (b :: rest) 2
  have htwo : unitBytes ((u :: units t).take 2) = 1 + (encodeUnit u').length := by
    rw [ht', h20]
    simp [show (encodeUnit 0x20).length = 1 from rfl]
  rw [hu.units, htwo, symbolUnits_succ (by rw [ht']; rfl) hu'] at hspan
  rw [hxadv, hspan]

/-- **A round of the scanner** takes the bytes of the next match. -/
theorem spanLength_eq (hT : T.Scannable) (b : UInt8) (rest : List UInt8) :
    spanLength T simd b rest =
      .ok (unitBytes ((units (b :: rest)).take (splitUnits T (units (b :: rest))))) := by
  obtain ⟨u, t, hu⟩ := unitAt b rest
  obtain ⟨hadv, hcl⟩ := hu.peek (T := T)
  have hspace := whitespaceSpan_eq hT.toSplits (b :: rest)
  have hblank := apostrophe_iff hu (c := 0x20) (by decide)
  have hone := @symbolSpan_eq T simd hT (b :: rest) 1
  rw [hu.units] at hspace hone ⊢
  unfold spanLength
  simp only [splitUnits, hadv, hcl, hu.drop, hspace, contractionSpan_eq hu]
  -- A1
  by_cases hm : (if u = 0x27 then contractionUnits (units t) else 0) = 0
  case neg =>
    have h27 : u = 0x27 := by
      by_contra hne
      exact hm (if_neg hne)
    have hlen : (encodeUnit u).length = 1 := by rw [h27]; rfl
    have hne : 1 + unitBytes ((units t).take (contractionUnits (units t))) ≠ 0 := by omega
    rw [if_neg hm, if_pos hne, if_pos hm, if_pos h27, unitBytes_take_one_add, hlen]
  simp only [hm, if_true, ne_eq, not_true_eq_false, if_false]
  -- A2
  by_cases hL : isL T u = true
  · rw [if_pos hL, if_pos (isL_eq_true.1 hL), wordSpan_eq hT, Run.ok_bind, unitBytes_take_one_add]
    rfl
  rw [if_neg hL, if_neg (isL_eq_true.not.1 hL)]
  have hlead := lead_iff hT hL
  by_cases hW : (!(isN T u || isCrLf u) && decide (run (isL T) (units t) ≠ 0)) = true
  · obtain ⟨hC, hrun⟩ := (Bool.and_eq_true _ _).mp hW
    obtain ⟨x, hx, hxL, hword⟩ := @letters_behind T simd hT b rest t u hu (of_decide_eq_true hrun)
    rw [if_pos hW, if_pos (hlead.2 hC), hx, Option.filter_some, if_pos (decide_eq_true hxL)]
    exact hword
  have hnone : ((if T.bpCharClass u &&& (BP_CC_L ||| BP_CC_N ||| BP_CC_NL) = 0 then peekNext T t else none).filter
      fun x => decide (x.cl &&& BP_CC_L ≠ 0)) = none := by
    apply filter_lead_none
    intro hC x hx
    have hrun : run (isL T) (units t) = 0 := by
      by_contra h
      exact hW ((Bool.and_eq_true _ _).mpr ⟨hlead.1 hC, decide_eq_true h⟩)
    simpa using peekNext_no_run (· &&& BP_CC_L ≠ 0) isL_eq_true hrun x hx
  rw [if_neg hW]
  simp only [hnone]
  -- A3
  by_cases hN : isN T u = true
  · rw [if_pos hN, if_pos (isN_eq_true.1 hN), List.take_succ_cons, unitBytes_cons]
    rfl
  rw [if_neg hN, if_neg (isN_eq_true.not.1 hN)]
  -- A4
  by_cases hsp : (decide (u = 0x20) && decide (run (isOther T) (units t) ≠ 0)) = true
  · obtain ⟨h20, hrun⟩ := (Bool.and_eq_true _ _).mp hsp
    have h20 : u = 0x20 := of_decide_eq_true h20
    have hC : (!(isN T u || isCrLf u)) = true := by
      rw [h20] at hN ⊢
      simp [hN, isCrLf]
    obtain ⟨x, hx, hxO, hsymbols⟩ := @symbols_behind T simd hT b rest t u hu h20 (of_decide_eq_true hrun)
    have hcond : (decide (b = 0x20) && decide (x.cl &&& (BP_CC_L ||| BP_CC_N ||| BP_CC_S) = 0)) = true :=
      (Bool.and_eq_true _ _).mpr ⟨decide_eq_true (hblank.2 h20), decide_eq_true hxO⟩
    rw [if_pos hsp, if_pos (hlead.2 hC), hx, Option.filter_some, if_pos hcond]
    exact hsymbols
  have hnone' : ((if T.bpCharClass u &&& (BP_CC_L ||| BP_CC_N ||| BP_CC_NL) = 0 then peekNext T t else none).filter
      fun x => decide (b = 0x20) && decide (x.cl &&& (BP_CC_L ||| BP_CC_N ||| BP_CC_S) = 0)) = none := by
    apply filter_lead_none
    intro _ x hx hcond
    obtain ⟨hb, hxO⟩ := (Bool.and_eq_true _ _).mp hcond
    have hrun : run (isOther T) (units t) = 0 := by
      by_contra h
      exact hsp ((Bool.and_eq_true _ _).mpr ⟨decide_eq_true (hblank.1 (of_decide_eq_true hb)), decide_eq_true h⟩)
    exact peekNext_no_run (· &&& (BP_CC_L ||| BP_CC_N ||| BP_CC_S) = 0) isOther_eq_true hrun x hx
      (of_decide_eq_true hxO)
  rw [if_neg hsp]
  simp only [hnone']
  by_cases ho : isOther T u = true
  · have hlength : unitBytes ((u :: units t).take 1) = (encodeUnit u).length := by simp
    rw [if_pos ho, if_pos (isOther_eq_true.1 ho), ← hlength, hone, symbolUnits_succ rfl ho]
  · rw [if_neg ho, if_neg (isOther_eq_true.not.1 ho)]

end Spans

section Scan

variable {T : Tables} {σ : Type}

/-- Hand the spans over one by one, until one is refused. -/
def feed (emit : σ → List UInt8 → Run (Except Err Unit × σ)) (s : σ) :
    List (List UInt8) → Run (Except Err Unit × σ)
  | [] => .ok (.ok (), s)
  | p :: ps => do
    match ← emit s p with
    | (.error e, s) => pure (.error e, s)
    | (.ok _, s) => feed emit s ps

/-- Handing over to a recorder. -/
theorem feed_record (done ps : List (List UInt8)) :
    feed (fun done p => .ok (.ok (), done ++ [p])) done ps = .ok (.ok (), done ++ ps) := by
  induction ps generalizing done with
  | nil => rw [feed, List.append_nil]
  | cons p ps ih =>
    rw [feed, Run.ok_bind]
    exact (ih (done ++ [p])).trans (by rw [List.append_assoc]; rfl)

/-- The successive matches of the split regex in a text, as bytes. -/
def splitSpans (T : Tables) (t : List UInt8) : List (List UInt8) :=
  ((splitRegex T).spans (units t)).map encodeUnits

/-- The spans are the first one and those behind it. -/
theorem splitSpans_cons (hT : T.Splits) {t : List UInt8} (hne : t ≠ []) :
    splitSpans T t = t.take (unitBytes ((units t).take (splitUnits T (units t)))) ::
      splitSpans T (t.drop (unitBytes ((units t).take (splitUnits T (units t))))) := by
  have hunits : units t ≠ [] := by
    rw [Ne, units_eq_nil, List.length_eq_zero_iff]
    exact hne
  obtain ⟨hdrop, htake⟩ := units_drop t (splitUnits T (units t))
  unfold splitSpans
  rw [Regex.spans_of_first (splitUnits_pos hunits) hunits (first_splitRegex hT hunits), List.map_cons, hdrop,
    htake]

/-- **The scanner hands over the matches of the split regex.** -/
theorem bpScanGpt4_eq (hT : T.Scannable) (emit : σ → List UInt8 → Run (Except Err Unit × σ)) (simd : Bool)
    (s : σ) (t : List UInt8) : bpScanGpt4 T emit simd s t = feed emit s (splitSpans T t) := by
  have key : ∀ bound t s, t.length < bound →
      loop (scanRound T emit simd) bound (t, s) = feed emit s (splitSpans T t) := by
    intro bound
    induction bound with
    | zero => intro t s h; omega
    | succ bound ih =>
      intro t s hlt
      cases t with
      | nil => rfl
      | cons b rest =>
        have hne : b :: rest ≠ [] := List.cons_ne_nil b rest
        have hunits : units (b :: rest) ≠ [] := fun h => by simpa using units_eq_nil.1 h
        have hpos := unitBytes_take_pos hunits (splitUnits_pos (T := T) hunits)
        rw [loop, scanRound, spanLength_eq hT, Run.ok_bind, splitSpans_cons hT.toSplits hne, feed]
        generalize unitBytes ((units (b :: rest)).take (splitUnits T (units (b :: rest)))) = n at hpos ⊢
        cases emit s ((b :: rest).take n) with
        | error f => rfl
        | ok r =>
          obtain ⟨r, s⟩ := r
          cases r with
          | error e => rfl
          | ok _ =>
            apply ih _ s
            rw [List.length_drop, List.length_cons] at *
            omega
  exact key (t.length + 1) t s (Nat.lt_succ_self _)

/-- The spans cut the text up. -/
theorem splitSpans_flatten (hT : T.Splits) (t : List UInt8) :
    (splitSpans T t).flatten = t ∧ ∀ p ∈ splitSpans T t, p ≠ [] := by
  obtain ⟨hcat, hne⟩ := Regex.spans_flatten
    (fun us hus => ⟨_, splitUnits_pos hus, first_splitRegex hT hus⟩) (units t)
  constructor
  · calc (splitSpans T t).flatten
        = encodeUnits ((splitRegex T).spans (units t)).flatten := by
          unfold splitSpans encodeUnits
          rw [List.flatMap_def, List.map_flatten, List.flatten_flatten, List.map_map]
          simp only [Function.comp_def, List.flatMap_def]
      _ = t := by rw [hcat, encodeUnits_units]
  · intro p hp
    obtain ⟨us, hus, rfl⟩ := List.mem_map.1 hp
    obtain ⟨u, us, rfl⟩ := List.exists_cons_of_ne_nil (hne us hus)
    rw [encodeUnits_cons]
    exact List.append_ne_nil_of_left_ne_nil (encodeUnit_ne_nil u) _

end Scan

end Bytepair
