import Bytepair.Characters
import Bytepair.Nfc.Coherent
import Bytepair.Tables.Emit

/-!
# The reference normalizer

`Reference` of `tools/probe_nfc_version.py` over parsed Unicode data, next to `bp_nfc` over the tables that the
generator makes of the same data. The reference composes into a list it appends to and remembers the class of what it
appended last. `bpNfcFull_reference`: on UTF-8 the full path writes the text of its result. The C code takes the class
of the jamo of a syllable for granted, and a decomposition without parts for none.
-/

namespace Bytepair
open Support Support.Canonical GenTables

section Model

/-- The data of `Reference`. -/
structure Reference where
  ccc : List (Nat × Nat)
  decomp : List (Nat × List Nat)
  pairs : Pairs
  deriving DecidableEq

/-- The variables of the composition loop of `Reference.nfc`. -/
structure Appending where
  out : List Nat
  starterPos : Nat
  starterCh : Nat
  lastClass : Nat

namespace Reference

variable (R : Reference)

/-- `self.ccc.get(cp, 0)`. -/
def cccGet (cp : Nat) : Nat := (R.ccc.lookup cp).getD 0

/-- `_hangul_decomp`. -/
def hangulDecomp (cp : Nat) : Option (List Nat) :=
  if SBASE ≤ cp ∧ cp < SBASE + SCOUNT then
    let si := cp - SBASE
    let out := [LBASE + si / NCOUNT, VBASE + si % NCOUNT / TCOUNT]
    some (if si % TCOUNT ≠ 0 then out ++ [TBASE + si % TCOUNT] else out)
  else none

/-- `_compose`. -/
def compose (a b : Nat) : Nat :=
  if LBASE ≤ a ∧ a < LBASE + LCOUNT ∧ VBASE ≤ b ∧ b < VBASE + VCOUNT then
    SBASE + ((a - LBASE) * VCOUNT + (b - VBASE)) * TCOUNT
  else if SBASE ≤ a ∧ a < SBASE + SCOUNT ∧ (a - SBASE) % TCOUNT = 0 ∧ TBASE < b ∧ b < TBASE + TCOUNT then
    a + (b - TBASE)
  else (R.pairs.lookup (a, b)).getD 0

/-- What `nfd` appends for a code point. -/
def parts (cp : Nat) : List Nat := (hangulDecomp cp).getD ((R.decomp.lookup cp).getD [cp])

/-- `nfd`; the ordering loop is the one of the library. -/
def nfd (cps : List Nat) : Run (List Nat) := orderInPlace R.cccGet (cps.flatMap R.parts)

/-- A round of the composition loop. -/
def nfcRound (s : Appending) (ch : Nat) : Run Appending := do
  let chClass := R.cccGet ch
  let composite := R.compose s.starterCh ch
  if composite ≠ 0 ∧ (s.lastClass < chClass ∨ s.lastClass = 0) then
    pure { s with out := ← store s.out s.starterPos composite, starterCh := composite }
  else
    let s := if chClass = 0 then { s with starterPos := s.out.length, starterCh := ch } else s
    pure { s with lastClass := chClass, out := s.out ++ [ch] }

/-- `nfc`. A first code point that is no starter has the class 256 behind it, which nothing is above. -/
def nfc (cps : List Nat) : Run (List Nat) := do
  match ← R.nfd cps with
  | [] => pure []
  | d0 :: d => do
    let s ← d.foldlM R.nfcRound ⟨[d0], 0, d0, if R.cccGet d0 ≠ 0 then 256 else 0⟩
    pure s.out

end Reference

/-- What `load_reference` does with parsed data. -/
def loadReference (u : Ucd) : Except Failure Reference := do
  let full ← expandDecompositions u.decomp
  let pairs ← compositionPairs u
  pure ⟨u.ccc, full, pairs⟩

/-- The tables are made of the data of the reference. -/
def Generated (R : Reference) (T : Tables) : Prop :=
  ∃ p : Parse, p.ccc = R.ccc ∧ p.decomp = R.decomp ∧ p.pairs = R.pairs ∧ emitTables p = .ok T

/-- A conjoining jamo, of any of the three kinds. -/
def IsJamo (cp : Nat) : Prop :=
  LBASE ≤ cp ∧ cp < LBASE + LCOUNT ∨ VBASE ≤ cp ∧ cp < VBASE + VCOUNT ∨ TBASE < cp ∧ cp < TBASE + TCOUNT

/-- What the Unicode data have and the generator does not check: conjoining jamo are starters, and mappings have parts. -/
structure Usual (u : Ucd) : Prop where
  jamo : ∀ cp, IsJamo cp → u.cccGet cp = 0
  parts : ∀ item ∈ u.decomp, item.2 ≠ []

end Model

section Composer

variable {R : Reference}

/-- The composite as the library has it. -/
def Reference.composite (R : Reference) (a b : Nat) : Option Nat :=
  if R.compose a b = 0 then none else some (R.compose a b)

/-- The class the loop remembers is that of the last mark behind the starter, or 0. -/
def lastOf (R : Reference) (marks : List Nat) : Nat := (marks.getLast?.map R.cccGet).getD 0

/-- The test of the loop is that nothing blocks. -/
theorem unblocked_iff {marks : List Nat} (hmarks : ∀ m ∈ marks, R.cccGet m ≠ 0) (ch : Nat) :
    unblocked R.cccGet marks ch = true ↔ lastOf R marks < R.cccGet ch ∨ lastOf R marks = 0 := by
  unfold unblocked lastOf
  cases hlast : marks.getLast? with
  | none => simp
  | some m =>
    have hm := hmarks m (List.mem_of_getLast? hlast)
    simp [hm]

/-- Behind a starter the loop composes as the library does. -/
theorem nfcRound_started (todo : List Nat) (front : List Nat) (s : Nat) {marks : List Nat}
    (hmarks : ∀ m ∈ marks, R.cccGet m ≠ 0) : ∃ s',
      todo.foldlM R.nfcRound ⟨front ++ s :: marks, front.length, s, lastOf R marks⟩ = .ok s' ∧
      s'.out = front ++ composeFrom R.cccGet R.composite s marks todo := by
  induction todo generalizing front s marks with
  | nil => exact ⟨_, rfl, rfl⟩
  | cons ch todo ih =>
    have hopen := unblocked_iff hmarks ch
    rw [List.foldlM_cons]
    by_cases hcomp : R.compose s ch ≠ 0 ∧ (lastOf R marks < R.cccGet ch ∨ lastOf R marks = 0)
    · have hcomposite : R.composite s ch = some (R.compose s ch) := if_neg hcomp.1
      have hround : R.nfcRound ⟨front ++ s :: marks, front.length, s, lastOf R marks⟩ ch =
          .ok ⟨front ++ R.compose s ch :: marks, front.length, R.compose s ch, lastOf R marks⟩ := by
        rw [Reference.nfcRound]
        dsimp only
        rw [if_pos hcomp, store_lt (by simp)]
        simp
      rw [hround, ok_bind, composeFrom_compose (hopen.2 hcomp.2) hcomposite]
      exact ih front _ hmarks
    · have hskip : unblocked R.cccGet marks ch = true → R.composite s ch = none := by
        intro hu
        have hzero : R.compose s ch = 0 := by
          by_contra hne
          exact hcomp ⟨hne, hopen.1 hu⟩
        exact if_pos hzero
      rw [composeFrom_skip hskip]
      by_cases hch : R.cccGet ch = 0
      · have hround : R.nfcRound ⟨front ++ s :: marks, front.length, s, lastOf R marks⟩ ch =
            .ok ⟨(front ++ s :: marks) ++ ch :: [], (front ++ s :: marks).length, ch, lastOf R []⟩ := by
          rw [Reference.nfcRound]
          dsimp only
          rw [if_neg hcomp, if_pos hch, hch]
          rfl
        rw [hround, ok_bind, if_pos hch]
        obtain ⟨s', hrun, hout⟩ := @ih (front ++ s :: marks) ch [] nofun
        refine ⟨s', hrun, ?_⟩
        rw [hout, List.append_assoc]
      · have hround : R.nfcRound ⟨front ++ s :: marks, front.length, s, lastOf R marks⟩ ch =
            .ok ⟨front ++ s :: (marks ++ [ch]), front.length, s, lastOf R (marks ++ [ch])⟩ := by
          rw [Reference.nfcRound]
          dsimp only
          rw [if_neg hcomp, if_neg hch]
          simp [lastOf]
        rw [hround, ok_bind, if_neg hch]
        apply ih
        intro m hm
        rcases List.mem_append.1 hm with hm | hm
        · exact hmarks m hm
        · rwa [List.mem_singleton.1 hm]

/-- Marks do not compose with each other. -/
def MarksApart (R : Reference) : Prop := ∀ a b, R.cccGet a ≠ 0 → R.cccGet b ≠ 0 → R.compose a b = 0

/-- Before the first starter the loop appends what comes. -/
theorem nfcRound_waiting (hapart : MarksApart R) (todo out : List Nat) (pos : Nat) {x last : Nat}
    (hx : R.cccGet x ≠ 0) (hlast : last ≠ 0) : ∃ s', todo.foldlM R.nfcRound ⟨out, pos, x, last⟩ = .ok s' ∧
      s'.out = out ++ composeAll R.cccGet R.composite todo := by
  induction todo generalizing out last with
  | nil => exact ⟨_, rfl, (List.append_nil out).symm⟩
  | cons ch todo ih =>
    rw [List.foldlM_cons, composeAll]
    by_cases hch : R.cccGet ch = 0
    · have hcomp : ¬(R.compose x ch ≠ 0 ∧ (last < R.cccGet ch ∨ last = 0)) := by omega
      have hround : R.nfcRound ⟨out, pos, x, last⟩ ch = .ok ⟨out ++ ch :: [], out.length, ch, lastOf R []⟩ := by
        rw [Reference.nfcRound]
        dsimp only
        rw [if_neg hcomp, if_pos hch, hch]
        rfl
      rw [hround, ok_bind, if_pos hch]
      exact nfcRound_started todo out ch nofun
    · have hcomp : ¬(R.compose x ch ≠ 0 ∧ (last < R.cccGet ch ∨ last = 0)) := fun h => h.1 (hapart x ch hx hch)
      have hround : R.nfcRound ⟨out, pos, x, last⟩ ch = .ok ⟨out ++ [ch], pos, x, R.cccGet ch⟩ := by
        rw [Reference.nfcRound]
        dsimp only
        rw [if_neg hcomp, if_neg hch]
        rfl
      rw [hround, ok_bind, if_neg hch]
      obtain ⟨s', hrun, hout⟩ := ih (out ++ [ch]) hch
      refine ⟨s', hrun, ?_⟩
      rw [hout, List.append_assoc]
      rfl

/-- The reference computes the composition of the library. -/
theorem Reference.nfc_eq (hapart : MarksApart R) (cps : List Nat) : R.nfc cps =
    .ok (composeAll R.cccGet R.composite (reorder R.cccGet (cps.flatMap R.parts))) := by
  unfold nfc nfd
  rw [orderInPlace_eq, ok_bind]
  cases reorder R.cccGet (cps.flatMap R.parts) with
  | nil => rfl
  | cons d0 d =>
    dsimp only
    rw [composeAll]
    by_cases hd0 : R.cccGet d0 = 0
    · obtain ⟨s', hrun, hout⟩ := @nfcRound_started R d [] d0 [] nofun
      rw [if_neg (not_not.2 hd0), if_pos hd0]
      change d.foldlM R.nfcRound ⟨[d0], 0, d0, 0⟩ = .ok s' at hrun
      rw [hrun, ok_bind, hout]
      rfl
    · obtain ⟨s', hrun, hout⟩ := nfcRound_waiting hapart d [d0] 0 hd0 (show 256 ≠ 0 by decide)
      rw [if_pos hd0, if_neg hd0, hrun, ok_bind, hout]
      rfl

end Composer

section Tables

variable {u : Ucd} {R : Reference} {T : Tables}

/-- What the tables of a reference answer is what it looks up. -/
structure Mirrors (R : Reference) (T : Tables) : Prop where
  ccc : ∀ cp, T.bpCcc cp = R.cccGet cp
  decomp : ∀ cp, T.bpDecomp cp = (R.decomp.lookup cp).getD []
  short : ∀ cp, (T.bpDecomp cp).length ≤ MAX_DECOMP
  parts : ∀ cp, ∀ x ∈ T.bpDecomp cp, x < tagBase
  compose : ∀ a b, a < tagBase → b < tagBase → T.bpCompose a b = (R.pairs.lookup (a, b)).getD 0
  composite : ∀ a b, a < tagBase → b < tagBase → T.bpCompose a b < tagBase

theorem Generated.mirrors (h : Generated R T) : Mirrors R T := by
  obtain ⟨p, hccc, hdecomp, hpairs, hrun⟩ := h
  obtain ⟨T', hrun', hread⟩ := tables_read_back p
  obtain rfl : T = T' := Except.ok.inj (hrun.symm.trans hrun')
  have hword : ∀ {a : Nat}, a < tagBase → a < 2 ^ 32 := by
    intro a ha
    unfold tagBase at ha
    omega
  constructor
  · intro cp
    rw [hread.ccc, hccc]
    rfl
  · intro cp
    rw [hread.decomp, hdecomp]
  · intro cp
    rw [hread.decomp]
    exact (decomp_short p cp).1
  · intro cp
    rw [hread.decomp]
    exact (decomp_short p cp).2
  · intro a b ha hb
    rw [hread.compose a b (hword ha) (hword hb), hpairs]
  · intro a b ha hb
    rw [hread.compose a b (hword ha) (hword hb)]
    cases hab : p.pairs.lookup (a, b) with
    | none => exact Nat.zero_lt_of_lt ha
    | some c => exact (p.pairs_fit _ (mem_of_lookup hab)).2.2

theorem Mirrors.sized (h : Mirrors R T) : T.Sized where
  decomp := h.short
  compose := h.composite

theorem Mirrors.composePair (h : Mirrors R T) {a b : Nat} (ha : a < tagBase) (hb : b < tagBase) :
    composePair T a b = R.compose a b := by
  unfold Bytepair.composePair Reference.compose
  rw [h.compose a b ha hb]
  simp only [isHangulS, Bool.and_eq_true, decide_eq_true_eq, and_assoc]

/-- What is loaded of usual data. -/
structure Loaded (R : Reference) : Prop where
  jamo : ∀ cp, IsJamo cp → R.cccGet cp = 0
  parts : ∀ cp, R.decomp.lookup cp ≠ some []
  starter : ∀ a b c, R.pairs.lookup (a, b) = some c → R.cccGet a = 0

theorem expands_ne_nil {decomp : List (Nat × List Nat)} (hparts : ∀ item ∈ decomp, item.2 ≠ [])
    {xs out : List Nat} (h : Expands (oneStep decomp) xs out) : xs ≠ [] → out ≠ [] := by
  induction h with
  | nil => exact id
  | leaf => exact fun _ => List.cons_ne_nil _ _
  | node hstep _ _ ih =>
    intro _ hnil
    exact ih (hparts _ (mem_of_lookup hstep)) (List.append_eq_nil_iff.1 hnil).1

theorem Usual.loaded (hu : Usual u) (h : loadReference u = .ok R) : Loaded R := by
  unfold loadReference at h
  obtain ⟨full, hfull, h⟩ := bind_eq_ok.1 h
  obtain ⟨pairs, hpairs, h⟩ := bind_eq_ok.1 h
  cases h
  have hagree := agree hfull hpairs
  constructor
  · exact hu.jamo
  · intro cp hcp
    exact expands_ne_nil hu.parts (hagree.expanded _ (mem_of_lookup hcp)) (List.cons_ne_nil _ _) rfl
  · exact fun a b c hc => hagree.starter a b c (mem_of_lookup hc)

/-- A composite of marks is no syllable, as jamo are starters, and no pair of the data begins with a mark. -/
theorem Loaded.marksApart (h : Loaded R) : MarksApart R := by
  intro a b ha hb
  unfold Reference.compose
  split
  · next hlv => exact absurd (h.jamo a (.inl ⟨hlv.1, hlv.2.1⟩)) ha
  split
  · next ht => exact absurd (h.jamo b (.inr (.inr ⟨ht.2.2.2.1, ht.2.2.2.2⟩))) hb
  cases hab : R.pairs.lookup (a, b) with
  | none => rfl
  | some c => exact absurd (h.starter a b c hab) ha

end Tables

section Agreement

variable {R : Reference} {T : Tables}

theorem syllable_jamo {cp x : Nat} {out : List Nat} (h : Reference.hangulDecomp cp = some out) (hx : x ∈ out) :
    IsJamo x := by
  unfold Reference.hangulDecomp at h
  split at h
  · next hcp =>
    obtain rfl := Option.some.inj h
    unfold IsJamo
    unfold SBASE SCOUNT LBASE VBASE TBASE LCOUNT NCOUNT VCOUNT TCOUNT at *
    split at hx
    · simp only [List.cons_append, List.nil_append, List.mem_cons, List.not_mem_nil, or_false] at hx
      omega
    · simp only [List.mem_cons, List.not_mem_nil, or_false] at hx
      omega
  · cases h

theorem jamo_lt {cp : Nat} (h : IsJamo cp) : cp < tagBase := by
  unfold IsJamo LBASE VBASE TBASE LCOUNT VCOUNT TCOUNT at h
  unfold tagBase
  omega

/-- The entries of a code point are what the reference appends for it, with their classes. -/
theorem unitEntries_parts (h : Mirrors R T) (hR : Loaded R) {cp : Nat} (hcp : cp < tagBase) :
    unitEntries T cp = (R.parts cp).map (entry T) ∧ ∀ x ∈ R.parts cp, x < tagBase := by
  rw [unitEntries, if_neg (Nat.not_le.2 hcp), decomposition]
  cases hsyll : Reference.hangulDecomp cp with
  | some out =>
    have hparts : R.parts cp = out := by rw [Reference.parts, hsyll, Option.getD_some]
    have hentry : ∀ x ∈ out, entry T x = ⟨x, 0⟩ := by
      intro x hx
      rw [entry, h.ccc, hR.jamo x (syllable_jamo hsyll hx)]
    rw [hparts, List.map_congr_left hentry]
    refine ⟨?_, fun x hx => jamo_lt (syllable_jamo hsyll hx)⟩
    unfold Reference.hangulDecomp at hsyll
    split at hsyll
    · next hS =>
      obtain rfl := Option.some.inj hsyll
      rw [if_pos ((isHangulS_iff cp).2 hS)]
      dsimp only
      split <;> rfl
    · cases hsyll
  | none =>
    have hS : ¬isHangulS cp = true := by
      intro hS
      rw [Reference.hangulDecomp, if_pos ((isHangulS_iff cp).1 hS)] at hsyll
      cases hsyll
    have hparts : R.parts cp = (R.decomp.lookup cp).getD [cp] := by rw [Reference.parts, hsyll, Option.getD_none]
    have hlt := h.parts cp
    rw [if_neg hS, hparts]
    rw [h.decomp] at hlt ⊢
    cases hd : R.decomp.lookup cp with
    | none =>
      refine ⟨rfl, fun x hx => ?_⟩
      rwa [List.mem_singleton.1 hx]
    | some parts =>
      rw [hd] at hlt
      have hne : parts ≠ [] := by
        rintro rfl
        exact hR.parts cp hd
      exact ⟨if_neg hne, hlt⟩

/-- Composing entries is composing their code points; what class a composite has does not matter. -/
theorem composeFrom_entries (h : Mirrors R T) {xs : List Nat} (hxs : ∀ x ∈ xs, x < tagBase) {s : Cpe}
    (hs : s.cp < tagBase) (marks : List Nat) :
    (composeFrom Cpe.weight (composeCpe T) s (marks.map (entry T)) (xs.map (entry T))).map Cpe.cp =
      composeFrom R.cccGet R.composite s.cp marks xs := by
  have hcps : ∀ ys : List Nat, (ys.map (entry T)).map Cpe.cp = ys := by
    intro ys
    rw [List.map_map]
    exact List.map_id ys
  induction xs generalizing s marks with
  | nil => rw [List.map_nil, composeFrom, composeFrom, List.map_cons, hcps]
  | cons x xs ih =>
    obtain ⟨hx, hxs⟩ := List.forall_mem_cons.1 hxs
    have hweight : ∀ y, Cpe.weight (entry T y) = R.cccGet y := h.ccc
    have hopen : unblocked Cpe.weight (marks.map (entry T)) (entry T x) = unblocked R.cccGet marks x :=
      unblocked_map hweight marks x
    have hpair := h.composePair hs hx
    rw [List.map_cons]
    by_cases hcomp : unblocked R.cccGet marks x = true ∧ R.compose s.cp x ≠ 0
    · have hleft : composeCpe T s (entry T x) = some ⟨R.compose s.cp x, s.ccc⟩ := by
        have hno : ¬(tagBase ≤ s.cp ∨ tagBase ≤ x ∨ composePair T s.cp x = 0) := by
          rw [hpair]
          omega
        rw [composeCpe, entry, if_neg hno, hpair]
      have hright : R.composite s.cp x = some (R.compose s.cp x) := if_neg hcomp.2
      have hlt : R.compose s.cp x < tagBase := by
        rw [← hpair]
        exact composePair_lt h.sized hs hx
      rw [composeFrom_compose (hopen.trans hcomp.1) hleft, composeFrom_compose hcomp.1 hright]
      exact ih hxs hlt marks
    · have hzero : unblocked R.cccGet marks x = true → R.compose s.cp x = 0 :=
        fun hu => not_not.1 fun hne => hcomp ⟨hu, hne⟩
      have hleft : unblocked Cpe.weight (marks.map (entry T)) (entry T x) = true →
          composeCpe T s (entry T x) = none := by
        intro hu
        rw [composeCpe, entry, hpair, if_pos (.inr (.inr (hzero (hopen.symm.trans hu))))]
      have hright : unblocked R.cccGet marks x = true → R.composite s.cp x = none := fun hu => if_pos (hzero hu)
      rw [composeFrom_skip hleft, composeFrom_skip hright, hweight]
      split
      · rw [List.map_append, List.map_cons, hcps]
        congr 1
        exact ih hxs hx []
      · have hsnoc : marks.map (entry T) ++ [entry T x] = (marks ++ [x]).map (entry T) := by rw [List.map_append]; rfl
        rw [hsnoc]
        exact ih hxs hs (marks ++ [x])

theorem composeAll_entries (h : Mirrors R T) {xs : List Nat} (hxs : ∀ x ∈ xs, x < tagBase) :
    (composeAll Cpe.weight (composeCpe T) (xs.map (entry T))).map Cpe.cp = composeAll R.cccGet R.composite xs := by
  induction xs with
  | nil => rfl
  | cons x xs ih =>
    obtain ⟨hx, hxs⟩ := List.forall_mem_cons.1 hxs
    have hweight : Cpe.weight (entry T x) = R.cccGet x := h.ccc x
    rw [List.map_cons, composeAll, composeAll, hweight]
    split
    · exact composeFrom_entries h hxs hx []
    · rw [List.map_cons, ih hxs]
      rfl

theorem entryText_eq (es : List Cpe) : entryText es = encodeUnits (es.map Cpe.cp) := by
  rw [encodeUnits, List.flatMap_map, entryText]

/-- The full path writes the code points that the reference composes. -/
theorem nfcFull_parts (h : Mirrors R T) (hR : Loaded R) (cs : List Char) : nfcFull T (textOf cs) =
    encodeUnits (composeAll R.cccGet R.composite (reorder R.cccGet ((cs.map codeOf).flatMap R.parts))) := by
  have hcs : ∀ cp ∈ cs.map codeOf, cp < tagBase := by
    intro cp hcp
    obtain ⟨c, -, rfl⟩ := List.mem_map.1 hcp
    exact (codeOf_scalar c).lt
  have hentries : (cs.map codeOf).flatMap (unitEntries T) = ((cs.map codeOf).flatMap R.parts).map (entry T) := by
    rw [List.map_flatMap]
    exact List.flatMap_congr fun cp hcp => (unitEntries_parts h hR (hcs cp hcp)).1
  have hlt : ∀ x ∈ reorder R.cccGet ((cs.map codeOf).flatMap R.parts), x < tagBase := by
    intro x hx
    obtain ⟨cp, hcp, hx⟩ := List.mem_flatMap.1 ((reorder_perm _).mem_iff.1 hx)
    exact (unitEntries_parts h hR (hcs cp hcp)).2 x hx
  have hweight : ∀ y, Cpe.weight (entry T y) = R.cccGet y := h.ccc
  rw [nfcFull, entryText_eq, nfcEntries, decomposedEntries, units_textOf, hentries, reorder_map hweight,
    composeAll_entries h hlt]

/-- **The full path is the reference.** With tables generated of usual data, the full path of `bp_nfc` on UTF-8 ends
with the text of the reference's result, unless the allocator refuses. -/
theorem bpNfcFull_reference {u : Ucd} (hu : Usual u) (hR : loadReference u = .ok R) (hT : Generated R T) (m : Scratch)
    (cs : List Char) : ∃ cps r m', R.nfc (cs.map codeOf) = .ok cps ∧ bpNfcFull T m (textOf cs) = .ok (r, m') ∧
      (r = .ok (encodeUnits cps) ∨ r = .error .nomem) ∧ (m.Granted → r = .ok (encodeUnits cps)) := by
  have hloaded := hu.loaded hR
  have hmirrors := hT.mirrors
  obtain ⟨r, m', hrun, hr, hgranted, -⟩ := bpNfcFull_eq hmirrors.sized m (textOf cs)
  rw [nfcFull_parts hmirrors hloaded] at hr hgranted
  exact ⟨_, r, m', Reference.nfc_eq hloaded.marksApart _, hrun, hr, fun hm => (hgranted hm).1⟩

end Agreement

section Examples

variable {R : Reference} {T : Tables}

/-- Data the arrays of the generator have room for. -/
structure Reference.Fits (R : Reference) : Prop where
  ccc_keys : (R.ccc.map Prod.fst).Nodup
  ccc : ∀ item ∈ R.ccc, item.1 < MAX_CP ∧ item.2 < 256
  decomp_keys : (R.decomp.map Prod.fst).Nodup
  decomp : ∀ item ∈ R.decomp, item.1 < MAX_CP ∧ item.2.length ≤ MAX_DECOMP ∧ ∀ x ∈ item.2, x < MAX_CP
  pairs_keys : (R.pairs.map Prod.fst).Nodup
  pairs : ∀ item ∈ R.pairs, item.1.1 < MAX_CP ∧ item.1.2 < MAX_CP ∧ item.2 < MAX_CP

theorem Reference.Fits.generated (h : R.Fits) : ∃ T, Generated R T := by
  let p : Parse :=
    { classes := List.replicate MAX_CP 0
      ccc := R.ccc
      qc := []
      decomp := R.decomp
      pairs := R.pairs
      classes_length := List.length_replicate
      ccc_keys := h.ccc_keys
      ccc_fits := h.ccc
      qc_sorted := .nil
      qc_fits := fun r hr => absurd hr List.not_mem_nil
      decomp_keys := h.decomp_keys
      decomp_fits := h.decomp
      pairs_keys := h.pairs_keys
      pairs_fit := h.pairs }
  obtain ⟨T, hT, -⟩ := tables_read_back p
  exact ⟨T, p, rfl, rfl, rfl, hT⟩

/-- What is loaded of `latin`. -/
def latinReference : Reference where
  ccc := latin.ccc
  decomp := [(0x212B, [0x41, 0x30A]), (0xC5, [0x41, 0x30A]), (0x1EA4, [0x41, 0x302, 0x301]), (0xC2, [0x41, 0x302]),
    (0x340, [0x300])]
  pairs := [((0x41, 0x30A), 0xC5), ((0xC2, 0x301), 0x1EA4), ((0x41, 0x302), 0xC2)]

theorem latinReference_fits : latinReference.Fits := by
  constructor <;> decide +kernel

theorem latin_usual : Usual latin := by
  constructor
  · intro cp hcp
    have hkey : cp ∉ latin.ccc.map Prod.fst := by
      intro hmem
      unfold IsJamo LBASE VBASE TBASE LCOUNT VCOUNT TCOUNT at hcp
      simp only [latin, List.map_cons, List.map_nil, List.mem_cons, List.not_mem_nil, or_false] at hmem
      omega
    rw [Ucd.cccGet, lookup_eq_none.2 hkey]
    rfl
  · decide

/-- An allocator that never refuses, and nothing allocated. -/
def granting : Scratch := ⟨0, 0, 0, fun _ => true⟩

/-- The letter and its mark come out as one code point. -/
theorem bpNfcFull_reference_latin : ∃ T, Generated latinReference T ∧ ∃ m',
    bpNfcFull T granting (textOf ['A', Char.ofNat 0x30A]) = .ok (.ok [0xC3, 0x85], m') := by
  obtain ⟨T, hT⟩ := latinReference_fits.generated
  obtain ⟨cps, r, m', hcps, hrun, -, hgranted⟩ := bpNfcFull_reference latin_usual (by decide +kernel) hT granting
    ['A', Char.ofNat 0x30A]
  have hvalue : latinReference.nfc (['A', Char.ofNat 0x30A].map codeOf) = .ok [0xC5] := by decide +kernel
  obtain rfl : cps = [0xC5] := Except.ok.inj (hcps.symm.trans hvalue)
  have hr := hgranted fun _ => rfl
  refine ⟨T, hT, m', ?_⟩
  rw [hrun, hr]
  rfl

/-- The full path writes the text of the reference's result, for any data that the generator accepts. -/
def FullPathAgrees (u : Ucd) : Prop := ∀ R T m cs cps, loadReference u = .ok R → Generated R T → m.Granted →
  R.nfc (List.map codeOf cs) = .ok cps → ∃ m', bpNfcFull T m (textOf cs) = .ok (.ok (encodeUnits cps), m')

/-- Where the generator's tables lead the full path to another text than the reference's, they do not agree. -/
theorem not_agrees {u : Ucd} (hR : loadReference u = .ok R) (hfits : R.Fits) {cs : List Char} {cps cps' : List Nat}
    (hnfc : R.nfc (cs.map codeOf) = .ok cps) (hfull : ∀ T, Mirrors R T → nfcFull T (textOf cs) = encodeUnits cps')
    (hne : encodeUnits cps' ≠ encodeUnits cps) : ¬FullPathAgrees u := by
  intro hagree
  obtain ⟨T, hT⟩ := hfits.generated
  obtain ⟨m', hrun⟩ := hagree R T granting cs cps hR hT (fun _ => rfl) hnfc
  obtain ⟨r, m'', hrun', -, hgranted, -⟩ := bpNfcFull_eq hT.mirrors.sized granting (textOf cs)
  have hr := (hgranted fun _ => rfl).1
  rw [hrun, hr, hfull T hT.mirrors] at hrun'
  exact hne (Except.ok.inj (Prod.mk.inj (Except.ok.inj hrun')).1).symm

/-- A leading jamo with a class. -/
def markedJamo : Ucd := ⟨[], [(0x1100, 5)], [], [], .nil⟩

/-- A decomposition without parts. -/
def emptyMapping : Ucd := ⟨[(0x340, [])], [], [], [0x340], by decide⟩

theorem markedJamo_full (h : Mirrors ⟨[(0x1100, 5)], [], []⟩ T) :
    nfcFull T (textOf ['A', Char.ofNat 0xAC00]) = encodeUnits [0x41, 0xAC00] := by
  have hA : unitEntries T 0x41 = [⟨0x41, 0⟩] := by
    have hccc : T.bpCcc 0x41 = 0 := h.ccc 0x41
    have hdecomp : T.bpDecomp 0x41 = [] := h.decomp 0x41
    rw [unitEntries, if_neg (by decide), decomposition, if_neg (by decide), if_pos hdecomp, hccc]
  have hsyllable : unitEntries T 0xAC00 = [⟨0x1100, 0⟩, ⟨0x1161, 0⟩] := rfl
  have hapart : composeCpe T ⟨0x41, 0⟩ ⟨0x1100, 0⟩ = none := by
    have hzero : composePair T 0x41 0x1100 = 0 := h.composePair (by decide) (by decide)
    exact if_pos (.inr (.inr hzero))
  have hlv : composeCpe T ⟨0x1100, 0⟩ ⟨0x1161, 0⟩ = some ⟨0xAC00, 0⟩ := rfl
  have hunits : units (textOf ['A', Char.ofNat 0xAC00]) = [0x41, 0xAC00] := units_textOf _
  have hentries : decomposedEntries T (textOf ['A', Char.ofNat 0xAC00]) =
      [⟨0x41, 0⟩, ⟨0x1100, 0⟩, ⟨0x1161, 0⟩] := by
    rw [decomposedEntries, hunits, List.flatMap_cons, List.flatMap_cons, hA, hsyllable]
    rfl
  have hcomposed : nfcEntries T (textOf ['A', Char.ofNat 0xAC00]) = [⟨0x41, 0⟩, ⟨0xAC00, 0⟩] := by
    rw [nfcEntries, hentries, composeAll, if_pos rfl, composeFrom_skip fun _ => hapart, if_pos rfl,
      composeFrom_compose rfl hlv]
    rfl
  rw [nfcFull, hcomposed]
  rfl

theorem emptyMapping_full (h : Mirrors ⟨[], [(0x340, [])], []⟩ T) :
    nfcFull T (textOf [Char.ofNat 0x340]) = encodeUnits [0x340] := by
  have hunit : unitEntries T 0x340 = [⟨0x340, 0⟩] := by
    have hccc : T.bpCcc 0x340 = 0 := h.ccc 0x340
    have hdecomp : T.bpDecomp 0x340 = [] := h.decomp 0x340
    rw [unitEntries, if_neg (by decide), decomposition, if_neg (by decide), if_pos hdecomp, hccc]
  have hunits : units (textOf [Char.ofNat 0x340]) = [0x340] := units_textOf _
  rw [nfcFull, nfcEntries, decomposedEntries, hunits, List.flatMap_cons, hunit]
  rfl

/-- The generator accepts data with which the full path and the reference differ: it writes a syllable where the
reference leaves its jamo apart, and keeps a code point that the reference deletes. -/
theorem not_fullPathAgrees : ¬FullPathAgrees markedJamo ∧ ¬FullPathAgrees emptyMapping := by
  constructor
  · have hR : loadReference markedJamo = .ok ⟨[(0x1100, 5)], [], []⟩ := by decide +kernel
    refine @not_agrees _ _ hR ?_ ['A', Char.ofNat 0xAC00] [0x41, 0x1100, 0x1161] _ ?_ (fun T => markedJamo_full) ?_
    · constructor <;> decide +kernel
    · decide +kernel
    · decide +kernel
  · have hR : loadReference emptyMapping = .ok ⟨[], [(0x340, [])], []⟩ := by decide +kernel
    refine @not_agrees _ _ hR ?_ [Char.ofNat 0x340] [] _ ?_ (fun T => emptyMapping_full) ?_
    · constructor <;> decide +kernel
    · decide +kernel
    · decide +kernel

end Examples

end Bytepair
