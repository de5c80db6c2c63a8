import Bytepair.Probe.Engine

/-!
# What the probe finds

`probeAll_eq`: whatever the chunks and the order they come in, the probe collects the class, the unmodelled shape and the
rare shape of each code point. `probe_exact`: of a pre-tokenizer that splits by the regex, these are its own classes.
-/

namespace Bytepair.Probe
open Support

section Collected

variable (pre : List Nat → List (List Nat))

def isSurrogate (cp : Nat) : Bool := SURROGATE_FIRST ≤ cp && cp ≤ SURROGATE_LAST

/-- The class byte that is recorded for a code point. -/
def probedClass (cp : Nat) : UInt8 :=
  if isSurrogate cp then 0 else (shapeToClass.lookup (shapeOf pre cp)).getD 0

def probedOdd (cp : Nat) : Option (Nat × Nat × Nat) :=
  if isSurrogate cp then none else if (shapeToClass.lookup (shapeOf pre cp)).isNone then some (cp, shapeOf pre cp) else none

def probedRare (cp : Nat) : Option ((Nat × Nat) × Nat) :=
  if isSurrogate cp then none
  else if shapeOf pre cp = (2, 2) ∨ shapeOf pre cp = (3, 2) then some (shapeOf pre cp, cp) else none

/-- What is collected, in the order of the code points. -/
def probed : Gathered :=
  ⟨slice (probedClass pre) 0 MAX_CP, ((List.range MAX_CP).filterMap (probedOdd pre)).mergeSort tripleLe,
    ((List.range MAX_CP).filterMap (probedRare pre)).mergeSort rareLe⟩

variable {pre}

/-- A round fills in one entry. -/
theorem probeRound_eq {lo k m : Nat} {odd : List (Nat × Nat × Nat)} {rare : List ((Nat × Nat) × Nat)} :
    probeRound pre ⟨lo, slice (probedClass pre) lo k ++ List.replicate (m + 1) 0, odd, rare⟩ (lo + k) =
      ⟨lo, slice (probedClass pre) lo (k + 1) ++ List.replicate m 0, odd ++ (probedOdd pre (lo + k)).toList,
        rare ++ (probedRare pre (lo + k)).toList⟩ := by
  have hset : ∀ x : UInt8, (slice (probedClass pre) lo k ++ List.replicate (m + 1) 0).set (lo + k - lo) x =
      slice (probedClass pre) lo k ++ x :: List.replicate m 0 := by
    intro x
    rw [List.set_append_right _ _ (by rw [length_slice]; omega), length_slice, Nat.add_sub_cancel_left, Nat.sub_self,
      List.replicate_succ, List.set_cons_zero]
  have hsnoc : slice (probedClass pre) lo (k + 1) ++ List.replicate m 0 =
      slice (probedClass pre) lo k ++ probedClass pre (lo + k) :: List.replicate m 0 := by
    unfold slice
    rw [List.range'_concat, List.map_append, Nat.one_mul, List.append_assoc]
    rfl
  rw [hsnoc]
  unfold probeRound
  by_cases hs : SURROGATE_FIRST ≤ lo + k ∧ lo + k ≤ SURROGATE_LAST
  · have hsur : isSurrogate (lo + k) = true := by simpa [isSurrogate] using hs
    simp [hs, probedClass, probedOdd, probedRare, hsur, List.replicate_succ]
  · have hsur : isSurrogate (lo + k) = false := by simpa [isSurrogate] using hs
    rw [if_neg hs]
    dsimp only
    split
    · next hnone =>
      have hrare : ¬(shapeOf pre (lo + k) = (2, 2) ∨ shapeOf pre (lo + k) = (3, 2)) := by
        rintro (h | h) <;> rw [h] at hnone <;> cases hnone
      rw [hset]
      simp [probedClass, probedOdd, probedRare, hsur, hnone, hrare]
    · next cls hsome =>
      rw [hset]
      by_cases hrare : shapeOf pre (lo + k) = (2, 2) ∨ shapeOf pre (lo + k) = (3, 2) <;>
        simp [probedClass, probedOdd, probedRare, hsur, hsome, hrare]

/-- A chunk has the classes of its code points, the odd shapes and the rare ones. -/
theorem probeChunk_eq (lo hi : Nat) : probeChunk pre lo hi =
    ⟨lo, slice (probedClass pre) lo (hi - lo), (List.range' lo (hi - lo)).filterMap (probedOdd pre),
      (List.range' lo (hi - lo)).filterMap (probedRare pre)⟩ := by
  have key : ∀ m k odd rare, (List.range' (lo + k) m).foldl (probeRound pre)
      ⟨lo, slice (probedClass pre) lo k ++ List.replicate m 0, odd, rare⟩ =
        ⟨lo, slice (probedClass pre) lo (k + m), odd ++ (List.range' (lo + k) m).filterMap (probedOdd pre),
          rare ++ (List.range' (lo + k) m).filterMap (probedRare pre)⟩ := by
    intro m
    induction m with
    | zero => simp
    | succ m ih =>
      intro k odd rare
      rw [List.range'_succ, List.foldl_cons, probeRound_eq, Nat.add_assoc lo k 1, ih (k + 1), Nat.add_assoc k 1 m,
        Nat.add_comm 1 m]
      simp only [List.filterMap_cons, List.append_assoc]
      cases probedOdd pre (lo + k) <;> cases probedRare pre (lo + k) <;> rfl
  have hrun := key (hi - lo) 0 [] []
  rw [Nat.add_zero, Nat.zero_add] at hrun
  exact hrun

/-- The results are gathered one by one. -/
theorem foldl_gather (results : List Chunk) (s : Gathered) : results.foldl gatherRound s =
    ⟨results.foldl (fun xs c => splice xs c.lo c.out) s.classes, s.unmodelled ++ results.flatMap Chunk.odd,
      s.rare ++ results.flatMap Chunk.rare⟩ := by
  induction results generalizing s with
  | nil => simp
  | cons c results ih =>
    rw [List.foldl_cons, ih]
    simp [gatherRound]

theorem tripleLe_iff (x y : Nat × Nat × Nat) : tripleLe x y = true ↔
    x.1 < y.1 ∨ x.1 = y.1 ∧ (x.2.1 < y.2.1 ∨ x.2.1 = y.2.1 ∧ x.2.2 ≤ y.2.2) := by
  simp [tripleLe]

theorem tripleLe_trans (x y z : Nat × Nat × Nat) (hxy : tripleLe x y) (hyz : tripleLe y z) : tripleLe x z := by
  rw [tripleLe_iff] at *
  omega

theorem tripleLe_total (x y : Nat × Nat × Nat) : tripleLe x y || tripleLe y x := by
  rw [Bool.or_eq_true, tripleLe_iff, tripleLe_iff]
  omega

theorem tripleLe_antisymm (x y : Nat × Nat × Nat) (hxy : tripleLe x y) (hyx : tripleLe y x) : x = y := by
  obtain ⟨a, b, c⟩ := x
  obtain ⟨a', b', c'⟩ := y
  rw [tripleLe_iff] at hxy hyx
  dsimp only at hxy hyx
  obtain ⟨rfl, rfl, rfl⟩ : a = a' ∧ b = b' ∧ c = c' := by omega
  rfl

theorem rareLe_trans (x y z : (Nat × Nat) × Nat) (hxy : rareLe x y) (hyz : rareLe y z) : rareLe x z :=
  tripleLe_trans _ _ _ hxy hyz

theorem rareLe_total (x y : (Nat × Nat) × Nat) : rareLe x y || rareLe y x := tripleLe_total _ _

theorem rareLe_antisymm (x y : (Nat × Nat) × Nat) (hxy : rareLe x y) (hyx : rareLe y x) : x = y := by
  obtain ⟨⟨a, b⟩, c⟩ := x
  obtain ⟨⟨a', b'⟩, c'⟩ := y
  have h := tripleLe_antisymm _ _ hxy hyx
  simpa [and_assoc] using h

variable {chunk : Nat} {order : List (Nat × Nat)}

/-- What the chunks list is what all code points list, in some order. -/
theorem perm_collected {β : Type} (f : Nat → Option β) (hchunk : 0 < chunk) (horder : order.Perm (chunkBounds MAX_CP chunk)) :
    (order.flatMap fun b => (List.range' b.1 (b.2 - b.1)).filterMap f).Perm ((List.range MAX_CP).filterMap f) := by
  rw [← flatMap_chunkBounds hchunk, List.filterMap_flatMap]
  exact horder.flatMap_right _

/-- The slices fill the array with the classes. -/
theorem fill_classes (hchunk : 0 < chunk) (horder : order.Perm (chunkBounds MAX_CP chunk)) :
    order.foldl (fun xs b => splice xs b.1 (slice (probedClass pre) b.1 (b.2 - b.1))) (List.replicate MAX_CP 0) =
      slice (probedClass pre) 0 MAX_CP := by
  have hbounds : ∀ s ∈ order.map (fun b => (b.1, b.2 - b.1)), s.1 + s.2 ≤ (List.replicate MAX_CP (0 : UInt8)).length := by
    intro s hs
    obtain ⟨b, hb, rfl⟩ := List.mem_map.1 hs
    obtain ⟨hle, hmax⟩ := chunkBounds_le (horder.mem_iff.1 hb)
    rw [List.length_replicate]
    dsimp only
    omega
  obtain ⟨hlen, hfill⟩ := getElem?_fill (f := probedClass pre) hbounds
  rw [List.foldl_map] at hlen hfill
  apply List.ext_getElem?
  intro i
  rcases Nat.lt_or_ge i MAX_CP with hi | hi
  · obtain ⟨b, hb, hin⟩ := exists_chunk hchunk hi
    rw [hfill i (.inr ⟨_, List.mem_map_of_mem (horder.mem_iff.2 hb), hin⟩), slice, List.getElem?_map,
      List.getElem?_range' hi]
    simp
  · rw [List.getElem?_eq_none, List.getElem?_eq_none]
    · rwa [length_slice]
    · rwa [hlen, List.length_replicate]

/-- **Any order.** -/
theorem probeAll_eq (hchunk : 0 < chunk) (horder : order.Perm (chunkBounds MAX_CP chunk)) :
    probeAll (chunkResults pre order) = probed pre := by
  unfold probeAll chunkResults
  rw [foldl_gather]
  simp only [List.foldl_map, List.flatMap_map, probeChunk_eq, List.nil_append]
  rw [fill_classes hchunk horder, mergeSort_eq_of_perm tripleLe_trans tripleLe_total tripleLe_antisymm
    (perm_collected (probedOdd pre) hchunk horder), mergeSort_eq_of_perm rareLe_trans rareLe_total
    rareLe_antisymm (perm_collected (probedRare pre) hchunk horder)]
  rfl

end Collected

section Sorted

variable {n : Nat} {p : Nat → Bool} {l : List Nat}

/-- A sorted list is what passes a test if it has just that. -/
theorem filter_range_eq_iff (hl : l.Pairwise (· < ·)) (hlt : ∀ x ∈ l, x < n) :
    (List.range n).filter p = l ↔ ∀ x < n, p x = true ↔ x ∈ l := by
  constructor
  · rintro rfl x hx
    simp [hx]
  · intro h
    apply List.Perm.eq_of_pairwise fun a b _ _ (hab : a < b) hba => absurd hab (Nat.lt_asymm hba)
    · exact List.pairwise_lt_range.filter p
    · exact hl
    · rw [List.perm_ext_iff_of_nodup (List.nodup_range.filter p) (hl.imp Nat.ne_of_lt)]
      intro x
      rw [List.mem_filter, List.mem_range]
      constructor
      · exact fun hx => (h x hx.1).1 hx.2
      · exact fun hx => ⟨hlt x hx, (h x (hlt x hx)).2 hx⟩

/-- What passes a test, in order. -/
theorem mergeSort_of_perm_filter (h : l.Perm ((List.range n).filter p)) : l.mergeSort = (List.range n).filter p := by
  apply List.Perm.eq_of_pairwise fun a b _ _ (hab : a ≤ b) hba => Nat.le_antisymm hab hba
  · have hsorted : l.mergeSort.Pairwise (fun a b => decide (a ≤ b) = true) := by
      apply List.pairwise_mergeSort
      · simp only [decide_eq_true_eq]
        exact fun a b c => Nat.le_trans
      · simp [Nat.le_total]
    simpa using hsorted
  · exact (List.pairwise_lt_range.filter p).imp Nat.le_of_lt
  · exact (List.mergeSort_perm l _).trans h

end Sorted

section Problems

variable {pre : List Nat → List (List Nat)}

/-- The code points of one of the two rare shapes, in order. -/
theorem shapeCps_probed {shape : Nat × Nat} (hshape : shape = (2, 2) ∨ shape = (3, 2)) : shapeCps (probed pre).rare shape =
    (List.range MAX_CP).filter fun cp => !isSurrogate cp && decide (shapeOf pre cp = shape) := by
  unfold shapeCps probed
  apply mergeSort_of_perm_filter
  refine (((List.mergeSort_perm _ _).filter _).map _).trans (.of_eq ?_)
  rw [List.filter_filterMap, List.map_filterMap, ← List.filterMap_eq_filter]
  congr 1
  funext cp
  unfold probedRare
  cases hsur : isSurrogate cp
  · by_cases h : shapeOf pre cp = shape
    · rcases hshape with rfl | rfl <;> simp [h, hsur, Option.guard, Option.filter]
    · by_cases hrare : shapeOf pre cp = (2, 2) ∨ shapeOf pre cp = (3, 2) <;> simp [hrare, h, Option.guard, Option.filter]
  · simp [hsur, Option.guard]

theorem unmodelled_probed : (probed pre).unmodelled = [] ↔ ∀ cp < MAX_CP, probedOdd pre cp = none := by
  unfold probed
  rw [← List.isEmpty_iff, (List.mergeSort_perm _ _).isEmpty_eq, List.isEmpty_iff, List.filterMap_eq_nil_iff]
  simp

/-- There is no complaint if no shape is odd and the rare ones are the blank and the line breaks. -/
theorem problems_eq_nil (g : Gathered) : problems g = [] ↔
    g.unmodelled = [] ∧ shapeCps g.rare (2, 2) = [0x20] ∧ shapeCps g.rare (3, 2) = [0x0A, 0x0D] := by
  unfold problems
  simp only [List.append_eq_nil_iff, and_assoc]
  by_cases hodd : g.unmodelled = [] <;> by_cases hspace : shapeCps g.rare (2, 2) = [0x20] <;>
    by_cases hnl : shapeCps g.rare (3, 2) = [0x0A, 0x0D] <;> simp [hodd, hspace, hnl]

end Problems

section Counted

theorem Counts.total_eq (c : Counts) : c.total = c.letter + c.number + c.whitespace + c.other := by
  unfold Counts.total
  omega

/-- A class byte of the table is counted once. -/
theorem total_countRound (c : Counts) {cls : UInt8} (h : cls ∈ shapeToClass.map Prod.snd) :
    (countRound c cls).total = c.total + 1 := by
  have hbits : cls = 0 ∨ cls = 1 ∨ cls = 2 ∨ cls = 4 ∨ cls = 12 := by
    revert h
    simp only [shapeToClass, List.map_cons, List.map_nil, List.mem_cons, List.not_mem_nil, or_false]
    rintro (rfl | rfl | rfl | rfl | rfl | rfl) <;> decide
  rw [Counts.total_eq, Counts.total_eq]
  rcases hbits with rfl | rfl | rfl | rfl | rfl
  · have hround : countRound c 0 = { c with other := c.other + 1 } := rfl
    rw [hround]
    dsimp only
    omega
  · have hround : countRound c 1 = { c with letter := c.letter + 1 } := rfl
    rw [hround]
    dsimp only
    omega
  · have hround : countRound c 2 = { c with number := c.number + 1 } := rfl
    rw [hround]
    dsimp only
    omega
  · have hround : countRound c 4 = { c with whitespace := c.whitespace + 1 } := rfl
    rw [hround]
    dsimp only
    omega
  · have hround : countRound c 12 = { c with whitespace := c.whitespace + 1, crLf := c.crLf + 1 } := rfl
    rw [hround]
    dsimp only
    omega

theorem total_summarize {classes : List UInt8} (h : ∀ cls ∈ classes, cls ∈ shapeToClass.map Prod.snd) :
    (summarize classes).total = classes.length := by
  have key : ∀ c, (classes.foldl countRound c).total = c.total + classes.length := by
    induction classes with
    | nil => exact fun c => rfl
    | cons cls classes ih =>
      obtain ⟨hcls, hrest⟩ := List.forall_mem_cons.1 h
      intro c
      rw [List.foldl_cons, ih hrest, total_countRound c hcls, List.length_cons, Nat.add_assoc, Nat.add_comm 1]
  exact (key _).trans (Nat.zero_add _)

theorem probedClass_mem (pre : List Nat → List (List Nat)) (cp : Nat) : probedClass pre cp ∈ shapeToClass.map Prod.snd := by
  have hzero : (0 : UInt8) ∈ shapeToClass.map Prod.snd := by simp [shapeToClass]
  unfold probedClass
  split
  · exact hzero
  · cases hlookup : shapeToClass.lookup (shapeOf pre cp) with
    | none => exact hzero
    | some cls => exact List.mem_map_of_mem (mem_of_lookup hlookup)

end Counted

section Shapes

variable {k : Kind} {cp : Nat}

theorem crLf_cases (h : isCrLf cp = true) : cp = 0x0D ∨ cp = 0x0A := by
  simpa [isCrLf] using h

theorem ne_blank (h : isCrLf cp = true) : cp ≠ 0x20 := by
  rcases crLf_cases h with rfl | rfl <;> decide

/-- Only the blank, if it is white space, has this shape. -/
theorem shape_blank_iff : probeShape k cp = (2, 2) ↔ cp = 0x20 ∧ k = .space := by
  cases k with
  | letter => simp [probeShape]
  | number => cases hcr : isCrLf cp <;> simp [probeShape, hcr]
  | space =>
    cases hcr : isCrLf cp with
    | true => simp [probeShape, hcr, ne_blank hcr]
    | false => by_cases hblank : cp = 0x20 <;> simp only [probeShape, hcr] <;> simp [hblank]
  | other => cases hcr : isCrLf cp <;> simp [probeShape, hcr]

/-- Only line breaks that are numbers or white space have this shape. -/
theorem shape_crLf_iff : probeShape k cp = (3, 2) ↔ isCrLf cp = true ∧ (k = .number ∨ k = .space) := by
  cases k with
  | letter => simp [probeShape]
  | number => cases hcr : isCrLf cp <;> simp [probeShape, hcr]
  | space =>
    cases hcr : isCrLf cp with
    | true => simp [probeShape, hcr]
    | false => by_cases hblank : cp = 0x20 <;> simp only [probeShape, hcr] <;> simp [hblank]
  | other => cases hcr : isCrLf cp <;> simp [probeShape, hcr]

/-- Only a CR or LF that is of no class has a shape that is not modelled. -/
theorem lookup_shape : (shapeToClass.lookup (probeShape k cp)).isNone = true ↔ isCrLf cp = true ∧ k = .other := by
  have all : ∀ shape ∈ [(1, 2), (3, 2), (3, 3), (2, 2), (2, 3)], (shapeToClass.lookup shape).isNone = false := by decide
  have modelled : ∀ shape, shape ∈ [(1, 2), (3, 2), (3, 3), (2, 2), (2, 3)] → k ≠ .other →
      ((shapeToClass.lookup shape).isNone = true ↔ isCrLf cp = true ∧ k = .other) := by
    intro shape hshape hk
    rw [all shape hshape]
    exact iff_of_false Bool.false_ne_true fun h => hk h.2
  cases k with
  | letter => exact modelled _ (by simp [probeShape]) (by decide)
  | number =>
    apply modelled
    · unfold probeShape
      dsimp only
      split_ifs <;> decide
    · decide
  | space =>
    apply modelled
    · unfold probeShape
      dsimp only
      split_ifs <;> decide
    · decide
  | other =>
    have hodd : (shapeToClass.lookup (3, 1)).isNone = true := by decide
    have hother : (shapeToClass.lookup (2, 1)).isNone = false := by decide
    cases hcr : isCrLf cp <;> simp [probeShape, hcr, hodd, hother]

end Shapes

section Found

variable {kind : Nat → Kind} {pre : List Nat → List (List Nat)} {cp : Nat}

theorem isSurrogate_eq_false_iff (hlt : cp < MAX_CP) : isSurrogate cp = false ↔ IsScalar cp := by
  unfold isSurrogate SURROGATE_FIRST SURROGATE_LAST IsScalar
  unfold MAX_CP at hlt
  simp only [Bool.and_eq_false_iff, decide_eq_false_iff_not]
  omega

theorem isCrLf_scalar (h : isCrLf cp = true) : IsScalar cp := by
  rcases crLf_cases h with rfl | rfl <;> decide

variable (h : Probes kind) (hpre : Engine kind pre)
include h hpre

/-- The class of a code point is found, but where a CR or LF is a number. -/
theorem probedClass_of_kind (hlt : cp < MAX_CP) (hnl : isCrLf cp = true → kind cp ≠ .number) :
    probedClass pre cp = classByte (kindBits kind cp) := by
  unfold probedClass
  cases hsur : isSurrogate cp with
  | true =>
    have hrange : SURROGATE_FIRST ≤ cp ∧ cp ≤ SURROGATE_LAST := by simpa [isSurrogate] using hsur
    rw [kindBits, if_pos hrange]
    rfl
  | false =>
    have hcp := (isSurrogate_eq_false_iff hlt).1 hsur
    rw [if_neg Bool.false_ne_true, shape_of_kind h hcp hpre, kindBits_scalar hcp]
    cases hk : kind cp with
    | letter => rfl
    | number =>
      have hcr : isCrLf cp = false := Bool.eq_false_iff.2 fun hcr => hnl hcr hk
      simp only [probeShape, hcr]
      rfl
    | space =>
      cases hcr : isCrLf cp
      · by_cases hblank : cp = 0x20 <;> simp only [probeShape, hcr, hblank] <;> rfl
      · simp only [probeShape, hcr]
        rfl
    | other => cases hcr : isCrLf cp <;> simp only [probeShape, hcr] <;> rfl

/-- A shape is odd only for a line break of the other kind. -/
theorem probedOdd_of_kind (hlt : cp < MAX_CP) : probedOdd pre cp = none ↔ ¬(isCrLf cp = true ∧ kind cp = .other) := by
  unfold probedOdd
  cases hsur : isSurrogate cp with
  | true =>
    refine iff_of_true rfl fun hcr => ?_
    have hscalar := (isSurrogate_eq_false_iff hlt).2 (isCrLf_scalar hcr.1)
    rw [hsur] at hscalar
    cases hscalar
  | false =>
    have hcp := (isSurrogate_eq_false_iff hlt).1 hsur
    rw [if_neg Bool.false_ne_true, shape_of_kind h hcp hpre, ← lookup_shape]
    cases (shapeToClass.lookup (probeShape (kind cp) cp)).isNone <;> simp

/-- A rare shape, by the kind. -/
theorem rare_of_kind {shape : Nat × Nat} (hlt : cp < MAX_CP) :
    (!isSurrogate cp && decide (shapeOf pre cp = shape)) = true ↔ IsScalar cp ∧ probeShape (kind cp) cp = shape := by
  rw [Bool.and_eq_true, Bool.not_eq_true', isSurrogate_eq_false_iff hlt, decide_eq_true_eq]
  exact and_congr_right fun hcp => by rw [shape_of_kind h hcp hpre]

/-- The probe has no complaint exactly if U+0020 is whitespace and CR and LF are whitespace or numbers. -/
theorem problems_of_kind : problems (probed pre) = [] ↔
    kind 0x20 = .space ∧ ∀ cp, isCrLf cp = true → kind cp = .number ∨ kind cp = .space := by
  rw [problems_eq_nil, unmodelled_probed, shapeCps_probed (.inl rfl), shapeCps_probed (.inr rfl),
    filter_range_eq_iff (by decide) (by decide), filter_range_eq_iff (by decide) (by decide)]
  constructor
  · rintro ⟨-, hblank, hnl⟩
    refine ⟨?_, fun cp hcr => ?_⟩
    · have hrare := (hblank 0x20 (by decide)).2 List.mem_cons_self
      rw [rare_of_kind h hpre (by decide), shape_blank_iff] at hrare
      exact hrare.2.2
    · have hlt : cp < MAX_CP := (isCrLf_scalar hcr).lt
      have hmem : cp ∈ [0x0A, 0x0D] := by
        rcases crLf_cases hcr with rfl | rfl <;> decide
      have hrare := (hnl cp hlt).2 hmem
      rw [rare_of_kind h hpre hlt, shape_crLf_iff] at hrare
      exact hrare.2.2
  · rintro ⟨hblank, hnl⟩
    refine ⟨fun cp hlt => ?_, fun cp hlt => ?_, fun cp hlt => ?_⟩
    · rw [probedOdd_of_kind h hpre hlt]
      rintro ⟨hcr, hother⟩
      rcases hnl cp hcr with hk | hk <;> rw [hk] at hother <;> cases hother
    · rw [rare_of_kind h hpre hlt, shape_blank_iff, List.mem_singleton]
      constructor
      · exact fun hrare => hrare.2.1
      · rintro rfl
        exact ⟨by decide, rfl, hblank⟩
    · rw [rare_of_kind h hpre hlt, shape_crLf_iff]
      have hmem : cp ∈ [0x0A, 0x0D] ↔ isCrLf cp = true := by
        simp [isCrLf, or_comm]
      rw [hmem]
      exact ⟨fun hrare => hrare.2.1, fun hcr => ⟨isCrLf_scalar hcr, hcr, hnl cp hcr⟩⟩

variable {chunk : Nat} {order : List (Nat × Nat)} (hchunk : 0 < chunk) (horder : order.Perm (chunkBounds MAX_CP chunk))
include hchunk horder

omit h hpre in

/-- The artifact has the class of every code point, in order. -/
theorem artifact_eq : (report (chunkResults pre order)).artifact = slice (probedClass pre) 0 MAX_CP := by
  unfold report
  rw [probeAll_eq hchunk horder]
  rfl

/-- The artifact has the class of a code point, but where a CR or LF is a number. -/
theorem artifact_of_kind (hlt : cp < MAX_CP) (hnl : isCrLf cp = true → kind cp ≠ .number) :
    (report (chunkResults pre order)).artifact[cp]? = some (classByte (kindBits kind cp)) := by
  rw [artifact_eq hchunk horder, slice, List.getElem?_map, List.getElem?_range' hlt, Option.map_some, Nat.zero_add, Nat.one_mul,
    probedClass_of_kind h hpre hlt hnl]

/-- When the probe ends without a complaint. -/
theorem status_of_kind : (report (chunkResults pre order)).status = 0 ↔
    kind 0x20 = .space ∧ ∀ cp, isCrLf cp = true → kind cp = .number ∨ kind cp = .space := by
  rw [← problems_of_kind h hpre, ← probeAll_eq hchunk horder]
  unfold report
  dsimp only
  by_cases hnil : problems (probeAll (chunkResults pre order)) = []
  · rw [if_pos hnil]
    exact iff_of_true rfl hnil
  · rw [if_neg hnil]
    exact iff_of_false Nat.one_ne_zero hnil

/-- **The probe is exact.** Of a pre-tokenizer that splits by the regex of profile 1, over any classes in which `a` is a
letter and `!` is of none, whatever the chunks and the order their results come in: the artifact has the class of every
code point, but where a CR or LF is a number; the probe complains unless U+0020 is whitespace and CR and LF are
whitespace or numbers; every code point is counted once. -/
theorem probe_exact :
    (∀ cp < MAX_CP, (isCrLf cp = true → kind cp ≠ .number) →
      (report (chunkResults pre order)).artifact[cp]? = some (classByte (kindBits kind cp))) ∧
    readClasses (report (chunkResults pre order)).artifact = .ok (report (chunkResults pre order)).artifact ∧
    ((report (chunkResults pre order)).status = 0 ↔
      kind 0x20 = .space ∧ ∀ cp, isCrLf cp = true → kind cp = .number ∨ kind cp = .space) ∧
    (report (chunkResults pre order)).counts.total = MAX_CP := by
  have hartifact : (report (chunkResults pre order)).artifact = _ := artifact_eq hchunk horder
  have hlen : (report (chunkResults pre order)).artifact.length = MAX_CP := by
    rw [hartifact, length_slice]
  refine ⟨fun cp => artifact_of_kind h hpre hchunk horder, ?_, status_of_kind h hpre hchunk horder, ?_⟩
  · rw [readClasses, if_neg (not_not_intro hlen)]
  · have hcounts : (report (chunkResults pre order)).counts = summarize (report (chunkResults pre order)).artifact := rfl
    rw [hcounts, total_summarize, hlen]
    intro cls hcls
    rw [hartifact] at hcls
    obtain ⟨cp, -, rfl⟩ := List.mem_map.1 hcls
    exact probedClass_mem pre cp

end Found

/-- The usual kinds of ASCII; what is beyond is of none. -/
def asciiKind (cp : Nat) : Kind :=
  if 0x41 ≤ cp ∧ cp ≤ 0x5A ∨ 0x61 ≤ cp ∧ cp ≤ 0x7A then .letter
  else if 0x30 ≤ cp ∧ cp ≤ 0x39 then .number
  else if cp = 0x20 ∨ 0x09 ≤ cp ∧ cp ≤ 0x0D then .space
  else .other

/-- The chunks of the tool, the last one first. -/
def lastFirst : List (Nat × Nat) := (chunkBounds MAX_CP 4096).reverse

theorem probe_exact_ascii :
    (report (chunkResults (pieces asciiKind) lastFirst)).artifact[0x41]? = some 1 ∧
      (report (chunkResults (pieces asciiKind) lastFirst)).status = 0 := by
  have h := @probe_exact asciiKind (pieces asciiKind) ⟨by decide, by decide⟩ ⟨fun _ _ => rfl⟩ 4096 lastFirst (by decide)
    (List.reverse_perm _)
  refine ⟨h.1 0x41 (by decide) (by decide), h.2.2.1.2 ⟨by decide, fun cp hcr => .inr ?_⟩⟩
  rcases crLf_cases hcr with rfl | rfl <;> decide

end Bytepair.Probe
