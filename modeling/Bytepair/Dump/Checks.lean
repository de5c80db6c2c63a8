import Bytepair.Convert.Selfcheck
import Bytepair.Dump.Model

/-!
# The checks of the inspector, one by one

What each part of `tools/bpv_dump.py` asks of an image, said of its header and its contents. The loop over the slots is
the hard one: `slots_looped` is what it knows behind the slots it went over, and `slots_ok` when it goes on.
-/

namespace Bytepair.Dump
open Support Support.Probing Bytepair.Convert

section Outcome

theorem check_eq_ok {cond : Bool} {template : String} {args : List Arg} {u : Unit} :
    check cond template args = .ok u ↔ cond = true := by
  unfold check
  cases cond with
  | false => simp
  | true => simp

theorem check_bind {cond : Bool} {template : String} {args : List Arg} {α : Type} {k : Except IntegrityError α} {a : α} :
    (check cond template args >>= fun _ => k) = .ok a ↔ cond = true ∧ k = .ok a := by
  rw [part_bind, check_eq_ok]

/-- A loop over the first numbers, by its last round. -/
theorem foldlM_range_succ {ε β : Type} (f : β → Nat → Except ε β) (b : β) (n : Nat) :
    (List.range (n + 1)).foldlM f b = (List.range n).foldlM f b >>= fun b => f b n := by
  rw [List.range_succ, List.foldlM_append]
  congr 1
  funext b'
  rw [List.foldlM_cons]
  exact bind_pure _

end Outcome

section Parse

variable {image : List UInt8}

theorem checkSections_eq_ok {size start : Nat} {table : List (Nat × Nat)} {names : List String} {u : Unit}
    (hlen : names.length = table.length) :
    checkSections size start (names.zip table) = .ok u ↔ InOrder size start table := by
  induction table generalizing start names with
  | nil =>
    rw [List.zip_nil_right]
    exact iff_of_true rfl (inOrder_nil size start)
  | cons s table ih =>
    obtain ⟨name, names, rfl⟩ := List.exists_cons_of_length_eq_add_one hlen
    rw [List.zip_cons_cons, checkSections, check_bind, check_bind, check_bind, ih (Nat.succ.inj hlen), inOrder_cons]
    simp only [decide_eq_true_eq]
    exact Iff.rfl

/-- An image as it is parsed. -/
def Image.of (image : List UInt8) : Image :=
  let h := BpvHeader.read image
  ⟨image, h.flags, h.profileId, h.vocabCount, h.addedCount, h.pairSlotsLog2, h.sections.map fun s => (s.off, s.size),
    wordAt 8 image 128⟩

theorem profile_known {id : Nat} : (PROFILE_NAMES.map (·.1)).contains id = true ↔ id < 2 := by
  rw [List.contains_iff_mem]
  simp [PROFILE_NAMES]
  omega

theorem parse_eq_ok {img : Image} : Image.parse image = .ok img ↔ img = Image.of image ∧
    HEADER_SIZE ≤ image.length ∧ (BpvHeader.read image).magic = MAGIC ∧
      (BpvHeader.read image).formatVersion = FORMAT_VERSION ∧ (BpvHeader.read image).flags < 2 ∧
      (BpvHeader.read image).profileId < 2 ∧ wordAt 4 image 28 = 0 ∧ 0 < (BpvHeader.read image).vocabCount ∧
      (BpvHeader.read image).pairSlotsLog2 ≤ 40 ∧ (image.drop 136).take 56 = List.replicate 56 0 ∧
      InOrder image.length HEADER_SIZE ((BpvHeader.read image).sections.map fun s => (s.off, s.size)) ∧
      (BpvHeader.read image).tokenOffsets.off = HEADER_SIZE := by
  have hsections : (List.range 6).map (fun i => (wordAt 8 image (32 + 16 * i), wordAt 8 image (40 + 16 * i))) =
      (BpvHeader.read image).sections.map fun s => (s.off, s.size) := rfl
  unfold Image.parse
  dsimp only
  rw [hsections, check_bind, check_bind, check_bind, check_bind, check_bind, check_bind, check_bind, check_bind, check_bind,
    part_bind, check_bind, checkSections_eq_ok rfl, profile_known]
  simp only [decide_eq_true_eq, shiftRight_one_eq_zero]
  constructor
  · rintro ⟨hsize, hmagic, hversion, hflags, hprofile, hreserved, hcount, hlog2, hpadding, hsections, hfirst, himg⟩
    exact ⟨(Except.ok.inj himg).symm, hsize, hmagic, hversion, hflags, hprofile, hreserved, hcount, hlog2, hpadding,
      hsections, hfirst⟩
  · rintro ⟨rfl, hsize, hmagic, hversion, hflags, hprofile, hreserved, hcount, hlog2, hpadding, hsections, hfirst⟩
    exact ⟨hsize, hmagic, hversion, hflags, hprofile, hreserved, hcount, hlog2, hpadding, hsections, hfirst, rfl⟩

theorem readU32Array_eq_ok {buf : List UInt8} {n : Nat} (h : buf.length = 4 * n) : readU32Array buf = .ok (words 4 n buf) := by
  have hmod : buf.length % 4 = 0 := by omega
  have hdiv : buf.length / 4 = n := by omega
  unfold readU32Array
  rw [hdiv]
  exact check_bind.2 ⟨decide_eq_true hmod, rfl⟩

theorem readU64Array_eq_ok {buf : List UInt8} {n : Nat} (h : buf.length = 8 * n) : readU64Array buf = .ok (words 8 n buf) := by
  have hmod : buf.length % 8 = 0 := by omega
  have hdiv : buf.length / 8 = n := by omega
  unfold readU64Array
  rw [hdiv]
  exact check_bind.2 ⟨decide_eq_true hmod, rfl⟩

end Parse

section Pairs

variable {pairs : List Nat} {k : Nat}

/-- The walk ends at the key, if it meets no empty slot and no other slot of the key before. -/
theorem walk_eq_ok (hlen : pairs.length = 2 ^ k * 2) {key slot room probe steps t n : Nat} (hprobe : probe < 2 ^ k) :
    walk pairs (2 ^ k - 1) key slot room probe steps = .ok (t, n) ↔ ∃ j ≤ room, (probe + j) % 2 ^ k = t ∧ n = steps + j ∧
      keyOf pairs t = key ∧ ∀ i < j, keyOf pairs ((probe + i) % 2 ^ k) ≠ EMPTY_KEY ∧ keyOf pairs ((probe + i) % 2 ^ k) ≠ key := by
  have hhere : (probe + 0) % 2 ^ k = probe := Nat.mod_eq_of_lt hprobe
  have hkey := (getD_keyOf hlen hprobe).1
  induction room generalizing probe steps with
  | zero =>
    rw [walk, hkey]
    constructor
    · intro h
      split at h
      · next hfound =>
        cases h
        exact ⟨0, Nat.le_refl 0, hhere, rfl, hfound, fun i hi => absurd hi (Nat.not_lt_zero i)⟩
      · obtain ⟨-, h⟩ := check_bind.1 h
        cases h
    · rintro ⟨j, hj, ht, rfl, hfound, -⟩
      obtain rfl := Nat.le_zero.1 hj
      rw [hhere] at ht
      subst ht
      rw [if_pos hfound]
      rfl
  | succ room ih =>
    have hnext : (probe + 1) % 2 ^ k < 2 ^ k := Nat.mod_lt _ (Nat.two_pow_pos k)
    have hstep : ∀ i, ((probe + 1) % 2 ^ k + i) % 2 ^ k = (probe + (i + 1)) % 2 ^ k := by
      intro i
      rw [Nat.mod_add_mod, Nat.add_assoc, Nat.add_comm 1]
    rw [walk, hkey, Nat.and_two_pow_sub_one_eq_mod]
    constructor
    · intro h
      split at h
      · next hfound =>
        cases h
        exact ⟨0, Nat.zero_le _, hhere, rfl, hfound, fun i hi => absurd hi (Nat.not_lt_zero i)⟩
      · next hother =>
        obtain ⟨hfull, h⟩ := check_bind.1 h
        have hfull : keyOf pairs probe ≠ EMPTY_KEY := of_decide_eq_true hfull
        obtain ⟨j, hj, ht, rfl, hfound, hbefore⟩ :=
          (ih hnext (Nat.mod_eq_of_lt hnext) (getD_keyOf hlen hnext).1).1 h
        refine ⟨j + 1, Nat.succ_le_succ hj, (hstep j).symm.trans ht, by omega, hfound, fun i hi => ?_⟩
        cases i with
        | zero =>
          rw [hhere]
          exact ⟨hfull, hother⟩
        | succ i =>
          rw [← hstep]
          exact hbefore i (Nat.lt_of_succ_lt_succ hi)
    · rintro ⟨j, hj, ht, rfl, hfound, hbefore⟩
      cases j with
      | zero =>
        rw [hhere] at ht
        subst ht
        rw [if_pos hfound]
        rfl
      | succ j =>
        obtain ⟨hfull, hother⟩ := hbefore 0 (Nat.succ_pos j)
        rw [hhere] at hfull hother
        rw [if_neg hother]
        refine check_bind.2 ⟨decide_eq_true hfull, ?_⟩
        apply (ih hnext (Nat.mod_eq_of_lt hnext) (getD_keyOf hlen hnext).1).2
        refine ⟨j, Nat.le_of_succ_le_succ hj, (hstep j).trans ht, by omega, hfound, fun i hi => ?_⟩
        rw [hstep]
        exact hbefore (i + 1) (Nat.succ_lt_succ hi)

variable {c : Contents}

/-- The merge of an occupied slot: its ids are ids, and its bytes are those of the two tokens. -/
structure Joined (c : Contents) (t : Nat) : Prop where
  left : keyOf c.pairs t >>> 32 < c.vocabCount
  right : keyOf c.pairs t % 2 ^ 32 < c.vocabCount
  merged : valueOf c.pairs t % 2 ^ 32 < c.vocabCount
  bytes : spanOf c.offsets c.blob (keyOf c.pairs t >>> 32) ++ spanOf c.offsets c.blob (keyOf c.pairs t % 2 ^ 32) =
    spanOf c.offsets c.blob (valueOf c.pairs t % 2 ^ 32)

/-- The key of a slot is met there within so many steps. -/
def Within (c : Contents) (t n : Nat) : Prop :=
  ∃ j < 2 ^ c.slotsLog2, j < n ∧ (fmix64 (keyOf c.pairs t) % 2 ^ c.slotsLog2 + j) % 2 ^ c.slotsLog2 = t ∧
    ∀ i < j, keyOf c.pairs ((fmix64 (keyOf c.pairs t) % 2 ^ c.slotsLog2 + i) % 2 ^ c.slotsLog2) ≠ EMPTY_KEY ∧
      keyOf c.pairs ((fmix64 (keyOf c.pairs t) % 2 ^ c.slotsLog2 + i) % 2 ^ c.slotsLog2) ≠ keyOf c.pairs t

/-- The ranks in the first slots. -/
def ranksBelow (c : Contents) (n : Nat) : List Nat :=
  ((List.range n).filter fun t => keyOf c.pairs t ≠ EMPTY_KEY).map fun t => valueOf c.pairs t >>> 32

theorem ranksBelow_succ (c : Contents) (n : Nat) : ranksBelow c (n + 1) =
    if keyOf c.pairs n = EMPTY_KEY then ranksBelow c n else ranksBelow c n ++ [valueOf c.pairs n >>> 32] := by
  unfold ranksBelow
  rw [List.range_succ, List.filter_append, List.map_append]
  split
  · next h => simp [h]
  · next h => simp [h]

theorem length_ranksBelow (c : Contents) (n : Nat) : (ranksBelow c n).length = occupiedBelow (keyOf c.pairs) n := by
  unfold ranksBelow
  rw [List.length_map, ← List.countP_eq_length_filter]
  rfl

/-- What the loop over the slots knows behind the first `n` of them. -/
structure Looped (c : Contents) (n : Nat) (f : PairFacts) : Prop where
  occupied : f.occupied = occupiedBelow (keyOf c.pairs) n
  ranks : f.ranks = (ranksBelow c n).reverse
  distinct : (ranksBelow c n).Nodup
  merges : ∀ t < n, keyOf c.pairs t ≠ EMPTY_KEY → Joined c t ∧ Within c t f.maxProbe

/-- One slot. -/
theorem checkSlot_eq_ok (hlen : c.pairs.length = 2 ^ c.slotsLog2 * 2) {t : Nat} (ht : t < 2 ^ c.slotsLog2) {f f' : PairFacts} :
    checkSlot c.vocabCount (spanOf c.offsets c.blob) c.pairs (2 ^ c.slotsLog2) f t = .ok f' ↔
      (keyOf c.pairs t = EMPTY_KEY ∧ f' = f) ∨
      (keyOf c.pairs t ≠ EMPTY_KEY ∧ Joined c t ∧ valueOf c.pairs t >>> 32 ∉ f.ranks ∧ ∃ j < 2 ^ c.slotsLog2,
        (fmix64 (keyOf c.pairs t) % 2 ^ c.slotsLog2 + j) % 2 ^ c.slotsLog2 = t ∧
        (∀ i < j, keyOf c.pairs ((fmix64 (keyOf c.pairs t) % 2 ^ c.slotsLog2 + i) % 2 ^ c.slotsLog2) ≠ EMPTY_KEY ∧
          keyOf c.pairs ((fmix64 (keyOf c.pairs t) % 2 ^ c.slotsLog2 + i) % 2 ^ c.slotsLog2) ≠ keyOf c.pairs t) ∧
        f' = ⟨f.occupied + 1, valueOf c.pairs t >>> 32 :: f.ranks, f.totalProbes + (1 + j), max f.maxProbe (1 + j)⟩) := by
  have hpos : 0 < 2 ^ c.slotsLog2 := Nat.two_pow_pos _
  have hhash : fmix64 (keyOf c.pairs t) % 2 ^ c.slotsLog2 < 2 ^ c.slotsLog2 := Nat.mod_lt _ hpos
  obtain ⟨hkey, hvalue⟩ := getD_keyOf hlen ht
  unfold checkSlot
  dsimp only
  rw [hkey, hvalue, Nat.and_two_pow_sub_one_eq_mod]
  by_cases hempty : keyOf c.pairs t = EMPTY_KEY
  · rw [if_pos hempty]
    constructor
    · rintro ⟨⟩
      exact .inl ⟨hempty, rfl⟩
    · rintro (⟨-, rfl⟩ | ⟨hfull, -⟩)
      · rfl
      · exact absurd hempty hfull
  · rw [if_neg hempty, check_bind, check_bind, check_bind, check_bind]
    simp only [Bool.and_eq_true, decide_eq_true_eq, Bool.not_eq_true', ← Bool.not_eq_true, List.contains_iff_mem]
    constructor
    · rintro ⟨⟨hleft, hright⟩, hmerged, hbytes, hrank, h⟩
      obtain ⟨⟨probe, steps⟩, hwalk, h⟩ := bind_eq_ok.1 h
      obtain ⟨hhome, h⟩ := check_bind.1 h
      have hhome : probe = t := of_decide_eq_true hhome
      subst hhome
      obtain ⟨j, hj, hprobe, rfl, -, hbefore⟩ := (walk_eq_ok hlen hhash).1 hwalk
      cases h
      exact .inr ⟨hempty, ⟨hleft, hright, hmerged, hbytes⟩, hrank, j, by omega, hprobe, hbefore, rfl⟩
    · rintro (⟨hfree, -⟩ | ⟨-, hmerges, hrank, j, hj, hprobe, hbefore, rfl⟩)
      · exact absurd hfree hempty
      · refine ⟨⟨hmerges.left, hmerges.right⟩, hmerges.merged, hmerges.bytes, hrank, ?_⟩
        refine bind_eq_ok.2 ⟨(t, 1 + j), (walk_eq_ok hlen hhash).2 ⟨j, by omega, hprobe, rfl, rfl, hbefore⟩, ?_⟩
        exact check_bind.2 ⟨decide_eq_true rfl, rfl⟩

/-- What the loop knows of the slots it went over. -/
theorem slots_looped (hlen : c.pairs.length = 2 ^ c.slotsLog2 * 2) {n : Nat} (hn : n ≤ 2 ^ c.slotsLog2) {f : PairFacts}
    (h : (List.range n).foldlM (checkSlot c.vocabCount (spanOf c.offsets c.blob) c.pairs (2 ^ c.slotsLog2)) ⟨0, [], 0, 0⟩ =
      .ok f) : Looped c n f := by
  induction n generalizing f with
  | zero =>
    cases h
    exact ⟨rfl, rfl, .nil, fun t ht => absurd ht (Nat.not_lt_zero t)⟩
  | succ n ih =>
    rw [foldlM_range_succ] at h
    obtain ⟨g, hg, h⟩ := bind_eq_ok.1 h
    have hl := ih (Nat.le_of_succ_le hn) hg
    rcases (checkSlot_eq_ok hlen hn).1 h with ⟨hempty, rfl⟩ | ⟨hfull, hmerges, hrank, j, hj, hprobe, hbefore, rfl⟩
    · have hsucc := occupiedBelow_succ (keyOf c.pairs) n
      rw [if_neg (not_not.2 (show keyOf c.pairs n = BPV_PAIR_EMPTY from hempty))] at hsucc
      have hranks := ranksBelow_succ c n
      rw [if_pos hempty] at hranks
      refine ⟨by rw [hsucc, hl.occupied, Nat.add_zero], by rw [hranks, hl.ranks], by rw [hranks]; exact hl.distinct, fun t ht hne => ?_⟩
      rcases Nat.lt_succ_iff_lt_or_eq.1 ht with hlt | rfl
      · exact hl.merges t hlt hne
      · exact absurd hempty hne
    · have hsucc := occupiedBelow_succ (keyOf c.pairs) n
      rw [if_pos (show keyOf c.pairs n ≠ BPV_PAIR_EMPTY from hfull)] at hsucc
      have hranks := ranksBelow_succ c n
      rw [if_neg hfull] at hranks
      rw [hl.ranks, List.mem_reverse] at hrank
      constructor
      · rw [hsucc, hl.occupied]
      · rw [hranks, List.reverse_append, hl.ranks]
        rfl
      · rw [hranks, List.nodup_append]
        refine ⟨hl.distinct, List.nodup_singleton _, ?_⟩
        rintro rank hmem rank' hmem' rfl
        exact hrank (List.mem_singleton.1 hmem' ▸ hmem)
      · intro t ht hne
        rcases Nat.lt_succ_iff_lt_or_eq.1 ht with hlt | rfl
        · obtain ⟨hm, i, hi, hlt', hrest⟩ := hl.merges t hlt hne
          exact ⟨hm, i, hi, Nat.lt_of_lt_of_le hlt' (Nat.le_max_left _ _), hrest⟩
        · exact ⟨hmerges, j, hj, Nat.lt_of_lt_of_le (by omega) (Nat.le_max_right _ _), hprobe, hbefore⟩

/-- The loop goes over slots that are fine. -/
theorem slots_ok (hlen : c.pairs.length = 2 ^ c.slotsLog2 * 2) {n : Nat} (hn : n ≤ 2 ^ c.slotsLog2)
    (hmerges : ∀ t < n, keyOf c.pairs t ≠ EMPTY_KEY → Joined c t ∧ Within c t (2 ^ c.slotsLog2))
    (hdistinct : (ranksBelow c n).Nodup) :
    ∃ f, (List.range n).foldlM (checkSlot c.vocabCount (spanOf c.offsets c.blob) c.pairs (2 ^ c.slotsLog2)) ⟨0, [], 0, 0⟩ =
      .ok f := by
  induction n with
  | zero => exact ⟨_, rfl⟩
  | succ n ih =>
    have hranks := ranksBelow_succ c n
    by_cases hempty : keyOf c.pairs n = EMPTY_KEY
    · rw [if_pos hempty] at hranks
      obtain ⟨f, hf⟩ := ih (Nat.le_of_succ_le hn) (fun t ht => hmerges t (Nat.lt_succ_of_lt ht)) (hranks ▸ hdistinct)
      refine ⟨f, ?_⟩
      rw [foldlM_range_succ]
      exact bind_eq_ok.2 ⟨f, hf, (checkSlot_eq_ok hlen hn).2 (.inl ⟨hempty, rfl⟩)⟩
    · rw [if_neg hempty] at hranks
      rw [hranks, List.nodup_append] at hdistinct
      obtain ⟨hdistinct, -, hnew⟩ := hdistinct
      obtain ⟨f, hf⟩ := ih (Nat.le_of_succ_le hn) (fun t ht => hmerges t (Nat.lt_succ_of_lt ht)) hdistinct
      have hl := slots_looped hlen (Nat.le_of_succ_le hn) hf
      obtain ⟨hm, j, hj, -, hprobe, hbefore⟩ := hmerges n (Nat.lt_succ_self n) hempty
      have hrank : valueOf c.pairs n >>> 32 ∉ f.ranks := by
        rw [hl.ranks, List.mem_reverse]
        exact fun hmem => hnew _ hmem _ (List.mem_singleton_self _) rfl
      refine ⟨⟨f.occupied + 1, valueOf c.pairs n >>> 32 :: f.ranks, f.totalProbes + (1 + j), max f.maxProbe (1 + j)⟩, ?_⟩
      rw [foldlM_range_succ]
      exact bind_eq_ok.2 ⟨f, hf, (checkSlot_eq_ok hlen hn).2 (.inr ⟨hempty, hm, hrank, j, hj, hprobe, hbefore, rfl⟩)⟩

/-- The table of pairs as the inspector wants it. -/
structure Paired (c : Contents) : Prop where
  merges : ∀ t < 2 ^ c.slotsLog2, keyOf c.pairs t ≠ EMPTY_KEY → Joined c t ∧ Within c t (2 ^ c.slotsLog2)
  distinct : (ranksBelow c (2 ^ c.slotsLog2)).Nodup
  some : 0 < occupiedBelow (keyOf c.pairs) (2 ^ c.slotsLog2)
  load : 20 * occupiedBelow (keyOf c.pairs) (2 ^ c.slotsLog2) ≤ 13 * 2 ^ c.slotsLog2
  ranks : ∀ rank, rank ∈ ranksBelow c (2 ^ c.slotsLog2) ↔ rank < occupiedBelow (keyOf c.pairs) (2 ^ c.slotsLog2)

theorem ranks_checked {ranks : List Nat} {n : Nat} :
    (((List.range n).all fun rank => ranks.contains rank) && ranks.all (· < n)) = true ↔ ∀ rank, rank ∈ ranks ↔ rank < n := by
  rw [Bool.and_eq_true, List.all_eq_true, List.all_eq_true]
  simp only [List.contains_iff_mem, decide_eq_true_eq, List.mem_range]
  constructor
  · rintro ⟨hall, hbelow⟩ rank
    exact ⟨hbelow rank, hall rank⟩
  · intro h
    exact ⟨fun rank hrank => (h rank).2 hrank, fun rank hrank => (h rank).1 hrank⟩

end Pairs

section Image

variable {image : List UInt8}

theorem pairs_length (image : List UInt8) :
    (Contents.read image).pairs.length = 2 ^ (Contents.read image).slotsLog2 * 2 := by
  show (words 8 _ _).length = _
  rw [length_words, BpvHeader.slots, Nat.one_shiftLeft]
  rfl

/-- The checks of the table of pairs pass exactly if it is as it should be, and report what is in it. -/
theorem checkPairs_eq_ok (hsize : ((BpvHeader.read image).pairTable.bytes image).length =
      (BpvHeader.read image).pairTable.size) :
    (∀ f, checkPairs (Image.of image) (spanOf (Contents.read image).offsets (Contents.read image).blob) = .ok f →
      (BpvHeader.read image).pairTable.size = 16 * (BpvHeader.read image).slots ∧ Paired (.read image) ∧
        Looped (.read image) (2 ^ (Contents.read image).slotsLog2) f) ∧
    ((BpvHeader.read image).pairTable.size = 16 * (BpvHeader.read image).slots → Paired (.read image) →
      ∃ f, checkPairs (Image.of image) (spanOf (Contents.read image).offsets (Contents.read image).blob) = .ok f) := by
  have hlen := pairs_length image
  have hslots : 1 <<< (Image.of image).pairSlotsLog2 = 2 ^ (Contents.read image).slotsLog2 := Nat.one_shiftLeft _
  have hcount : (Image.of image).vocabCount = (Contents.read image).vocabCount := (Contents.read_vocabCount image).symm
  have hraw : (Image.of image).sectionBytes 2 = (BpvHeader.read image).pairTable.bytes image := rfl
  have hall : (BpvHeader.read image).slots = 2 ^ (Contents.read image).slotsLog2 := hslots
  have hread : ((BpvHeader.read image).pairTable.bytes image).length = 2 ^ (Contents.read image).slotsLog2 * 16 →
      readU64Array ((BpvHeader.read image).pairTable.bytes image) = .ok (Contents.read image).pairs := by
    intro hlen
    exact readU64Array_eq_ok (by rw [hlen, hall]; omega)
  unfold checkPairs
  rw [hraw, hslots, hcount]
  constructor
  · intro f h
    obtain ⟨hbytes, h⟩ := check_bind.1 h
    have hbytes := of_decide_eq_true hbytes
    rw [show PAIR_SLOT_BYTES = 16 from rfl] at hbytes
    obtain ⟨pairs, hpairs, h⟩ := bind_eq_ok.1 h
    rw [hread hbytes] at hpairs
    cases hpairs
    obtain ⟨g, hg, h⟩ := bind_eq_ok.1 h
    obtain ⟨hsome, h⟩ := check_bind.1 h
    obtain ⟨hload, h⟩ := check_bind.1 h
    obtain ⟨hranks, h⟩ := check_bind.1 h
    cases h
    have hl := slots_looped hlen (Nat.le_refl _) hg
    have hsome := of_decide_eq_true hsome
    have hload := of_decide_eq_true hload
    rw [hl.occupied] at hsome hload
    refine ⟨by omega, ⟨fun t ht hne => ?_, hl.distinct, hsome, hload, fun rank => ?_⟩, hl⟩
    · obtain ⟨hm, j, hj, -, hrest⟩ := hl.merges t ht hne
      exact ⟨hm, j, hj, hj, hrest⟩
    · rw [← hl.occupied, ← ranks_checked.1 hranks rank, hl.ranks, List.mem_reverse]
  · intro hbytes hp
    have hbytes : ((BpvHeader.read image).pairTable.bytes image).length = 2 ^ (Contents.read image).slotsLog2 * 16 := by
      omega
    obtain ⟨f, hf⟩ := slots_ok hlen (Nat.le_refl _) hp.merges hp.distinct
    have hl := slots_looped hlen (Nat.le_refl _) hf
    refine ⟨f, check_bind.2 ⟨decide_eq_true hbytes, bind_eq_ok.2 ⟨_, hread hbytes, bind_eq_ok.2 ⟨f, hf, ?_⟩⟩⟩⟩
    have hsome := hp.some
    have hload := hp.load
    rw [← hl.occupied] at hsome hload
    refine check_bind.2 ⟨decide_eq_true hsome, check_bind.2 ⟨decide_eq_true hload, check_bind.2 ⟨?_, rfl⟩⟩⟩
    rw [ranks_checked]
    intro rank
    rw [hl.ranks, List.mem_reverse, hp.ranks, hl.occupied]

/-- The checks of the token table. -/
theorem checkTokens_eq_ok (hsize : ((BpvHeader.read image).tokenOffsets.bytes image).length =
      (BpvHeader.read image).tokenOffsets.size) {r : List Nat × List UInt8} :
    checkTokens (Image.of image) = .ok r ↔ r = ((Contents.read image).offsets, (Contents.read image).blob) ∧
      (BpvHeader.read image).tokenOffsets.size = 4 * ((BpvHeader.read image).vocabCount + 1) ∧
      offsetOf (Contents.read image).offsets 0 = 0 ∧
      (∀ i < (Contents.read image).vocabCount, offsetOf (Contents.read image).offsets i ≤ offsetOf (Contents.read image).offsets (i + 1)) ∧
      offsetOf (Contents.read image).offsets (Contents.read image).vocabCount = (Contents.read image).blob.length := by
  have hcount : (Image.of image).vocabCount = (Contents.read image).vocabCount := (Contents.read_vocabCount image).symm
  have hraw : (Image.of image).sectionBytes 0 = (BpvHeader.read image).tokenOffsets.bytes image := rfl
  have hblob : (Image.of image).sectionBytes 1 = (Contents.read image).blob := rfl
  unfold checkTokens
  rw [hraw, hblob, hcount, ← Contents.read_vocabCount image]
  dsimp only
  rw [hsize, check_bind, decide_eq_true_eq]
  have hread : (BpvHeader.read image).tokenOffsets.size = 4 * ((Contents.read image).vocabCount + 1) →
      readU32Array ((BpvHeader.read image).tokenOffsets.bytes image) = .ok (Contents.read image).offsets := by
    intro hlen
    rw [readU32Array_eq_ok (hsize.trans hlen), Contents.read_vocabCount]
    rfl
  constructor
  · rintro ⟨hlen, h⟩
    obtain ⟨offsets, hoffsets, h⟩ := bind_eq_ok.1 h
    rw [hread hlen] at hoffsets
    cases hoffsets
    obtain ⟨hzero, h⟩ := check_bind.1 h
    obtain ⟨hmono, h⟩ := part_bind.1 h
    obtain ⟨hlast, h⟩ := check_bind.1 h
    cases h
    refine ⟨rfl, hlen, of_decide_eq_true hzero, fun i hi => ?_, of_decide_eq_true hlast⟩
    exact of_decide_eq_true (check_eq_ok.1 (forM_eq_ok.1 hmono i (List.mem_range.2 hi)))
  · rintro ⟨rfl, hlen, hzero, hmono, hlast⟩
    refine ⟨hlen, bind_eq_ok.2 ⟨_, hread hlen, check_bind.2 ⟨decide_eq_true hzero, part_bind.2 ⟨?_, ?_⟩⟩⟩⟩
    · exact forM_eq_ok.2 fun i hi => check_eq_ok.2 (decide_eq_true (hmono i (List.mem_range.1 hi)))
    · exact check_bind.2 ⟨decide_eq_true hlast, rfl⟩

/-- The checks of the tokens of bytes. -/
theorem checkByteIds_eq_ok (hsize : ((BpvHeader.read image).byteToId.bytes image).length =
      (BpvHeader.read image).byteToId.size) {u : Unit} :
    checkByteIds (Image.of image) (spanOf (Contents.read image).offsets (Contents.read image).blob) = .ok u ↔
      (BpvHeader.read image).byteToId.size = 1024 ∧
      (∀ b < 256, (Contents.read image).byteIds[b]?.getD 0 < (Contents.read image).vocabCount ∧
        spanOf (Contents.read image).offsets (Contents.read image).blob ((Contents.read image).byteIds[b]?.getD 0) =
          [UInt8.ofNat b]) ∧ (Contents.read image).byteIds.dedup.length = 256 := by
  have hcount : (Image.of image).vocabCount = (Contents.read image).vocabCount := (Contents.read_vocabCount image).symm
  have hraw : (Image.of image).sectionBytes 3 = (BpvHeader.read image).byteToId.bytes image := rfl
  have hread : (BpvHeader.read image).byteToId.size = 1024 →
      readU32Array ((BpvHeader.read image).byteToId.bytes image) = .ok (Contents.read image).byteIds := by
    intro hlen
    exact readU32Array_eq_ok (hsize.trans hlen)
  unfold checkByteIds
  rw [hraw, hcount]
  dsimp only
  rw [hsize, check_bind, decide_eq_true_eq, and_congr_right_iff]
  intro hlen
  rw [hread hlen, ok_bind, part_bind, forM_eq_ok, check_eq_ok]
  simp only [check_bind, check_eq_ok, decide_eq_true_eq, List.mem_range]

end Image

end Bytepair.Dump
