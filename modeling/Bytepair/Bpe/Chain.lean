import Bytepair.Bpe.Model
import Bytepair.Vocab.Lookup
import Bytepair.Support.Greedy
import Mathlib.Algebra.Group.Int.Defs

/-!
# The linked list of the long path

`Chain stop nd L xs`: the nodes that are linked are those at the positions `L`, in increasing
order, and hold the ids `xs`; the link of the last one is `stop`. Unlinking a node merges two
neighbours of `xs`, and the walk at the end reads `xs` off. A link is an `int32_t`: of a
longer pretoken the first `2 ^ 31` bytes are linked, and node `2 ^ 31 - 1` is the last.
-/

namespace Bytepair
open Support

/-- A link to the `k`-th of the linked nodes. -/
def linkTo (stop : Int) (L : List Nat) (k : Nat) : Int :=
  match L[k]? with
  | some i => i
  | none => stop

/-- The links of the node that is `k`-th of the linked ones. -/
def after (stop : Int) (L : List Nat) (k : Nat) : Int := linkTo stop L (k + 1)

def before (L : List Nat) : Nat → Int
  | 0 => -1
  | k + 1 => linkTo (-1) L k

attribute [grind =] linkTo

structure Chain (stop : Int) (nd : List Node) (L xs : List Nat) : Prop where
  stop_neg : stop < 0
  small : ∀ i ∈ L, i < 2 ^ 31
  sorted : L.Pairwise (· < ·)
  head : L[0]? = some 0
  length : xs.length = L.length
  node : ∀ k i, L[k]? = some i → ∃ x g, xs[k]? = some x ∧
    nd[i]? = some (Node.mk x (before L k) (after stop L k) g)
  dead : ∀ i, i ∉ L → i < 2 ^ 32 → ∀ x, nd[i]? = some x → x.next < 0

section Links

variable {stop : Int} {nd : List Node} {L xs : List Nat}

theorem int32_of_lt {i : Nat} (h : i < 2 ^ 31) : int32 i = i := by
  unfold int32
  rw [Int.bmod_eq_emod_of_lt]
  all_goals omega

theorem uint32_of_lt {i : Nat} (h : i < 2 ^ 31) : uint32 i = i := Nat.mod_eq_of_lt (by omega)

theorem uint32_lt (i : Nat) : uint32 i < 2 ^ 32 := Nat.mod_lt _ (by decide)

/-- Positions grow along the list. -/
theorem Chain.lt_iff (h : Chain stop nd L xs) {k m i j : Nat} (hi : L[k]? = some i) (hj : L[m]? = some j) :
    i < j ↔ k < m := by
  have mono : ∀ {k m i j : Nat}, L[k]? = some i → L[m]? = some j → k < m → i < j := by
    intro k m i j hi hj hkm
    obtain ⟨hk, rfl⟩ := List.getElem?_eq_some_iff.1 hi
    obtain ⟨hm, rfl⟩ := List.getElem?_eq_some_iff.1 hj
    exact List.pairwise_iff_getElem.1 h.sorted k m hk hm hkm
  refine ⟨fun hij => ?_, mono hi hj⟩
  by_contra hkm
  rcases Nat.lt_or_eq_of_le (Nat.le_of_not_lt hkm) with hlt | rfl
  · have := mono hj hi hlt
    omega
  · rw [hi] at hj
    cases hj
    omega

/-- A node stands at one place of the chain. -/
theorem Chain.eq_iff (h : Chain stop nd L xs) {k m i j : Nat} (hi : L[k]? = some i) (hj : L[m]? = some j) :
    i = j ↔ k = m := by
  have h1 := h.lt_iff hi hj
  have h2 := h.lt_iff hj hi
  omega

theorem linkTo_of_some {k i : Nat} (h : L[k]? = some i) : linkTo stop L k = i := by
  rw [linkTo, h]

theorem linkTo_nonneg (hstop : stop < 0) {k : Nat} :
    0 ≤ linkTo stop L k ↔ ∃ j, L[k]? = some j ∧ linkTo stop L k = j := by
  unfold linkTo
  cases L[k]? with
  | none => simpa using hstop
  | some j => simp

/-- A link forward that is not negative goes to the next node. -/
theorem after_nonneg (hstop : stop < 0) {k : Nat} :
    0 ≤ after stop L k ↔ ∃ j, L[k + 1]? = some j ∧ after stop L k = j := linkTo_nonneg hstop

/-- A link back that is not negative goes to the node before. -/
theorem before_nonneg {k : Nat} : 0 ≤ before L k ↔ ∃ m i, k = m + 1 ∧ L[m]? = some i ∧ before L k = i := by
  cases k with
  | zero => simp [before]
  | succ k =>
    simp only [before, linkTo_nonneg (show (-1 : Int) < 0 by decide)]
    constructor
    · rintro ⟨i, hi, heq⟩
      exact ⟨k, i, rfl, hi, heq⟩
    · rintro ⟨m, i, hkm, hi, heq⟩
      obtain rfl : k = m := by omega
      exact ⟨i, hi, heq⟩

end Links

section Unlink

variable {nd : List Node}

/-- What unlinking node `j` behind node `i` writes. -/
theorem unlink_spec {i j c : Nat} {x y : Node} (hx : nd[i]? = some x) (hy : nd[j]? = some y) (hij : i ≠ j)
    (hz : 0 ≤ y.next → ∃ z, nd[y.next.toNat]? = some z ∧ y.next.toNat ≠ i ∧ y.next.toNat ≠ j) :
    ∃ nd', unlink nd i j c = .ok nd' ∧ nd'.length = nd.length ∧
      nd'[i]? = some { x with id := c, gen := uint32 (x.gen + 1), next := y.next } ∧
      nd'[j]? = some { y with next := -1, prev := -1 } ∧
      (∀ z, 0 ≤ y.next → nd[y.next.toNat]? = some z →
        nd'[y.next.toNat]? = some { z with prev := int32 i }) ∧
      ∀ m, m ≠ i → m ≠ j → (0 ≤ y.next → m ≠ y.next.toNat) → nd'[m]? = nd[m]? := by
  have hi := (List.getElem?_eq_some_iff.1 hx).1
  have hj := (List.getElem?_eq_some_iff.1 hy).1
  unfold unlink setPrev
  rw [index_of_some hx, Run.ok_bind, index_of_some hy, Run.ok_bind, store_lt hi, Run.ok_bind]
  generalize hX : ({ x with id := c, gen := uint32 (x.gen + 1), next := y.next } : Node) = x'
  by_cases hnext : 0 ≤ y.next
  · obtain ⟨z, hz, hki, hkj⟩ := hz hnext
    generalize y.next.toNat = k at *
    have hk := (List.getElem?_eq_some_iff.1 hz).1
    have hz' : (nd.set i x')[k]? = some z := by rw [List.getElem?_set_ne (Ne.symm hki), hz]
    have hy' : ((nd.set i x').set k { z with prev := int32 i })[j]? = some y := by
      rw [List.getElem?_set_ne hkj, List.getElem?_set_ne hij, hy]
    rw [if_pos hnext, index_of_some hz', Run.ok_bind, store_lt (by simpa using hk), Run.ok_bind,
      index_of_some hy', Run.ok_bind, store_lt (by simpa using hj)]
    refine ⟨_, rfl, by simp, ?_, ?_, ?_, ?_⟩
    · rw [List.getElem?_set_ne (Ne.symm hij), List.getElem?_set_ne hki, List.getElem?_set_self hi]
    · rw [List.getElem?_set_self (by simpa using hj)]
    · intro w _ hw
      obtain rfl := Option.some.inj (hz.symm.trans hw)
      rw [List.getElem?_set_ne (Ne.symm hkj), List.getElem?_set_self (by simpa using hk)]
    · intro m hmi hmj hmk
      rw [List.getElem?_set_ne (Ne.symm hmj), List.getElem?_set_ne (Ne.symm (hmk hnext)),
        List.getElem?_set_ne (Ne.symm hmi)]
  · have hy' : (nd.set i x')[j]? = some y := by rw [List.getElem?_set_ne hij, hy]
    rw [if_neg hnext, Run.pure_eq, Run.ok_bind, index_of_some hy', Run.ok_bind, store_lt (by simpa using hj)]
    refine ⟨_, rfl, by simp, ?_, ?_, fun z h => absurd h hnext, ?_⟩
    · rw [List.getElem?_set_ne (Ne.symm hij), List.getElem?_set_self hi]
    · rw [List.getElem?_set_self (by simpa using hj)]
    · intro m hmi hmj _
      rw [List.getElem?_set_ne (Ne.symm hmj), List.getElem?_set_ne (Ne.symm hmi)]

end Unlink

section Merge

variable {stop : Int} {nd : List Node} {L xs : List Nat}

theorem getElem?_mergeAt {k c m : Nat} (hk : k + 1 < xs.length) :
    (mergeAt xs k c)[m]? = if m < k then xs[m]? else if m = k then some c else xs[m + 1]? := by
  unfold mergeAt
  have hlen : (xs.take k).length = k := by
    rw [List.length_take]
    omega
  rcases Nat.lt_trichotomy m k with hlt | rfl | hgt
  · rw [List.getElem?_append_left (by omega), List.getElem?_take_of_lt hlt, if_pos hlt]
  · rw [List.getElem?_append_right (by omega), hlen, Nat.sub_self, if_neg (Nat.lt_irrefl _), if_pos rfl]
    rfl
  · obtain ⟨d, rfl⟩ : ∃ d, m = k + 1 + d := ⟨m - k - 1, by omega⟩
    rw [List.getElem?_append_right (by omega), hlen, if_neg (by omega), if_neg (by omega),
      show k + 1 + d - k = d + 1 by omega, List.getElem?_cons_succ, List.getElem?_drop]
    exact congrArg (xs[·]?) (by omega)

/-- The links forward when a node is unlinked. -/
theorem after_eraseIdx (k m : Nat) :
    after stop (L.eraseIdx (k + 1)) m = if m < k then after stop L m else after stop L (m + 1) := by
  unfold after linkTo
  rw [List.getElem?_eraseIdx]
  by_cases hm : m < k
  · rw [if_pos hm, if_pos (by omega)]
  · rw [if_neg hm, if_neg (by omega)]

/-- The links back when a node is unlinked. -/
theorem before_eraseIdx {k i : Nat} (hi : L[k]? = some i) (m : Nat) :
    before (L.eraseIdx (k + 1)) m =
      if m ≤ k then before L m else if m = k + 1 then (i : Int) else before L (m + 1) := by
  cases m with
  | zero => rw [if_pos (Nat.zero_le k)]; rfl
  | succ m =>
    simp only [before, linkTo]
    rw [List.getElem?_eraseIdx]
    rcases Nat.lt_trichotomy m k with hlt | rfl | hgt
    · rw [if_pos (show m < k + 1 by omega), if_pos (show m + 1 ≤ k by omega)]
    · rw [if_pos (Nat.lt_succ_self m), if_neg (by omega), if_pos rfl, hi]
    · rw [if_neg (show ¬m < k + 1 by omega), if_neg (show ¬m + 1 ≤ k by omega), if_neg (by omega)]

/-- Unlinking the node behind the `k`-th merges the two. -/
theorem Chain.unlink (h : Chain stop nd L xs) {k i j c : Nat} (hi : L[k]? = some i) (hj : L[k + 1]? = some j) :
    ∃ nd', unlink nd i j c = .ok nd' ∧ nd'.length = nd.length ∧ Chain stop nd' (L.eraseIdx (k + 1)) (mergeAt xs k c) ∧
      ∀ m x, m ∈ L → m ≠ i → m ≠ j → nd[m]? = some x → ∃ x', nd'[m]? = some x' ∧ x'.id = x.id ∧ x'.gen = x.gen := by
  obtain ⟨x, g, hx, hndi⟩ := h.node k i hi
  obtain ⟨y, g', hy, hndj⟩ := h.node (k + 1) j hj
  have hij : i ≠ j := fun heq => by
    have := (h.eq_iff hi hj).1 heq
    omega
  have hnext : ∀ z, L[k + 2]? = some z → (after stop L (k + 1)).toNat = z := by
    intro z hz
    rw [after, linkTo_of_some hz, Int.toNat_natCast]
  obtain ⟨nd', hrun, hlen, hi', hj', hz', hother⟩ := unlink_spec (c := c) hndi hndj hij (by
    intro hnonneg
    obtain ⟨z, hz, -⟩ := (after_nonneg h.stop_neg).1 hnonneg
    obtain ⟨w, g'', -, hndz⟩ := h.node (k + 2) z hz
    dsimp only
    rw [hnext z hz]
    refine ⟨_, hndz, fun heq => ?_, fun heq => ?_⟩
    · have := (h.eq_iff hz hi).1 heq
      omega
    · have := (h.eq_iff hz hj).1 heq
      omega)
  dsimp only at hi' hj' hz' hother
  have hk : k + 1 < xs.length := by
    rw [h.length]
    exact (List.getElem?_eq_some_iff.1 hj).1
  -- what is not next to the two is as it was
  have hrest : ∀ m p, m ≠ k → m ≠ k + 1 → m ≠ k + 2 → L[m]? = some p → nd'[p]? = nd[p]? := by
    intro m p h₀ h₁ h₂ hp
    apply hother p
    · exact fun heq => h₀ ((h.eq_iff hp hi).1 heq)
    · exact fun heq => h₁ ((h.eq_iff hp hj).1 heq)
    · intro hnonneg heq
      obtain ⟨z, hz, -⟩ := (after_nonneg h.stop_neg).1 hnonneg
      rw [hnext z hz] at heq
      exact h₂ ((h.eq_iff hp hz).1 heq)
  refine ⟨nd', hrun, hlen, ⟨h.stop_neg, fun p hp => h.small p (List.mem_of_mem_eraseIdx hp), ?_, ?_, ?_, ?_, ?_⟩, ?_⟩
  · exact h.sorted.sublist (List.eraseIdx_sublist _ _)
  · rw [List.getElem?_eraseIdx_of_lt (Nat.succ_pos k)]
    exact h.head
  · have hL := (List.getElem?_eq_some_iff.1 hj).1
    have := length_mergeAt (c := c) hk
    rw [List.length_eraseIdx_of_lt hL]
    have := h.length
    omega
  · intro m p hp
    rw [after_eraseIdx, before_eraseIdx hi, getElem?_mergeAt hk]
    rw [List.getElem?_eraseIdx] at hp
    rcases Nat.lt_trichotomy m k with hlt | rfl | hgt
    · rw [if_pos (show m < k + 1 by omega)] at hp
      obtain ⟨w, g'', hw, hndp⟩ := h.node m p hp
      refine ⟨w, g'', by rw [if_pos hlt, hw], ?_⟩
      rw [hrest m p (by omega) (by omega) (by omega) hp, hndp, if_pos hlt, if_pos (by omega)]
    · rw [if_pos (Nat.lt_succ_self m), hi] at hp
      obtain rfl := Option.some.inj hp
      refine ⟨c, uint32 (g + 1), by rw [if_neg (Nat.lt_irrefl m), if_pos rfl], ?_⟩
      rw [if_neg (Nat.lt_irrefl m), if_pos (Nat.le_refl m)]
      exact hi'
    · rw [if_neg (show ¬m < k + 1 by omega)] at hp
      obtain ⟨w, g'', hw, hndp⟩ := h.node (m + 1) p hp
      refine ⟨w, g'', by rw [if_neg (by omega), if_neg (by omega), hw], ?_⟩
      rw [if_neg (show ¬m < k by omega), if_neg (show ¬m ≤ k by omega)]
      by_cases hm : m = k + 1
      · subst hm
        have hafter : after stop L (k + 1) = (p : Int) := linkTo_of_some hp
        have hset := hz' _ (by rw [hafter]; omega) (by rw [hnext p hp]; exact hndp)
        rw [hnext p hp] at hset
        rw [hset, if_pos rfl, int32_of_lt (h.small i (List.mem_of_getElem? hi))]
      · rw [if_neg hm, hrest (m + 1) p (by omega) (by omega) (by omega) hp, hndp]
  · intro p hp hlt w hw
    by_cases hpj : p = j
    · subst hpj
      rw [hj'] at hw
      obtain rfl := Option.some.inj hw
      show (-1 : Int) < 0
      decide
    · have hpL : p ∉ L := by
        intro hmem
        obtain ⟨m, hm⟩ := List.mem_iff_getElem?.1 hmem
        apply hp
        have hne : m ≠ k + 1 := fun heq => hpj ((h.eq_iff hm hj).2 heq)
        rcases Nat.lt_or_gt_of_ne hne with hlt | hgt
        · exact List.mem_of_getElem? (by rw [List.getElem?_eraseIdx_of_lt hlt]; exact hm)
        · obtain ⟨d, rfl⟩ : ∃ d, m = d + 1 := ⟨m - 1, by omega⟩
          apply List.mem_of_getElem? (i := d)
          rw [List.getElem?_eraseIdx_of_ge (by omega)]
          exact hm
      rw [hother p (fun heq => hpL (heq ▸ List.mem_of_getElem? hi)) hpj (fun hnonneg heq => ?_)] at hw
      · exact h.dead p hpL hlt w hw
      · obtain ⟨z, hz, -⟩ := (after_nonneg h.stop_neg).1 hnonneg
        rw [hnext z hz] at heq
        exact hpL (heq ▸ List.mem_of_getElem? hz)
  · intro m w hm hmi hmj hw
    by_cases hz : 0 ≤ after stop L (k + 1) ∧ m = (after stop L (k + 1)).toNat
    · obtain ⟨hnonneg, rfl⟩ := hz
      exact ⟨_, hz' w hnonneg hw, rfl, rfl⟩
    · refine ⟨w, ?_, rfl, rfl⟩
      rw [hother m hmi hmj fun hnonneg heq => hz ⟨hnonneg, heq⟩, hw]

end Merge

section Walk

variable {stop : Int} {nd : List Node} {L xs : List Nat}

/-- The walk reads the ids off. -/
theorem Chain.walk (h : Chain stop nd L xs) {n cap : Nat} (hn : xs.length ≤ n) (hcap : n ≤ cap) :
    loop (walkIds nd cap) (n + 1) (0, []) = .ok xs := by
  have hxs := h.length
  obtain ⟨ids, hrun, rfl⟩ := @loop_rule _ _ (walkIds nd cap)
    (fun s : Int × List Nat => s.2.length ≤ L.length ∧ s.2 = xs.take s.2.length ∧ s.1 = linkTo stop L s.2.length)
    (fun s : Int × List Nat => L.length - s.2.length) (fun ids => ids = xs)
    (by
      rintro ⟨i, ids⟩ ⟨hle, hids, hi⟩
      dsimp only at hle hids hi
      subst hi
      by_cases hlink : 0 ≤ linkTo stop L ids.length
      · obtain ⟨k, hL, hk⟩ := (linkTo_nonneg h.stop_neg).1 hlink
        obtain ⟨x, g, hx, hnd⟩ := h.node _ k hL
        have hlt := (List.getElem?_eq_some_iff.1 hL).1
        refine .inl ⟨(after stop L ids.length, ids ++ [x]), ?_, ⟨?_, ?_, ?_⟩, ?_⟩
        · simp only [walkIds, hk, Int.natCast_nonneg, if_true, Int.toNat_natCast, index_of_some hnd, Run.ok_bind,
            append_lt (show ids.length < cap by omega)]
          rfl
        · simp only [List.length_append, List.length_singleton]
          omega
        · obtain ⟨hlt', rfl⟩ := List.getElem?_eq_some_iff.1 hx
          rw [List.length_append, List.length_singleton, List.take_succ_eq_append_getElem hlt', ← hids]
        · simp only [List.length_append, List.length_singleton]
          rfl
        · simp only [List.length_append, List.length_singleton]
          omega
      · have hend : L.length ≤ ids.length := by
          by_contra hlt
          exact hlink ((linkTo_nonneg h.stop_neg).2 ⟨_, List.getElem?_eq_getElem (by omega),
            linkTo_of_some (List.getElem?_eq_getElem (by omega))⟩)
        refine .inr ⟨ids, by simp [walkIds, hlink], ?_⟩
        rw [hids, List.take_of_length_le (by omega)])
    (n + 1) (0, []) ⟨Nat.zero_le _, rfl, (linkTo_of_some h.head).symm⟩ (by dsimp only [List.length_nil]; omega)
  exact hrun

end Walk

section Init

variable {v : BpVocab}

/-- The bytes of a pretoken that get linked. -/
def linked (p : List UInt8) : List UInt8 := p.take (2 ^ 31)

theorem length_linked (p : List UInt8) : (linked p).length = min (2 ^ 31) p.length := List.length_take

theorem linked_of_le {p : List UInt8} (h : p.length ≤ 2 ^ 31) : linked p = p := List.take_of_length_le h

/-- The link of the last node: none, or that of a position that is no `int32_t`. -/
def lastLink (p : List UInt8) : Int := if p.length ≤ 2 ^ 31 then -1 else -2 ^ 31

/-- The link of a node to the next is negative at the last of the linked nodes. -/
theorem initNext {n i : Nat} (hi : i < min (2 ^ 31) n) :
    (if i + 1 < n then int32 (i + 1 : Nat) else -1) =
      after (if n ≤ 2 ^ 31 then -1 else -2 ^ 31) (List.range (min (2 ^ 31) n)) i := by
  unfold after linkTo
  by_cases hnext : i + 1 < min (2 ^ 31) n
  · rw [if_pos (by omega), int32_of_lt (by omega), List.getElem?_range hnext]
  · rw [List.getElem?_eq_none (by rw [List.length_range]; omega)]
    by_cases hlen : n ≤ 2 ^ 31
    · rw [if_neg (by omega), if_pos hlen]
    · obtain rfl : i = 2 ^ 31 - 1 := by omega
      rw [if_pos (by omega), if_neg hlen]
      rfl

theorem initPrev {n i : Nat} (hi : i < min (2 ^ 31) n) :
    int32 (int32 i - 1) = before (List.range (min (2 ^ 31) n)) i := by
  rw [int32_of_lt (show i < 2 ^ 31 by omega)]
  cases i with
  | zero => rfl
  | succ i =>
    have hpred : ((i + 1 : Nat) : Int) - 1 = (i : Nat) := by omega
    rw [hpred, int32_of_lt (by omega), before, linkTo_of_some (List.getElem?_range (by omega))]

/-- A node from `2 ^ 31` on has no link to a next one. -/
theorem initNext_neg {n i : Nat} (hn : i + 1 < n → i + 1 < 2 ^ 32) (hi : 2 ^ 31 ≤ i) :
    (if i + 1 < n then int32 (i + 1 : Nat) else -1) < 0 := by
  split
  · next hlt =>
    have := hn hlt
    unfold int32
    rw [Int.bmod_def]
    split <;> omega
  · decide

/-- Node `i` of a pretoken. -/
def nodeAt (v : BpVocab) (p : List UInt8) (i : Nat) : Node :=
  ⟨v.byteToken (p[i]?.getD 0), int32 (int32 i - 1), if i + 1 < p.length then int32 (i + 1 : Nat) else -1, 0⟩

/-- The nodes at the start, one for each byte. -/
theorem initNodes_eq (hbytes : v.byteId.length = 256) (p : List UInt8) :
    initNodes v p = .ok ((List.range p.length).map (nodeAt v p)) := by
  apply mapM_ok
  intro i hi
  have hb := (p[i]?.getD 0).toNat_lt
  rw [index_getD 0 (List.mem_range.1 hi), Run.ok_bind, index_getD 0 (by omega), Run.ok_bind]
  rfl

/-- Nodes that begin as those of a pretoken, and lead nowhere behind the linked ones. -/
theorem chain_init {p : List UInt8} (hpos : 0 < p.length) {nd : List Node}
    (hnode : ∀ i < (linked p).length, nd[i]? = some (nodeAt v p i))
    (hdead : ∀ i, (linked p).length ≤ i → i < 2 ^ 32 → ∀ x, nd[i]? = some x → x.next < 0) :
    Chain (lastLink p) nd (List.range (linked p).length) ((linked p).map v.byteToken) := by
  have hlinked := length_linked p
  refine ⟨?_, ?_, List.pairwise_lt_range, ?_, ?_, ?_, ?_⟩
  · unfold lastLink
    split <;> decide
  · intro i hi
    have := List.mem_range.1 hi
    omega
  · exact List.getElem?_range (by omega)
  · rw [List.length_map, List.length_range]
  · intro k i hi
    obtain ⟨hk, hki⟩ := List.getElem?_eq_some_iff.1 hi
    rw [List.getElem_range] at hki
    subst hki
    rw [List.length_range] at hk
    have hkp : k < p.length := by omega
    have hget : p[k]? = some (p[k]?.getD 0) := by
      rw [List.getElem?_eq_getElem hkp]
      rfl
    refine ⟨v.byteToken (p[k]?.getD 0), 0, ?_, ?_⟩
    · unfold linked
      rw [List.getElem?_map, List.getElem?_take_of_lt (by omega), hget]
      rfl
    · rw [hnode k hk, nodeAt, initNext (hlinked ▸ hk), initPrev (hlinked ▸ hk), hlinked]
      rfl
  · intro i hi hlow x hx
    rw [List.mem_range] at hi
    exact hdead i (Nat.le_of_not_lt hi) hlow x hx

/-- The nodes of a pretoken. -/
theorem initNodes_spec (hbytes : v.byteId.length = 256) {p : List UInt8} (hpos : 0 < p.length)
    (hlen : p.length ≤ 2 ^ 32) :
    ∃ nd, initNodes v p = .ok nd ∧ nd.length = p.length ∧ (∀ x ∈ nd, x.gen = 0) ∧
      Chain (lastLink p) nd (List.range (linked p).length) ((linked p).map v.byteToken) := by
  have hlinked := length_linked p
  refine ⟨_, initNodes_eq hbytes p, by simp, ?_, chain_init hpos ?_ ?_⟩
  · intro x hx
    obtain ⟨i, -, rfl⟩ := List.mem_map.1 hx
    rfl
  · intro i hi
    rw [List.getElem?_map, List.getElem?_range (by omega)]
    rfl
  · intro i hi hlow x hx
    rw [List.getElem?_map] at hx
    obtain ⟨k, hk, rfl⟩ := Option.map_eq_some_iff.1 hx
    obtain ⟨hki, rfl⟩ := List.getElem?_eq_some_iff.1 hk
    rw [List.length_range] at hki
    rw [List.getElem_range]
    exact initNext_neg (by omega) (by omega)

end Init

end Bytepair
