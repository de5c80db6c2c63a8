import Bytepair.Bpe.Chain
import Mathlib.Data.Prod.Lex

/-!
# The long path

The lazy heap of `merge_long`. `HeapAt` is what holds of the heap at the head of a round:
every pair of neighbours the table has is in the heap with its current rank, position and
generation, whatever else is in it. An entry that passes the tests of a round is then the
greedy choice (`longRound_spec`), and `mergeLongIn_spec` follows by the loop rule.
-/

namespace Bytepair
open Support Support.BinaryHeap

/-- What `heap_less` compares. -/
def heapKey (e : HeapEnt) : ℕ ×ₗ ℕ := toLex (e.rank, e.pos)

theorem heapLess_eq (a b : HeapEnt) : heapLess a b = decide (heapKey a < heapKey b) := by
  unfold heapLess heapKey
  rw [Bool.eq_iff_iff, decide_eq_true_eq, Prod.Lex.toLex_lt_toLex]
  by_cases h : a.rank = b.rank
  · simp [h]
  · simp [h]

theorem heapKey_le {a b : HeapEnt} (h : heapKey a ≤ heapKey b) :
    a.rank < b.rank ∨ a.rank = b.rank ∧ a.pos ≤ b.pos := by
  unfold heapKey at h
  rwa [Prod.Lex.toLex_le_toLex] at h

variable {v : BpVocab} {stop : Int} {nd : List Node} {L xs : List Nat}

/-- The entry is of some node. -/
def Inside (nd : List Node) (e : HeapEnt) : Prop := e.pos < nd.length ∧ e.pos < 2 ^ 32

/-- The heap at the head of a round. -/
structure HeapAt (v : BpVocab) (nd : List Node) (L : List Nat) (heap : List HeapEnt) : Prop where
  ordered : Ordered heapKey heap
  inside : ∀ e ∈ heap, Inside nd e
  covers : ∀ k i j x y r c, L[k]? = some i → L[k + 1]? = some j → nd[i]? = some x → nd[j]? = some y →
    v.rule x.id y.id = some (r, c) → ⟨r, i, x.gen⟩ ∈ heap

section Push

/-- Pushing a pair: it is in the heap, and what was in it still is. -/
theorem pushPair_spec (hv : v.Valid) {heapCap : Nat} {heap : List HeapEnt} (hord : Ordered heapKey heap)
    (hroom : heap.length < heapCap) {l r : Nat} {x y : Node} (hx : nd[l]? = some x) (hy : nd[r]? = some y)
    (gen : Nat) :
    ∃ heap', pushPair v heapCap nd heap l r gen = .ok heap' ∧ Ordered heapKey heap' ∧
      heap'.length ≤ heap.length + 1 ∧ (∀ e ∈ heap, e ∈ heap') ∧ (∀ e ∈ heap', e ∈ heap ∨ Inside nd e) ∧
      ∀ r c, v.rule x.id y.id = some (r, c) → ⟨r, uint32 l, gen⟩ ∈ heap' := by
  unfold pushPair
  rw [index_of_some hx, Run.ok_bind, index_of_some hy, Run.ok_bind, bpPairLookup_eq hv, Run.ok_bind]
  by_cases hempty : v.lookup x.id y.id = BPV_PAIR_EMPTY
  · refine ⟨heap, if_pos hempty, hord, Nat.le_succ _, fun e he => he, fun e he => .inl he, fun r c hrule => ?_⟩
    rw [lookup_eq_empty_iff.1 hempty] at hrule
    cases hrule
  · obtain ⟨heap', hpush, hperm, hord'⟩ := push_spec heapLess_eq hord hroom
      ⟨v.lookup x.id y.id >>> 32, uint32 l, gen⟩
    rw [if_neg hempty]
    refine ⟨heap', hpush, hord', ?_, fun e he => ?_, fun e he => ?_, fun r c hrule => ?_⟩
    · rw [hperm.length_eq, List.length_cons]
    · exact hperm.mem_iff.2 (List.mem_cons_of_mem _ he)
    · rcases List.mem_cons.1 (hperm.mem_iff.1 he) with rfl | he
      · exact .inr ⟨Nat.lt_of_le_of_lt (Nat.mod_le _ _) (List.getElem?_eq_some_iff.1 hx).1, uint32_lt l⟩
      · exact .inl he
    · rw [rule_of_lookup hempty] at hrule
      cases hrule
      exact hperm.mem_iff.2 List.mem_cons_self

/-- A push at a link, which may lead nowhere. -/
theorem pushLeft_spec (hv : v.Valid) (hc : Chain stop nd L xs) {heapCap : Nat} {heap : List HeapEnt}
    (hord : Ordered heapKey heap) (hroom : heap.length < heapCap) {k i : Nat} (hi : L[k]? = some i) :
    ∃ heap', pushLeft v heapCap nd heap i = .ok heap' ∧ Ordered heapKey heap' ∧
      heap'.length ≤ heap.length + 1 ∧ (∀ e ∈ heap, e ∈ heap') ∧
      (∀ e ∈ heap', e ∈ heap ∨ Inside nd e) ∧
      ∀ m l x y r c, k = m + 1 → L[m]? = some l → nd[l]? = some x → nd[i]? = some y →
        v.rule x.id y.id = some (r, c) → ⟨r, l, x.gen⟩ ∈ heap' := by
  obtain ⟨y, g, -, hndi⟩ := hc.node k i hi
  unfold pushLeft
  rw [index_of_some hndi, Run.ok_bind]
  by_cases hlink : 0 ≤ before L k
  · obtain ⟨m, l, rfl, hl, hbefore⟩ := before_nonneg.1 hlink
    obtain ⟨x, g', -, hndl⟩ := hc.node m l hl
    have hlt := hc.small l (List.mem_of_getElem? hl)
    obtain ⟨heap', hpush, hord', hlen, hkeep, hnew, hpair⟩ :=
      pushPair_spec hv hord hroom hndl hndi g'
    rw [uint32_of_lt hlt] at hpair
    refine ⟨heap', ?_, hord', hlen, hkeep, hnew, ?_⟩
    · simp only [hbefore, Int.natCast_nonneg, if_true, Int.toNat_natCast, index_of_some hndl, Run.ok_bind, hpush]
    · intro m' l' x' y' r c hm hl' hx' hy' hrule
      obtain rfl : m = m' := by omega
      rw [hl] at hl'
      cases hl'
      rw [hndl] at hx'
      rw [hndi] at hy'
      cases hx'
      cases hy'
      exact hpair r c hrule
  · refine ⟨heap, by simp only [if_neg hlink]; rfl, hord, Nat.le_succ _, fun e he => he, fun e he => .inl he, ?_⟩
    intro m l x y r c hk hl
    exact absurd (before_nonneg.2 ⟨m, l, hk, hl, by rw [hk, before, linkTo_of_some hl]⟩) hlink

theorem pushRight_spec (hv : v.Valid) (hc : Chain stop nd L xs) {heapCap : Nat} {heap : List HeapEnt}
    (hord : Ordered heapKey heap) (hroom : heap.length < heapCap) {k i : Nat} (hi : L[k]? = some i) :
    ∃ heap', pushRight v heapCap nd heap i = .ok heap' ∧ Ordered heapKey heap' ∧
      heap'.length ≤ heap.length + 1 ∧ (∀ e ∈ heap, e ∈ heap') ∧
      (∀ e ∈ heap', e ∈ heap ∨ Inside nd e) ∧
      ∀ j x y r c, L[k + 1]? = some j → nd[i]? = some x → nd[j]? = some y →
        v.rule x.id y.id = some (r, c) → ⟨r, i, x.gen⟩ ∈ heap' := by
  obtain ⟨x, g, -, hndi⟩ := hc.node k i hi
  have hlt := hc.small i (List.mem_of_getElem? hi)
  unfold pushRight
  rw [index_of_some hndi, Run.ok_bind]
  by_cases hlink : 0 ≤ after stop L k
  · obtain ⟨j, hj, hafter⟩ := (after_nonneg hc.stop_neg).1 hlink
    obtain ⟨y, g', -, hndj⟩ := hc.node (k + 1) j hj
    obtain ⟨heap', hpush, hord', hlen, hkeep, hnew, hpair⟩ :=
      pushPair_spec hv hord hroom hndi hndj g
    rw [uint32_of_lt hlt] at hpair
    refine ⟨heap', ?_, hord', hlen, hkeep, hnew, ?_⟩
    · simp only [hafter, Int.natCast_nonneg, if_true, Int.toNat_natCast, hpush]
    · intro j' x' y' r c hj' hx' hy' hrule
      rw [hj] at hj'
      cases hj'
      rw [hndi] at hx'
      rw [hndj] at hy'
      cases hx'
      cases hy'
      exact hpair r c hrule
  · refine ⟨heap, by simp only [if_neg hlink]; rfl, hord, Nat.le_succ _, fun e he => he, fun e he => .inl he, ?_⟩
    intro j x y r c hj
    exact absurd ((after_nonneg hc.stop_neg).2 ⟨j, hj, linkTo_of_some hj⟩) hlink

end Push

section Round

/-- A heap without its least entry still covers the list, if that entry is of no pair. -/
theorem HeapAt.drop {heap heap' : List HeapEnt} (hh : HeapAt v nd L heap) {e : HeapEnt} (hperm : heap.Perm (e :: heap'))
    (hord : Ordered heapKey heap')
    (hstale : ∀ k i j x y r c, L[k]? = some i → L[k + 1]? = some j → nd[i]? = some x → nd[j]? = some y →
      v.rule x.id y.id = some (r, c) → e ≠ ⟨r, i, x.gen⟩) : HeapAt v nd L heap' := by
  refine ⟨hord, fun e' he' => hh.inside e' (hperm.mem_iff.2 (List.mem_cons_of_mem _ he')), ?_⟩
  intro k i j x y r c hi hj hx hy hrule
  have hmem := hperm.mem_iff.1 (hh.covers k i j x y r c hi hj hx hy hrule)
  rcases List.mem_cons.1 hmem with heq | hmem
  · exact absurd heq.symm (hstale k i j x y r c hi hj hx hy hrule)
  · exact hmem

/-- An entry of a pair that is least in the heap is the greedy choice. -/
theorem HeapAt.best (hc : Chain stop nd L xs) {heap : List HeapEnt} (hh : HeapAt v nd L heap) {e : HeapEnt}
    (hleast : ∀ x ∈ heap, heapKey e ≤ heapKey x) {k j c : Nat} {x y : Node} (hi : L[k]? = some e.pos)
    (hj : L[k + 1]? = some j) (hx : nd[e.pos]? = some x) (hy : nd[j]? = some y)
    (hrule : v.rule x.id y.id = some (e.rank, c)) : best v.rule xs = some (e.rank, k, c) := by
  have hids : ∀ {m p : Nat} {z : Node}, L[m]? = some p → nd[p]? = some z → xs[m]? = some z.id := by
    intro m p z hp hz
    obtain ⟨w, g, hw, hnd⟩ := hc.node m p hp
    rw [hz] at hnd
    cases hnd
    exact hw
  refine best_iff.2 ⟨⟨x.id, y.id, hids hi hx, hids hj hy, hrule⟩, ?_⟩
  rintro m r c' ⟨a, b, ha, hb, hab⟩
  have hlt : m + 1 < L.length := by
    rw [← hc.length]
    exact (List.getElem?_eq_some_iff.1 hb).1
  have hp : L[m]? = some L[m] := List.getElem?_eq_getElem _
  have hq : L[m + 1]? = some L[m + 1] := List.getElem?_eq_getElem hlt
  obtain ⟨a', g, ha', hndp⟩ := hc.node m _ hp
  obtain ⟨b', g', hb', hndq⟩ := hc.node (m + 1) _ hq
  rw [ha] at ha'
  rw [hb] at hb'
  cases ha'
  cases hb'
  have hkey := heapKey_le (hleast _ (hh.covers m _ _ _ _ r c' hp hq hndp hndq hab))
  have horder := hc.lt_iff hp hi
  dsimp only at hkey
  omega

/-- The state of the merge loop, over a list that holds `xs`; the rank bounds the rounds to come. -/
def LongAt (v : BpVocab) (stop : Int) (n : Nat) (ids : List Nat) (s : List Node × List HeapEnt) (rank : Nat) : Prop :=
  ∃ L xs, Chain stop s.1 L xs ∧ HeapAt v s.1 L s.2 ∧ s.1.length = n ∧ s.2.length + L.length + 1 ≤ 2 * n ∧
    rank = s.2.length + 2 * L.length ∧ greedy v.rule xs = ids

/-- After a merge: the entries of the pairs it did not touch are still in the
heap, those of the pairs it made have been pushed. -/
theorem merged_covers {nd nd' : List Node} (hc : Chain stop nd L xs) {heap heap₁ heap₂ heap₃ : List HeapEnt}
    (hh : HeapAt v nd L heap) {e : HeapEnt} (hperm : heap.Perm (e :: heap₁)) {k j : Nat}
    (hi : L[k]? = some e.pos) (hj : L[k + 1]? = some j)
    (hkeep : ∀ m x, m ∈ L → m ≠ e.pos → m ≠ j → nd[m]? = some x →
      ∃ x', nd'[m]? = some x' ∧ x'.id = x.id ∧ x'.gen = x.gen)
    (hin₂ : ∀ e ∈ heap₁, e ∈ heap₂) (hin₃ : ∀ e ∈ heap₂, e ∈ heap₃)
    (hleft : ∀ m l x y r c, k = m + 1 → (L.eraseIdx (k + 1))[m]? = some l → nd'[l]? = some x →
      nd'[e.pos]? = some y → v.rule x.id y.id = some (r, c) → ⟨r, l, x.gen⟩ ∈ heap₂)
    (hright : ∀ j x y r c, (L.eraseIdx (k + 1))[k + 1]? = some j → nd'[e.pos]? = some x → nd'[j]? = some y →
      v.rule x.id y.id = some (r, c) → ⟨r, e.pos, x.gen⟩ ∈ heap₃) :
    ∀ m p q x y r c, (L.eraseIdx (k + 1))[m]? = some p → (L.eraseIdx (k + 1))[m + 1]? = some q →
      nd'[p]? = some x → nd'[q]? = some y → v.rule x.id y.id = some (r, c) → ⟨r, p, x.gen⟩ ∈ heap₃ := by
  intro m p q x y r c hp hq hx hy hrule
  have hL : (L.eraseIdx (k + 1))[k]? = some e.pos := by
    rw [List.getElem?_eraseIdx_of_lt (Nat.lt_succ_self k)]
    exact hi
  -- a pair of two nodes the merge left alone was a pair before it
  have untouched : ∀ t, L[t]? = some p → L[t + 1]? = some q → t ≠ k → t ≠ k + 1 → t + 1 ≠ k →
      ⟨r, p, x.gen⟩ ∈ heap₃ := by
    intro t htp htq htk htk1 ht1k
    have hne : ∀ {a b u : Nat}, L[a]? = some u → a ≠ b → ∀ {w : Nat}, L[b]? = some w → u ≠ w :=
      fun ha hab _ hb heq => hab ((hc.eq_iff ha hb).1 heq)
    obtain ⟨w, g, -, hndp⟩ := hc.node t p htp
    obtain ⟨w', g', -, hndq⟩ := hc.node (t + 1) q htq
    obtain ⟨x', hx', hxid, hxgen⟩ := hkeep p _ (List.mem_of_getElem? htp) (hne htp htk hi) (hne htp htk1 hj) hndp
    obtain ⟨y', hy', hyid, -⟩ :=
      hkeep q _ (List.mem_of_getElem? htq) (hne htq ht1k hi) (hne htq (by omega) hj) hndq
    rw [hx] at hx'
    rw [hy] at hy'
    cases hx'
    cases hy'
    rw [hxid, hyid] at hrule
    have hmem := hperm.mem_iff.1 (hh.covers t p q _ _ r c htp htq hndp hndq hrule)
    rw [hxgen]
    rcases List.mem_cons.1 hmem with rfl | hmem
    · exact absurd rfl (hne htp htk hi)
    · exact hin₃ _ (hin₂ _ hmem)
  rw [List.getElem?_eraseIdx] at hp hq
  rcases Nat.lt_trichotomy m k with hlt | rfl | hgt
  · rw [if_pos (by omega)] at hp hq
    by_cases hmk : k = m + 1
    · subst hmk
      rw [hi] at hq
      cases hq
      refine hin₃ _ (hleft m p x y r c rfl ?_ hx hy hrule)
      rw [List.getElem?_eraseIdx_of_lt (by omega)]
      exact hp
    · exact untouched m hp hq (by omega) (by omega) (by omega)
  · rw [if_pos (Nat.lt_succ_self m), hi] at hp
    cases hp
    refine hright q x y r c ?_ hx hy hrule
    rw [List.getElem?_eraseIdx]
    exact hq
  · rw [if_neg (by omega)] at hp hq
    exact untouched (m + 1) hp hq (by omega) (by omega) (by omega)

/-- The entry is of the pair at its node. -/
theorem stale_of_ne {e : HeapEnt} (hc : Chain stop nd L xs) {k : Nat} (hi : L[k]? = some e.pos) {z : Node}
    (hz : nd[e.pos]? = some z)
    (hno : ∀ j y c, L[k + 1]? = some j → nd[j]? = some y → v.rule z.id y.id = some (e.rank, c) → z.gen ≠ e.gen) :
    ∀ k i j x y r c, L[k]? = some i → L[k + 1]? = some j → nd[i]? = some x → nd[j]? = some y →
      v.rule x.id y.id = some (r, c) → e ≠ ⟨r, i, x.gen⟩ := by
  rintro m i j x y r c hmi hj hx hy hrule rfl
  obtain rfl : m = k := (hc.eq_iff hmi hi).1 rfl
  rw [hz] at hx
  cases hx
  exact hno j y c hj hy hrule rfl

/-- The state of the merge loop, over a list at `L` that holds `xs`. -/
structure LongState (v : BpVocab) (stop : Int) (n : Nat) (s : List Node × List HeapEnt) (L xs : List Nat) : Prop where
  chain : Chain stop s.1 L xs
  heap : HeapAt v s.1 L s.2
  nodes : s.1.length = n
  size : s.2.length + L.length + 1 ≤ 2 * n

/-- Where no entry is left, there is no pair to merge. -/
theorem Chain.no_pair (hc : Chain stop nd L xs) (hh : HeapAt v nd L []) : best v.rule xs = none := by
  refine best_none_iff.2 fun k r c ⟨a, b, ha, hb, hrule⟩ => ?_
  have hlt : k + 1 < L.length := by
    rw [← hc.length]
    exact (List.getElem?_eq_some_iff.1 hb).1
  obtain ⟨a', g, ha', hp⟩ := hc.node k _ (List.getElem?_eq_getElem (by omega))
  obtain ⟨b', g', hb', hq⟩ := hc.node (k + 1) _ (List.getElem?_eq_getElem hlt)
  rw [ha] at ha'
  rw [hb] at hb'
  cases ha'
  cases hb'
  have := hh.covers k _ _ _ _ r c (List.getElem?_eq_getElem _) (List.getElem?_eq_getElem hlt) hp hq hrule
  cases this

/-- An entry that is dropped leaves the list as it is. -/
theorem LongState.drop {n : Nat} {heap heap₁ : List HeapEnt} (hs : LongState v stop n (nd, heap) L xs) {e : HeapEnt}
    (hperm : heap.Perm (e :: heap₁)) (hord : Ordered heapKey heap₁)
    (hstale : ∀ k i j x y r c, L[k]? = some i → L[k + 1]? = some j → nd[i]? = some x → nd[j]? = some y →
      v.rule x.id y.id = some (r, c) → e ≠ ⟨r, i, x.gen⟩) : LongState v stop n (nd, heap₁) L xs := by
  have hlen : heap.length = heap₁.length + 1 := hperm.length_eq
  have hsize := hs.size
  dsimp only at hsize
  exact ⟨hs.chain, hs.heap.drop hperm hord hstale, hs.nodes, by dsimp only; omega⟩

/-- The merge of a pair: what is written, and what is pushed. -/
theorem LongState.merge (hv : v.Valid) {n : Nat} {heap heap₁ : List HeapEnt} (hs : LongState v stop n (nd, heap) L xs)
    {e : HeapEnt} (hperm : heap.Perm (e :: heap₁)) (hord : Ordered heapKey heap₁) {k j : Nat} (hi : L[k]? = some e.pos)
    (hj : L[k + 1]? = some j) (c : Nat) :
    ∃ nd' heap₂ heap₃, unlink nd e.pos j c = .ok nd' ∧ makeRoom (2 * n) nd' heap₁ = .ok heap₁ ∧
      ¬2 * n < heap₁.length + 2 ∧ pushLeft v (2 * n) nd' heap₁ e.pos = .ok heap₂ ∧
      pushRight v (2 * n) nd' heap₂ e.pos = .ok heap₃ ∧
      LongState v stop n (nd', heap₃) (L.eraseIdx (k + 1)) (mergeAt xs k c) ∧
      heap₃.length + 2 * (L.eraseIdx (k + 1)).length < heap.length + 2 * L.length := by
  obtain ⟨hc, hh, hn, hsize⟩ := hs
  dsimp only at hc hh hn hsize
  have hlen : heap.length = heap₁.length + 1 := hperm.length_eq
  obtain ⟨nd', hunlink, hlen', hc', hkeep⟩ := hc.unlink (c := c) hi hj
  have hk : k + 1 < L.length := (List.getElem?_eq_some_iff.1 hj).1
  have hL : (L.eraseIdx (k + 1)).length + 1 = L.length := by
    rw [List.length_eraseIdx_of_lt hk]
    omega
  have hi' : (L.eraseIdx (k + 1))[k]? = some e.pos := by
    rw [List.getElem?_eraseIdx_of_lt (Nat.lt_succ_self k)]
    exact hi
  obtain ⟨heap₂, hpush₂, hord₂, hlen₂, hin₂, hinside₂, hleft⟩ :=
    pushLeft_spec hv hc' hord (show heap₁.length < 2 * n by omega) hi'
  obtain ⟨heap₃, hpush₃, hord₃, hlen₃, hin₃, hinside₃, hright⟩ :=
    pushRight_spec hv hc' hord₂ (show heap₂.length < 2 * n by omega) hi'
  have hspace : ¬2 * n < heap₁.length + 2 := by omega
  refine ⟨nd', heap₂, heap₃, hunlink, if_neg hspace, hspace, hpush₂, hpush₃, ⟨hc', ⟨hord₃, ?_, ?_⟩, ?_, ?_⟩, by omega⟩
  · intro e' he'
    rcases hinside₃ e' he' with he' | hlt
    · rcases hinside₂ e' he' with he' | hlt
      · unfold Inside
        rw [hlen']
        exact hh.inside e' (hperm.mem_iff.2 (List.mem_cons_of_mem _ he'))
      · exact hlt
    · exact hlt
  · exact merged_covers hc hh hperm hi hj hkeep hin₂ hin₃ hleft hright
  · show nd'.length = n
    omega
  · show heap₃.length + (L.eraseIdx (k + 1)).length + 1 ≤ 2 * n
    omega

/-- What a round of the merge loop can do, whatever its nodes and its heap are. -/
inductive LongStep (v : BpVocab) (cap : Nat) (nd : List Node) (heap : List HeapEnt) :
    Flow (List Node × List HeapEnt) (Except Err (List Node)) → Prop
  | stop (empty : heap.length = 0) : LongStep v cap nd heap (.done (.ok nd))
  | stale {e : HeapEnt} {heap₁ : List HeapEnt} (popped : pop heapLess heap = .ok (e, heap₁)) :
    LongStep v cap nd heap (.next (nd, heap₁))
  | nomem : LongStep v cap nd heap (.done (.error .nomem))
  | merge {e : HeapEnt} {x y : Node} {id : Nat} {nd' : List Node} {heap₁ heap₂ heap₃ heap₄ : List HeapEnt}
    (popped : pop heapLess heap = .ok (e, heap₁)) (left : nd[e.pos]? = some x) (current : x.gen = e.gen)
    (linked : 0 ≤ x.next) (right : nd[x.next.toNat]? = some y) (rule : v.rule x.id y.id = some (e.rank, id))
    (unlinked : unlink nd e.pos x.next.toNat id = .ok nd') (room : makeRoom cap nd' heap₁ = .ok heap₂)
    (fits : heap₂.length + 2 ≤ cap) (pushedLeft : pushLeft v cap nd' heap₂ e.pos = .ok heap₃)
    (pushedRight : pushRight v cap nd' heap₃ e.pos = .ok heap₄) : LongStep v cap nd heap (.next (nd', heap₄))

theorem longRound_cases (hv : v.Valid) {cap : Nat} {heap : List HeapEnt}
    {flow : Flow (List Node × List HeapEnt) (Except Err (List Node))} (hrun : longRound v cap (nd, heap) = .ok flow) :
    LongStep v cap nd heap flow := by
  rw [longRound] at hrun
  split at hrun
  · next hempty =>
    cases hrun
    exact .stop hempty
  obtain ⟨⟨e, heap₁⟩, hpop, hrun⟩ := bind_eq_ok.1 hrun
  obtain ⟨x, hx, hrun⟩ := bind_eq_ok.1 hrun
  split at hrun
  · cases hrun
    exact .stale hpop
  next hlive =>
  simp only [Bool.or_eq_true, decide_eq_true_eq, not_or, not_not, Int.not_lt] at hlive
  obtain ⟨y, hy, hrun⟩ := bind_eq_ok.1 hrun
  rw [bpPairLookup_eq hv, Run.ok_bind] at hrun
  split at hrun
  · cases hrun
    exact .stale hpop
  next hval =>
  simp only [Bool.or_eq_true, decide_eq_true_eq, not_or, not_not] at hval
  obtain ⟨nd', hunlink, hrun⟩ := bind_eq_ok.1 hrun
  obtain ⟨heap₂, hroom, hrun⟩ := bind_eq_ok.1 hrun
  split at hrun
  · cases hrun
    exact .nomem
  next hfits =>
  obtain ⟨heap₃, hleft, hrun⟩ := bind_eq_ok.1 hrun
  obtain ⟨heap₄, hright, hrun⟩ := bind_eq_ok.1 hrun
  cases hrun
  have hrule := rule_of_lookup hval.1
  rw [hval.2] at hrule
  exact .merge hpop (index_eq_ok.1 hx) hlive.1 hlive.2 (index_eq_ok.1 hy) hrule hunlink hroom (Nat.not_lt.1 hfits) hleft hright

/-- **A round of the merge loop** leaves the list as it is or merges its best pair, or there is none and it ends. -/
theorem longRound_step (hv : v.Valid) {n : Nat} {s : List Node × List HeapEnt} (hs : LongState v stop n s L xs) :
    (∃ s' L' xs', longRound v (2 * n) s = .ok (.next s') ∧ LongState v stop n s' L' xs' ∧
      s'.2.length + 2 * L'.length < s.2.length + 2 * L.length ∧
      (xs' = xs ∨ ∃ r k c, best v.rule xs = some (r, k, c) ∧ xs' = mergeAt xs k c)) ∨
    (longRound v (2 * n) s = .ok (.done (.ok s.1)) ∧ best v.rule xs = none) := by
  obtain ⟨nd, heap⟩ := s
  have hc := hs.chain
  have hh := hs.heap
  dsimp only at hc hh
  by_cases hnil : heap = []
  · subst hnil
    exact .inr ⟨rfl, hc.no_pair hh⟩
  refine .inl ?_
  obtain ⟨e, heap₁, hpop, hperm, hord, hleast⟩ := pop_spec heapLess_eq hh.ordered hnil
  have hlen : heap.length = heap₁.length + 1 := hperm.length_eq
  obtain ⟨hpos, hpos32⟩ := hh.inside e (hperm.mem_iff.2 List.mem_cons_self)
  have hx : nd[e.pos]? = some nd[e.pos] := List.getElem?_eq_getElem hpos
  generalize nd[e.pos] = x at hx
  have hlen0 : ¬heap.length = 0 := by omega
  simp only [longRound, if_neg hlen0, hpop, Run.ok_bind, index_of_some hx]
  -- an entry that is dropped
  have hdrop : (∀ k i j x y r c, L[k]? = some i → L[k + 1]? = some j → nd[i]? = some x → nd[j]? = some y →
      v.rule x.id y.id = some (r, c) → e ≠ ⟨r, i, x.gen⟩) →
      ∃ s' L' xs', (pure (.next (nd, heap₁)) : Run (Flow _ (Except Err (List Node)))) = .ok (.next s') ∧
        LongState v stop n s' L' xs' ∧ s'.2.length + 2 * L'.length < heap.length + 2 * L.length ∧
        (xs' = xs ∨ ∃ r k c, best v.rule xs = some (r, k, c) ∧ xs' = mergeAt xs k c) := fun hstale =>
    ⟨(nd, heap₁), L, xs, rfl, hs.drop hperm hord hstale, by dsimp only; omega, .inl rfl⟩
  by_cases hgen : x.gen ≠ e.gen ∨ x.next < 0
  · rw [if_pos (by simpa using hgen)]
    apply hdrop
    rintro k i j x' y r c hi hj hx' hy hrule rfl
    dsimp only at hx hgen
    rw [hx] at hx'
    cases hx'
    obtain ⟨w, g, -, hnd⟩ := hc.node k i hi
    rw [hx] at hnd
    cases hnd
    rcases hgen with hne | hneg
    · exact hne rfl
    · have := (after_nonneg hc.stop_neg).2 ⟨j, hj, linkTo_of_some hj⟩
      dsimp only at hneg
      omega
  rw [if_neg (by simpa using hgen)]
  obtain ⟨hgen, hnext⟩ := not_or.1 hgen
  -- a node with a link is in the list
  have hmem : e.pos ∈ L := by
    by_contra hdead
    have := hc.dead e.pos hdead hpos32 x hx
    omega
  obtain ⟨k, hi⟩ := List.mem_iff_getElem?.1 hmem
  obtain ⟨a, g, ha, hnd⟩ := hc.node k _ hi
  rw [hx] at hnd
  cases hnd
  dsimp only at hgen hnext
  obtain ⟨j, hj, hafter⟩ := (after_nonneg hc.stop_neg).1 (Int.not_lt.1 hnext)
  obtain ⟨b, g', hb, hy⟩ := hc.node (k + 1) j hj
  simp only [hafter, Int.toNat_natCast, index_of_some hy, Run.ok_bind, bpPairLookup_eq hv]
  by_cases hval : v.lookup a b = BPV_PAIR_EMPTY ∨ v.lookup a b >>> 32 ≠ e.rank
  · rw [if_pos (by simpa using hval)]
    refine hdrop (stale_of_ne hc hi hx ?_)
    intro j' y c hj' hy' hrule
    rw [hj] at hj'
    cases hj'
    rw [hy] at hy'
    cases hy'
    dsimp only at hrule
    rcases hval with hempty | hne
    · rw [lookup_eq_empty_iff.1 hempty] at hrule
      cases hrule
    · by_cases hempty : v.lookup a b = BPV_PAIR_EMPTY
      · rw [lookup_eq_empty_iff.1 hempty] at hrule
        cases hrule
      · rw [rule_of_lookup hempty, Option.some.injEq, Prod.mk.injEq] at hrule
        exact absurd hrule.1 hne
  rw [if_neg (by simpa using hval)]
  obtain ⟨hempty, hrank⟩ := not_or.1 hval
  have hrank : v.lookup a b >>> 32 = e.rank := not_not.1 hrank
  have hrule := rule_of_lookup hempty
  rw [hrank] at hrule
  have hbest := hh.best hc hleast hi hj hx hy hrule
  generalize v.lookup a b % 2 ^ 32 = c at hrule hbest ⊢
  obtain ⟨nd', heap₂, heap₃, hunlink, hroom, hspace, hpush₂, hpush₃, hs', hrank'⟩ := hs.merge hv hperm hord hi hj c
  refine ⟨(nd', heap₃), L.eraseIdx (k + 1), mergeAt xs k c, ?_, hs', hrank', .inr ⟨_, k, c, hbest, rfl⟩⟩
  simp only [hunlink, Run.ok_bind, hroom, if_neg hspace, Run.pure_eq, hpush₂, hpush₃]

/-- A round keeps what is left to compute, or ends with the nodes of the greedy result. -/
theorem longRound_spec (hv : v.Valid) {n : Nat} {ids : List Nat}
    (s : List Node × List HeapEnt) (rank : Nat) (hs : LongAt v stop n ids s rank) :
    (∃ s' rank', longRound v (2 * n) s = .ok (.next s') ∧ LongAt v stop n ids s' rank' ∧ rank' < rank) ∨
    (∃ r, longRound v (2 * n) s = .ok (.done r) ∧ ∃ nd L, r = .ok nd ∧ nd.length = n ∧ Chain stop nd L ids) := by
  obtain ⟨L, xs, hc, hh, hn, hsize, rfl, hids⟩ := hs
  rcases longRound_step hv ⟨hc, hh, hn, hsize⟩ with ⟨s', L', xs', hrun, hs', hlt, hxs⟩ | ⟨hrun, hnone⟩
  · refine .inl ⟨s', _, hrun, ⟨L', xs', hs'.chain, hs'.heap, hs'.nodes, hs'.size, rfl, ?_⟩, hlt⟩
    rcases hxs with rfl | ⟨r, k, c, hbest, rfl⟩
    · exact hids
    · rw [← greedy_of_some _ hbest]
      exact hids
  · rw [greedy_of_none _ hnone] at hids
    subst hids
    exact .inr ⟨_, hrun, s.1, L, rfl, hn, hc⟩

end Round

section Whole

/-- The first heap has the pair of every two neighbours. -/
theorem initHeap_spec (hv : v.Valid) {n m heapCap : Nat} (hc : Chain stop nd (List.range m) xs) (hn : nd.length = n)
    (hroom : n ≤ heapCap) (hgen : ∀ x ∈ nd, x.gen = 0) :
    ∃ heap, initHeap v heapCap nd n = .ok heap ∧ heap.length ≤ n - 1 ∧ HeapAt v nd (List.range m) heap := by
  obtain ⟨heap, hrun, hord, hlen, hinside, hcovers⟩ := @foldlM_rule _ _ (fun heap i => pushPair v heapCap nd heap i (i + 1) 0)
    (fun (done : List Nat) heap => Ordered heapKey heap ∧ heap.length ≤ done.length ∧ (∀ e ∈ heap, Inside nd e) ∧
      ∀ i < done.length, ∀ x y r c, nd[i]? = some x → nd[i + 1]? = some y →
        v.rule x.id y.id = some (r, c) → ⟨r, uint32 i, 0⟩ ∈ heap)
    (List.range (n - 1)) [] [] ⟨fun j _ x y _ hy => by simp at hy, Nat.le_refl _, by simp, by simp⟩ (by
      intro pre i post heap hsplit ⟨hord, hlen, hinside, hcovers⟩
      rw [List.nil_append, List.range_eq_range'] at hsplit
      obtain ⟨rfl, hlt⟩ := range'_split hsplit
      rw [Nat.zero_add] at *
      have hx : nd[pre.length]? = some nd[pre.length] := List.getElem?_eq_getElem (by omega)
      have hy : nd[pre.length + 1]? = some nd[pre.length + 1] := List.getElem?_eq_getElem (by omega)
      obtain ⟨heap', hpush, hord', hlen', hin, hnew, hpair⟩ :=
        pushPair_spec hv hord (show heap.length < heapCap by omega) hx hy 0
      refine ⟨heap', hpush, hord', ?_, fun e he => (hnew e he).elim (hinside e) id, ?_⟩
      · rw [List.length_append, List.length_singleton]
        omega
      · intro k hk a b r c ha hb hrule
        rw [List.length_append, List.length_singleton] at hk
        rcases Nat.lt_succ_iff_lt_or_eq.1 hk with hlt | rfl
        · exact hin _ (hcovers k hlt a b r c ha hb hrule)
        · rw [hx] at ha
          rw [hy] at hb
          cases ha
          cases hb
          exact hpair r c hrule)
  rw [List.nil_append, List.length_range] at hlen hcovers
  refine ⟨heap, hrun, hlen, hord, hinside, ?_⟩
  intro k i j x y r c hi hj hx hy hrule
  have hsmall := hc.small i (List.mem_of_getElem? hi)
  have hjn := (List.getElem?_eq_some_iff.1 hy).1
  obtain ⟨hk, rfl⟩ := List.getElem?_eq_some_iff.1 hi
  obtain ⟨hk', rfl⟩ := List.getElem?_eq_some_iff.1 hj
  rw [List.getElem_range] at *
  rw [hgen x (List.mem_of_getElem? hx)]
  have hmem := hcovers k (by omega) x y r c hx hy hrule
  rwa [uint32_of_lt hsmall] at hmem

/-- **The merge loop** leaves the nodes of the greedy result. -/
theorem mergeLongIn_spec (hv : v.Valid) {p : List UInt8} (hpos : 0 < p.length) (hlen : p.length ≤ 2 ^ 32) :
    ∃ nd L, mergeLongIn v p = .ok (.ok nd) ∧
      Chain (lastLink p) nd L (greedy v.rule ((linked p).map v.byteToken)) := by
  have hlinked := length_linked p
  obtain ⟨nd, hinit, hn, hgen, hc⟩ := initNodes_spec hv.bytes hpos hlen
  obtain ⟨heap, hheap, hsize, hh⟩ := initHeap_spec hv hc hn (show p.length ≤ 2 * p.length by omega) hgen
  obtain ⟨r, hloop, nd', L, rfl, -, hc'⟩ := loop_ranked
    (LongAt v (lastLink p) p.length (greedy v.rule ((linked p).map v.byteToken))) _ (longRound_spec hv)
    (3 * p.length + 1) (nd, heap) (heap.length + 2 * (linked p).length)
    ⟨_, _, hc, hh, hn, by rw [List.length_range]; dsimp only; omega, by rw [List.length_range], rfl⟩ (by omega)
  refine ⟨nd', L, ?_, hc'⟩
  unfold mergeLongIn
  rw [hinit, Run.ok_bind, hheap, Run.ok_bind]
  exact hloop

/-- What `merge_long` hands to the sink, whatever the context it runs on. -/
def longRun (v : BpVocab) (p : List UInt8) : Run (Except Err (List Nat)) := do
  match ← mergeLongIn v p with
  | .error e => pure (.error e)
  | .ok nd => pure (.ok (← loop (walkIds nd p.length) (p.length + 1) (0, [])))

/-- **The long path** makes the greedy merges of the bytes it can link. -/
theorem longRun_eq (hv : v.Valid) {p : List UInt8} (hpos : 0 < p.length) (hlen : p.length ≤ 2 ^ 32) :
    longRun v p = .ok (.ok (greedy v.rule ((linked p).map v.byteToken))) := by
  obtain ⟨nd, L, hrun, hc⟩ := mergeLongIn_spec hv hpos hlen
  have hshort : (greedy v.rule ((linked p).map v.byteToken)).length ≤ p.length := by
    have hle := length_greedy_le v.rule ((linked p).map v.byteToken)
    have hlinked := length_linked p
    rw [List.length_map] at hle
    omega
  unfold longRun
  rw [hrun, Run.ok_bind]
  dsimp only
  rw [hc.walk hshort (Nat.le_refl _)]
  rfl

end Whole

end Bytepair
