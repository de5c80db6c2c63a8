import Bytepair.Bpe.Long

/-!
# The room of the long path

The heap of `merge_long` has room for `2 * n` entries, and its rounds are not counted. `HeapFits` is what holds at the
head of every round, of whatever length the pretoken is: the entries and the links that are left make at most
`2 * n - 2`. A round takes an entry, and pushes two only where it takes a link; so no round compacts, no push is out
of room, and `mergeLongIn_returns`: the loop ends with nodes.
-/

namespace Bytepair
open Support Support.BinaryHeap

/-- The nodes that are linked to a next one. -/
def links (nd : List Node) : Nat := nd.countP fun x => 0 ≤ x.next

/-- The links of a node are to nodes below `n`, or to none. -/
def LinksFit (n : Nat) (nd : List Node) : Prop := ∀ x ∈ nd, x.next < n ∧ x.prev < n

/-- The state at the head of a round over `n` nodes. -/
structure HeapFits (n : Nat) (s : List Node × List HeapEnt) : Prop where
  nodes : s.1.length = n
  linked : LinksFit n s.1
  ordered : Ordered heapKey s.2
  inside : ∀ e ∈ s.2, e.pos < n
  size : s.2.length + links s.1 + 2 ≤ 2 * n

/-- What is left to do: each round takes an entry, and pays the two it pushes with a link. -/
def potential (s : List Node × List HeapEnt) : Nat := s.2.length + 2 * links s.1

/-- What a round that goes on does: it drops the entry it took, or merges and pushes up to two. -/
inductive HeapRound (v : BpVocab) (n : Nat) (nd : List Node) (heap : List HeapEnt) : List Node × List HeapEnt → Prop where
  | drop (e : HeapEnt) (heap₁ : List HeapEnt) (taken : pop heapLess heap = .ok (e, heap₁)) : HeapRound v n nd heap (nd, heap₁)
  | merge (e : HeapEnt) (heap₁ heap₂ heap₃ : List HeapEnt) (j c : Nat) (nd' : List Node)
      (taken : pop heapLess heap = .ok (e, heap₁)) (unlinked : unlink nd e.pos j c = .ok nd')
      (room : heap₁.length + 4 ≤ 2 * n)
      (left : pushLeft v (2 * n) nd' heap₁ e.pos = .ok heap₂) (left_le : heap₂.length ≤ heap₁.length + 1)
      (right : pushRight v (2 * n) nd' heap₂ e.pos = .ok heap₃) (right_le : heap₃.length ≤ heap₂.length + 1) :
      HeapRound v n nd heap (nd', heap₃)

section Links

variable {n : Nat} {nd : List Node}

theorem int32_le (k : Nat) : int32 k ≤ k := by
  unfold int32
  rw [Int.bmod_def]
  split <;> omega

theorem int32_pred_lt {k : Nat} (h : k < n) : int32 (int32 k - 1) < n := by
  unfold int32
  rw [Int.bmod_def, Int.bmod_def]
  split <;> split <;> omega

theorem links_congr {nd' : List Node} (h : nd'.map Node.next = nd.map Node.next) : links nd' = links nd := by
  have hlinks : ∀ nd : List Node, links nd = (nd.map Node.next).countP fun k => 0 ≤ k := by
    intro nd
    rw [List.countP_map]
    rfl
  rw [hlinks, hlinks, h]

/-- A write changes the links by those of the node it writes. -/
theorem links_set {i : Nat} {x : Node} (hx : nd[i]? = some x) (z : Node) :
    links (nd.set i z) + (if 0 ≤ x.next then 1 else 0) = links nd + (if 0 ≤ z.next then 1 else 0) := by
  obtain ⟨hi, rfl⟩ := List.getElem?_eq_some_iff.1 hx
  have hcount := List.countP_set (p := fun x : Node => decide (0 ≤ x.next)) (a := z) hi
  have hpos : 0 ≤ nd[i].next → 0 < links nd := fun h =>
    List.countP_pos_iff.2 ⟨nd[i], List.getElem_mem hi, decide_eq_true h⟩
  unfold links at hpos ⊢
  rw [hcount]
  simp only [decide_eq_true_eq]
  split
  · next h =>
    have := hpos h
    omega
  · rfl

theorem LinksFit.set (h : LinksFit n nd) (i : Nat) {z : Node} (hz : z.next < n ∧ z.prev < n) : LinksFit n (nd.set i z) := by
  intro x hx
  rcases List.mem_or_eq_of_mem_set hx with hx | rfl
  · exact h x hx
  · exact hz

/-- A link back leaves the links on. -/
theorem setPrev_fits (h : LinksFit n nd) (hn : nd.length = n) {k : Int} (hk : k < n) {i : Nat} (hi : i < n) :
    ∃ nd', setPrev nd k i = .ok nd' ∧ nd'.length = n ∧ LinksFit n nd' ∧ nd'.map Node.next = nd.map Node.next := by
  unfold setPrev
  by_cases hnonneg : 0 ≤ k
  · have hlt : k.toNat < nd.length := by omega
    have hprev : int32 i < n := by
      have := int32_le i
      omega
    rw [if_pos hnonneg, index_lt hlt, Run.ok_bind, store_lt hlt]
    refine ⟨_, rfl, by rwa [List.length_set], h.set _ ⟨(h _ (List.getElem_mem hlt)).1, by dsimp only; exact hprev⟩, ?_⟩
    rw [List.map_set]
    apply List.ext_getElem?
    intro m
    rw [List.getElem?_set]
    split
    · next heq =>
      subst heq
      rw [List.length_map, if_pos hlt, List.getElem?_map, List.getElem?_eq_getElem hlt]
      rfl
    · rfl
  · rw [if_neg hnonneg]
    exact ⟨nd, rfl, hn, h, rfl⟩

/-- Unlinking a node takes a link. -/
theorem unlink_fits (h : LinksFit n nd) (hn : nd.length = n) {i j : Nat} {x : Node} (hx : nd[i]? = some x)
    (hnext : 0 ≤ x.next) (hj : j < n) (c : Nat) :
    ∃ nd', unlink nd i j c = .ok nd' ∧ nd'.length = n ∧ LinksFit n nd' ∧ links nd' + 1 = links nd := by
  obtain ⟨hi, -⟩ := List.getElem?_eq_some_iff.1 hx
  have hjnd : j < nd.length := by omega
  have hy : nd[j]? = some nd[j] := List.getElem?_eq_getElem hjnd
  have hyfits := h nd[j] (List.getElem_mem hjnd)
  generalize nd[j] = y at hy hyfits
  have hxfits := h x (List.mem_of_getElem? hx)
  unfold unlink
  rw [index_of_some hx, Run.ok_bind, index_of_some hy, Run.ok_bind, store_lt hi, Run.ok_bind]
  generalize hx' : ({ x with id := c, gen := uint32 (x.gen + 1), next := y.next } : Node) = x'
  have hfirst := links_set hx x'
  have hnext' : x'.next = y.next := by
    subst hx'
    rfl
  have hxfits' : x'.next < n ∧ x'.prev < n := by
    subst hx'
    exact ⟨hyfits.1, hxfits.2⟩
  obtain ⟨nd₂, hset, hn₂, h₂, hmap⟩ := setPrev_fits (h.set i hxfits') (by rwa [List.length_set]) hyfits.1
    (show i < n by omega)
  have hj₂ : j < nd₂.length := by omega
  rw [hset, Run.ok_bind, index_lt hj₂, Run.ok_bind, store_lt hj₂]
  have hlast := links_set (List.getElem?_eq_getElem hj₂) { nd₂[j] with next := -1, prev := -1 }
  -- node `j` has the link it had, also where it is node `i`
  have hjnext : nd₂[j].next = y.next := by
    have hget : (nd₂.map Node.next)[j]? = ((nd.set i x').map Node.next)[j]? := by rw [hmap]
    rw [List.getElem?_map, List.getElem?_map, List.getElem?_eq_getElem hj₂, List.getElem?_set] at hget
    split at hget
    · exact (Option.some.inj hget).trans hnext'
    · rw [hy] at hget
      exact Option.some.inj hget
  rw [hjnext, links_congr hmap] at hlast
  rw [if_pos hnext, hnext'] at hfirst
  refine ⟨_, rfl, by rwa [List.length_set], h₂.set j ⟨by dsimp only; omega, by dsimp only; omega⟩, ?_⟩
  dsimp only at hlast
  rw [if_neg (by decide : ¬(0 : Int) ≤ -1)] at hlast
  omega

end Links

section Push

variable {v : BpVocab} {n : Nat} {nd : List Node}

theorem pushLeft_fits (hv : v.Valid) (h : LinksFit n nd) (hn : nd.length = n) {heap : List HeapEnt}
    (hord : Ordered heapKey heap) {cap : Nat} (hroom : heap.length < cap) {i : Nat} (hi : i < n) :
    ∃ heap', pushLeft v cap nd heap i = .ok heap' ∧ Ordered heapKey heap' ∧ heap'.length ≤ heap.length + 1 ∧
      ∀ e ∈ heap', e ∈ heap ∨ e.pos < n := by
  have hind : i < nd.length := by omega
  have hprev := (h nd[i] (List.getElem_mem hind)).2
  unfold pushLeft
  rw [index_lt hind, Run.ok_bind]
  by_cases hlink : 0 ≤ nd[i].prev
  · have hl : nd[i].prev.toNat < nd.length := by omega
    obtain ⟨heap', hpush, hord', hlen, -, hnew, -⟩ := pushPair_spec hv hord hroom (List.getElem?_eq_getElem hl)
      (List.getElem?_eq_getElem hind) nd[nd[i].prev.toNat].gen
    rw [if_pos hlink, index_lt hl, Run.ok_bind]
    exact ⟨heap', hpush, hord', hlen, fun e he => (hnew e he).imp_right fun hin => hn ▸ hin.1⟩
  · rw [if_neg hlink]
    exact ⟨heap, rfl, hord, Nat.le_succ _, fun e he => .inl he⟩

theorem pushRight_fits (hv : v.Valid) (h : LinksFit n nd) (hn : nd.length = n) {heap : List HeapEnt}
    (hord : Ordered heapKey heap) {cap : Nat} (hroom : heap.length < cap) {i : Nat} (hi : i < n) :
    ∃ heap', pushRight v cap nd heap i = .ok heap' ∧ Ordered heapKey heap' ∧ heap'.length ≤ heap.length + 1 ∧
      ∀ e ∈ heap', e ∈ heap ∨ e.pos < n := by
  have hind : i < nd.length := by omega
  have hnext := (h nd[i] (List.getElem_mem hind)).1
  unfold pushRight
  rw [index_lt hind, Run.ok_bind]
  by_cases hlink : 0 ≤ nd[i].next
  · have hr : nd[i].next.toNat < nd.length := by omega
    obtain ⟨heap', hpush, hord', hlen, -, hnew, -⟩ := pushPair_spec hv hord hroom (List.getElem?_eq_getElem hind)
      (List.getElem?_eq_getElem hr) nd[i].gen
    rw [if_pos hlink]
    exact ⟨heap', hpush, hord', hlen, fun e he => (hnew e he).imp_right fun hin => hn ▸ hin.1⟩
  · rw [if_neg hlink]
    exact ⟨heap, rfl, hord, Nat.le_succ _, fun e he => .inl he⟩

end Push

section Round

variable {v : BpVocab} {n : Nat} {s : List Node × List HeapEnt}

/-- **A round** ends the loop with an empty heap, or goes on with less to do and as much room. -/
theorem HeapFits.round (hv : v.Valid) (h : HeapFits n s) :
    s.2 = [] ∧ longRound v (2 * n) s = .ok (.done (.ok s.1)) ∨
    ∃ s', longRound v (2 * n) s = .ok (.next s') ∧ HeapRound v n s.1 s.2 s' ∧ HeapFits n s' ∧ potential s' < potential s := by
  obtain ⟨nd, heap⟩ := s
  obtain ⟨hn, hlinks, hord, hinside, hsize⟩ := h
  dsimp only at hn hlinks hord hinside hsize ⊢
  by_cases hnil : heap = []
  · subst hnil
    exact .inl ⟨rfl, rfl⟩
  refine .inr ?_
  obtain ⟨e, heap₁, hpop, hperm, hord₁, -⟩ := pop_spec heapLess_eq hord hnil
  have hlen : heap.length = heap₁.length + 1 := hperm.length_eq
  have hinside₁ : ∀ e' ∈ heap₁, e'.pos < n := fun e' he' => hinside e' (hperm.mem_iff.2 (List.mem_cons_of_mem _ he'))
  have hpos : e.pos < n := hinside e (hperm.mem_iff.2 List.mem_cons_self)
  have hnd : e.pos < nd.length := by omega
  have hx : nd[e.pos]? = some nd[e.pos] := List.getElem?_eq_getElem hnd
  have hxfits := hlinks nd[e.pos] (List.getElem_mem hnd)
  generalize nd[e.pos] = x at hx hxfits
  have hlen0 : ¬heap.length = 0 := by omega
  have hdrop : HeapRound v n nd heap (nd, heap₁) ∧ HeapFits n (nd, heap₁) ∧ potential (nd, heap₁) < potential (nd, heap) := by
    refine ⟨.drop e heap₁ hpop, ⟨hn, hlinks, hord₁, hinside₁, ?_⟩, ?_⟩
    · dsimp only
      omega
    · unfold potential
      dsimp only
      omega
  simp only [longRound, if_neg hlen0, hpop, Run.ok_bind, index_of_some hx]
  by_cases hstale : (x.gen ≠ e.gen || x.next < 0) = true
  · rw [if_pos hstale]
    exact ⟨_, rfl, hdrop⟩
  rw [if_neg hstale]
  have hnext : 0 ≤ x.next := by
    simp only [Bool.or_eq_true, decide_eq_true_eq, not_or] at hstale
    omega
  have hj : x.next.toNat < nd.length := by omega
  rw [index_lt hj, Run.ok_bind, bpPairLookup_eq hv, Run.ok_bind]
  split
  · exact ⟨_, rfl, hdrop⟩
  · generalize v.lookup x.id nd[x.next.toNat].id = val
    obtain ⟨nd', hunlink, hn', hlinks', hcount⟩ := unlink_fits hlinks hn hx hnext (hn ▸ hj) (val % 2 ^ 32)
    have hroom : heap₁.length + 4 ≤ 2 * n := by omega
    obtain ⟨heap₂, hleft, hord₂, hlen₂, hin₂⟩ :=
      pushLeft_fits hv hlinks' hn' hord₁ (show heap₁.length < 2 * n by omega) hpos
    obtain ⟨heap₃, hright, hord₃, hlen₃, hin₃⟩ :=
      pushRight_fits hv hlinks' hn' hord₂ (show heap₂.length < 2 * n by omega) hpos
    have hspace : ¬2 * n < heap₁.length + 2 := by omega
    refine ⟨(nd', heap₃), ?_, .merge e heap₁ heap₂ heap₃ _ _ nd' hpop hunlink hroom hleft hlen₂ hright hlen₃,
      ⟨hn', hlinks', hord₃, ?_, ?_⟩, ?_⟩
    · simp only [hunlink, Run.ok_bind, makeRoom, if_neg hspace, Run.pure_eq, hleft, hright]
    · intro e' he'
      rcases hin₃ e' he' with he' | hlt
      · exact (hin₂ e' he').elim (hinside₁ e') id
      · exact hlt
    · dsimp only
      omega
    · unfold potential
      dsimp only
      omega

end Round

section Whole

variable {v : BpVocab}

/-- The first nodes are linked among themselves, but for the last. -/
theorem initNodes_fits (hbytes : v.byteId.length = 256) {p : List UInt8} (hpos : 0 < p.length) :
    ∃ nd, initNodes v p = .ok nd ∧ nd.length = p.length ∧ LinksFit p.length nd ∧ links nd + 1 ≤ p.length := by
  refine ⟨_, initNodes_eq hbytes p, by rw [List.length_map, List.length_range], ?_, ?_⟩
  · intro x hx
    obtain ⟨i, hi, rfl⟩ := List.mem_map.1 hx
    have hlt := List.mem_range.1 hi
    constructor
    · show (if i + 1 < p.length then int32 (i + 1 : Nat) else -1) < (p.length : Int)
      split
      · have := int32_le (i + 1)
        omega
      · omega
    · rw [nodeAt]
      dsimp only
      exact int32_pred_lt hlt
  · obtain ⟨m, hm⟩ : ∃ m, p.length = m + 1 := ⟨p.length - 1, by omega⟩
    have hlast : ¬0 ≤ (nodeAt v p m).next := by
      show ¬0 ≤ (if m + 1 < p.length then int32 (m + 1 : Nat) else -1)
      rw [if_neg (by omega)]
      decide
    have hle := List.countP_le_length (p := fun x : Node => decide (0 ≤ x.next)) (l := (List.range m).map (nodeAt v p))
    rw [List.length_map, List.length_range] at hle
    rw [links, hm, List.range_succ, List.map_append, List.countP_append, List.map_singleton,
      List.countP_singleton, if_neg (by simpa using hlast)]
    omega

/-- After `k` pushes the first heap has at most `k` entries. -/
theorem initHeap_fits (hv : v.Valid) {nd : List Node} {n k : Nat} (hn : nd.length = n) (hk : k + 1 ≤ n) :
    ∃ heap, (List.range k).foldlM (fun heap i => pushPair v (2 * n) nd heap i (i + 1) 0) [] = .ok heap ∧
      Ordered heapKey heap ∧ heap.length ≤ k ∧ ∀ e ∈ heap, e.pos < n := by
  obtain ⟨heap, hrun, hord, hlen, hinside⟩ := @foldlM_rule _ _ (fun heap i => pushPair v (2 * n) nd heap i (i + 1) 0)
    (fun (done : List Nat) heap => Ordered heapKey heap ∧ heap.length ≤ done.length ∧ ∀ e ∈ heap, e.pos < n)
    (List.range k) [] [] ⟨fun j _ x y _ hy => by simp at hy, Nat.le_refl _, by simp⟩ (by
      intro pre i post heap hsplit ⟨hord, hlen, hinside⟩
      rw [List.nil_append, List.range_eq_range'] at hsplit
      obtain ⟨rfl, hlt⟩ := range'_split hsplit
      rw [Nat.zero_add] at *
      obtain ⟨heap', hpush, hord', hlen', -, hnew, -⟩ := pushPair_spec hv hord (show heap.length < 2 * n by omega)
        (List.getElem?_eq_getElem (show pre.length < nd.length by omega))
        (List.getElem?_eq_getElem (show pre.length + 1 < nd.length by omega)) 0
      refine ⟨heap', hpush, hord', ?_, fun e he => (hnew e he).elim (hinside e) fun hin => hn ▸ hin.1⟩
      rw [List.length_append, List.length_singleton]
      omega)
  rw [List.nil_append, List.length_range] at hlen
  exact ⟨heap, hrun, hord, hlen, hinside⟩

/-- The loop is entered on a state that fits. -/
theorem start_fits (hv : v.Valid) {p : List UInt8} (hpos : 0 < p.length) :
    ∃ nd heap, initNodes v p = .ok nd ∧ initHeap v (2 * p.length) nd p.length = .ok heap ∧ HeapFits p.length (nd, heap) ∧
      potential (nd, heap) < 3 * p.length + 1 := by
  obtain ⟨nd, hnodes, hn, hlinks, hcount⟩ := initNodes_fits hv.bytes hpos
  obtain ⟨heap, hheap, hord, hlen, hinside⟩ := initHeap_fits hv hn (show p.length - 1 + 1 ≤ p.length by omega)
  refine ⟨nd, heap, hnodes, hheap, ⟨hn, hlinks, hord, hinside, ?_⟩, ?_⟩
  · dsimp only
    omega
  · unfold potential
    dsimp only
    omega

/-- **The merge loop ends**, with nodes, whatever the length of the pretoken. -/
theorem mergeLongIn_returns (hv : v.Valid) {p : List UInt8} (hpos : 0 < p.length) :
    ∃ nd, mergeLongIn v p = .ok (.ok nd) := by
  obtain ⟨nd, heap, hnodes, hheap, hfits, hrank⟩ := start_fits hv hpos
  have hround (s : List Node × List HeapEnt) (hs : HeapFits p.length s) :
      (∃ s', longRound v (2 * p.length) s = .ok (.next s') ∧ HeapFits p.length s' ∧ potential s' < potential s) ∨
      (∃ r : Except Err (List Node), longRound v (2 * p.length) s = .ok (.done r) ∧ ∃ nd, r = .ok nd) := by
    rcases hs.round hv with ⟨-, hdone⟩ | ⟨s', hnext, -, hs', hless⟩
    · exact .inr ⟨_, hdone, s.1, rfl⟩
    · exact .inl ⟨s', hnext, hs', hless⟩
  obtain ⟨r, hloop, nd', rfl⟩ :=
    loop_rule (HeapFits p.length) potential (fun r : Except Err (List Node) => ∃ nd, r = .ok nd) hround _ (nd, heap) hfits hrank
  refine ⟨nd', ?_⟩
  unfold mergeLongIn
  rw [hnodes, Run.ok_bind, hheap, Run.ok_bind]
  exact hloop

end Whole

end Bytepair
