import Bytepair.Encode.Origin

/-!
# The long path of an opened vocabulary

`LongHead` is a state at the head of a round of `merge_long`, in whatever run. `merge_long_heap`: the heap keeps
within `2 * n - 2` entries and is never compacted. `merge_long_greedy`: every pair of neighbours that the table has is
in the heap, an entry that passes the tests is of such a pair, and what is emitted are the greedy merges.
-/

namespace Bytepair
open Support Support.BinaryHeap

variable {host : Host} {map : List UInt8} {v : BpVocab}

/-- The state at the head of a round of the merge loop. -/
inductive LongHead (v : BpVocab) (p : List UInt8) : List Node × List HeapEnt → Prop where
  | start (nd : List Node) (heap : List HeapEnt) (nodes : initNodes v p = .ok nd)
      (first : initHeap v (2 * p.length) nd p.length = .ok heap) : LongHead v p (nd, heap)
  | next (s s' : List Node × List HeapEnt) (head : LongHead v p s) (round : longRound v (2 * p.length) s = .ok (.next s')) :
      LongHead v p s'

section Heap

variable {p : List UInt8} {s : List Node × List HeapEnt}

theorem LongHead.fits (hv : v.Valid) (hpos : 0 < p.length) (h : LongHead v p s) : HeapFits p.length s := by
  induction h with
  | start nd heap nodes first =>
    obtain ⟨nd', heap', hnodes, hheap, hfits, -⟩ := start_fits hv hpos
    rw [nodes] at hnodes
    cases hnodes
    rw [first] at hheap
    cases hheap
    exact hfits
  | next s s' _ round ih =>
    rcases ih.round hv with ⟨-, hdone⟩ | ⟨s'', hnext, -, hs'', -⟩
    · rw [round] at hdone
      cases hdone
    · rw [round] at hnext
      cases hnext
      exact hs''

/-- What is put into the sink is counted, whatever room it has. -/
theorem bpSinkPut_returns (sink : BpSink) (ids : List Nat) : ∃ sink', bpSinkPut sink ids = .ok sink' := by
  unfold bpSinkPut
  split
  · next hroom =>
    have hfit : sink.total + (ids.take (sink.out.length - sink.total)).length ≤ sink.out.length := by
      rw [List.length_take]
      omega
    dsimp only
    rw [show copyTo sink.out sink.total _ = _ from if_pos hfit, Run.ok_bind]
    exact ⟨_, rfl⟩
  · exact ⟨_, rfl⟩

/-- An allocation of `merge_long` is refused: that of the nodes and the heap, or behind it that of the ids. -/
def LongRefused (c : BpCtx) (n : Nat) : Prop :=
  (∃ m, bpBufReserve c.scratch c.scratch.work (n * SIZEOF_NODE + 2 * n * SIZEOF_HEAP_ENT) = .ok (none, m)) ∨
    ∃ cap m m', bpBufReserve c.scratch c.scratch.work (n * SIZEOF_NODE + 2 * n * SIZEOF_HEAP_ENT) = .ok (some cap, m) ∧
      bpIdsReserve { m with work := cap } n = .ok (none, m')

/-- **A run of the long path**: it emits the ids that are left, or an allocation is refused. -/
theorem mergeLong_returns {c : BpCtx} (hc : c.v = v) {p : List UInt8} {nd : List Node} {ids : List Nat}
    (hmerge : mergeLongIn v p = .ok (.ok nd)) (hwalk : loop (walkIds nd p.length) (p.length + 1) (0, []) = .ok ids)
    (sink : BpSink) :
    ∃ r c' sink', mergeLong c p sink = .ok (r, (c', sink')) ∧
      (r = .ok () ∧ bpSinkPut sink ids = .ok sink' ∨ r = .error .nomem ∧ LongRefused c p.length) ∧
      (c.scratch.Granted → r = .ok ()) := by
  subst hc
  obtain ⟨work, m, hwork, hroom, hgranted, -⟩ := reserve_eq_ok (show 0 < 4096 by decide) c.scratch
    c.scratch.work (p.length * SIZEOF_NODE + 2 * p.length * SIZEOF_HEAP_ENT)
  have hfirst : bpBufReserve c.scratch c.scratch.work (p.length * SIZEOF_NODE + 2 * p.length * SIZEOF_HEAP_ENT) = .ok (work, m) :=
    hwork
  unfold mergeLong
  dsimp only
  rw [hfirst, Run.ok_bind]
  cases work with
  | none => exact ⟨_, _, _, rfl, .inr ⟨rfl, .inl ⟨m, hfirst⟩⟩, fun hg => by simpa using (hgranted hg).1⟩
  | some cap =>
    obtain ⟨room, m', hids, hroom', hgranted', -⟩ := reserve_eq_ok (show 0 < 1024 by decide) { m with work := cap } m.ids p.length
    have hsecond : bpIdsReserve { m with work := cap } p.length = .ok (room, m') := hids
    dsimp only
    rw [inside_of_le (hroom cap rfl), Run.ok_bind, hmerge, Run.ok_bind]
    dsimp only
    rw [hsecond, Run.ok_bind]
    cases room with
    | none =>
      refine ⟨_, _, _, rfl, .inr ⟨rfl, .inr ⟨cap, m, m', hfirst, hsecond⟩⟩, fun hg => ?_⟩
      have hsome := (hgranted' (hgranted hg).2).1
      cases hsome
    | some cap' =>
      obtain ⟨sink', hput⟩ := bpSinkPut_returns sink ids
      dsimp only
      rw [inside_of_le (hroom' cap' rfl), Run.ok_bind, hwalk, Run.ok_bind, hput, Run.ok_bind]
      exact ⟨_, _, _, rfl, .inl ⟨rfl, rfl⟩, fun _ => rfl⟩

/-- **The room of the heap.** Before the loop the heap has an entry a push at most, and at the head of every round at
most `2 * n - 2`; a round that merges has room for the two entries it pushes, without a compaction. So the loop ends,
the walk over what is left visits at most `n` nodes, and only a refused allocation is an error. -/
theorem merge_long_heap (h : Opens host map v) {p : List UInt8} (hlow : 2 ≤ p.length) (hhigh : p.length < 2 ^ 31) :
    (∃ nd, initNodes v p = .ok nd ∧ ∀ k ≤ p.length - 1, ∃ heap,
      (List.range k).foldlM (fun heap i => pushPair v (2 * p.length) nd heap i (i + 1) 0) [] = .ok heap ∧ heap.length ≤ k) ∧
    (∀ s, LongHead v p s → s.2.length ≤ 2 * p.length - 2 ∧
      (s.2 = [] ∧ longRound v (2 * p.length) s = .ok (.done (.ok s.1)) ∨
        ∃ s', longRound v (2 * p.length) s = .ok (.next s') ∧ HeapRound v p.length s.1 s.2 s')) ∧
    (∃ nd ids, mergeLongIn v p = .ok (.ok nd) ∧ loop (walkIds nd p.length) (p.length + 1) (0, []) = .ok ids ∧
      ids.length ≤ p.length) ∧
    ∀ (c : BpCtx) (sink : BpSink), c.v = v → ∃ r c' sink', mergeLong c p sink = .ok (r, (c', sink')) ∧
      (r = .ok () ∨ r = .error .nomem ∧ LongRefused c p.length) := by
  have hv := h.valid
  have hpos : 0 < p.length := by omega
  obtain ⟨nd, L, hmerge, hc⟩ := mergeLongIn_spec hv hpos (show p.length ≤ 2 ^ 32 by omega)
  have hshort : (greedy v.rule ((linked p).map v.byteToken)).length ≤ p.length := by
    apply Nat.le_trans (length_greedy_le v.rule _)
    rw [List.length_map, length_linked]
    exact Nat.min_le_right _ _
  have hwalk := hc.walk hshort (Nat.le_refl _)
  refine ⟨?_, ?_, ⟨nd, _, hmerge, hwalk, hshort⟩, ?_⟩
  · obtain ⟨nd, hnodes, hn, -⟩ := initNodes_fits hv.bytes hpos
    refine ⟨nd, hnodes, fun k hk => ?_⟩
    obtain ⟨heap, hheap, -, hlen, -⟩ := initHeap_fits hv hn (show k + 1 ≤ p.length by omega)
    exact ⟨heap, hheap, hlen⟩
  · intro s hs
    have hfits := hs.fits hv hpos
    have hsize := hfits.size
    refine ⟨by omega, ?_⟩
    rcases hfits.round hv with hdone | ⟨s', hnext, hround, -⟩
    · exact .inl hdone
    · exact .inr ⟨s', hnext, hround⟩
  · intro c sink hcv
    obtain ⟨r, c', sink', hrun, hr, -⟩ := mergeLong_returns hcv hmerge hwalk sink
    exact ⟨r, c', sink', hrun, hr.imp_left And.left⟩

theorem merge_long_heap_toy : ∃ nd ids, mergeLongIn Convert.toy.vocab [0x61, 0x62, 0x63] = .ok (.ok nd) ∧
    loop (walkIds nd 3) 4 (0, []) = .ok ids ∧ ids.length ≤ 3 :=
  (@merge_long_heap _ _ _ Convert.toy_opens [0x61, 0x62, 0x63] (by decide) (by decide)).2.2.1

end Heap

section Greedy

variable {p : List UInt8} {s : List Node × List HeapEnt}

/-- The linked nodes hold a state of the greedy run, and their pairs are in the heap. -/
theorem LongHead.state (hv : v.Valid) (hpos : 0 < p.length) (hlen : p.length ≤ 2 ^ 32) (h : LongHead v p s) :
    ∃ L xs, LongState v (lastLink p) p.length s L xs ∧ Reaches v.rule ((linked p).map v.byteToken) xs := by
  induction h with
  | start nd heap nodes first =>
    obtain ⟨nd', hnodes, hn, hgen, hc⟩ := initNodes_spec hv.bytes hpos hlen
    rw [nodes] at hnodes
    cases hnodes
    obtain ⟨heap', hheap, hsize, hh⟩ := initHeap_spec hv hc hn (show p.length ≤ 2 * p.length by omega) hgen
    rw [first] at hheap
    cases hheap
    have hlinked := length_linked p
    refine ⟨_, _, ⟨hc, hh, hn, ?_⟩, .refl _⟩
    rw [List.length_range]
    dsimp only
    omega
  | next s s' _ round ih =>
    obtain ⟨L, xs, hs, hreach⟩ := ih
    rcases longRound_step hv hs with ⟨s'', L', xs', hnext, hs', -, hxs⟩ | ⟨hdone, -⟩
    · rw [round] at hnext
      cases hnext
      refine ⟨L', xs', hs', ?_⟩
      rcases hxs with rfl | ⟨r, k, c, hbest, rfl⟩
      · exact hreach
      · exact hreach.snoc hbest
    · rw [round] at hdone
      cases hdone

/-- The entry passes the tests of a round: its node is live and of its generation, and the pair there has its rank. -/
def Passes (v : BpVocab) (nd : List Node) (e : HeapEnt) : Prop :=
  ∃ x y, nd[e.pos]? = some x ∧ x.gen = e.gen ∧ 0 ≤ x.next ∧ nd[x.next.toNat]? = some y ∧
    v.lookup x.id y.id ≠ BPV_PAIR_EMPTY ∧ v.lookup x.id y.id >>> 32 = e.rank

/-- An entry that passes is of the pair at its node. -/
theorem LongState.passes {stop : Int} {n : Nat} {L xs : List Nat} (hs : LongState v stop n s L xs) {e : HeapEnt}
    (he : e ∈ s.2) (hpass : Passes v s.1 e) :
    ∃ k j x y c, L[k]? = some e.pos ∧ L[k + 1]? = some j ∧ s.1[e.pos]? = some x ∧ s.1[j]? = some y ∧ x.gen = e.gen ∧
      v.rule x.id y.id = some (e.rank, c) := by
  obtain ⟨x, y, hx, hgen, hnext, hy, hfound, hrank⟩ := hpass
  have hmem : e.pos ∈ L := by
    by_contra hdead
    have hneg := hs.chain.dead e.pos hdead (hs.heap.inside e he).2 x hx
    omega
  obtain ⟨k, hk⟩ := List.mem_iff_getElem?.1 hmem
  obtain ⟨a, g, -, hnode⟩ := hs.chain.node k _ hk
  rw [hx] at hnode
  cases hnode
  obtain ⟨j, hj, hafter⟩ := (after_nonneg hs.chain.stop_neg).1 hnext
  dsimp only at hy hgen hfound hrank
  rw [hafter, Int.toNat_natCast] at hy
  have hrule := rule_of_lookup hfound
  rw [hrank] at hrule
  exact ⟨k, j, _, y, _, hk, hj, hx, hy, hgen, hrule⟩

/-- **The long path is greedy.** With memory granted it emits the ids of the greedy run that merges the pair of lowest
rank, leftmost among equals. At the head of every round the linked nodes hold a state of that run; each pair of
neighbours that the table has is in the heap with its rank, position and generation; and an entry that passes the tests
has the rank, position and generation of such a pair, which is the pair to merge where the entry is the one taken. -/
theorem merge_long_greedy (h : Opens host map v) {p : List UInt8} (hlow : 2 ≤ p.length) (hhigh : p.length < 2 ^ 31) :
    (∀ (c : BpCtx) (sink : BpSink), c.v = v → c.scratch.Granted → ∃ c' sink', mergeLong c p sink = .ok (.ok (), (c', sink')) ∧
      bpSinkPut sink (greedy v.rule (p.map v.byteToken)) = .ok sink') ∧
    ∀ s, LongHead v p s → ∃ L xs, Chain (-1) s.1 L xs ∧ Reaches v.rule (p.map v.byteToken) xs ∧
      (∀ k i j x y r c, L[k]? = some i → L[k + 1]? = some j → s.1[i]? = some x → s.1[j]? = some y →
        v.rule x.id y.id = some (r, c) → ⟨r, i, x.gen⟩ ∈ s.2) ∧
      ∀ e ∈ s.2, Passes v s.1 e → ∃ k j x y c, L[k]? = some e.pos ∧ L[k + 1]? = some j ∧ s.1[e.pos]? = some x ∧
        s.1[j]? = some y ∧ x.gen = e.gen ∧ v.rule x.id y.id = some (e.rank, c) ∧
        ∀ heap, pop heapLess s.2 = .ok (e, heap) → best v.rule xs = some (e.rank, k, c) := by
  have hv := h.valid
  have hpos : 0 < p.length := by omega
  have hall : linked p = p := linked_of_le (by omega)
  have hlast : lastLink p = -1 := if_pos (by omega)
  constructor
  · intro c sink hcv hg
    obtain ⟨nd, L, hmerge, hc⟩ := mergeLongIn_spec hv hpos (show p.length ≤ 2 ^ 32 by omega)
    rw [hall] at hc
    have hshort := length_greedy_le v.rule (p.map v.byteToken)
    rw [List.length_map] at hshort
    obtain ⟨r, c', sink', hrun, hr, hgranted⟩ := mergeLong_returns hcv hmerge (hc.walk hshort (Nat.le_refl _)) sink
    cases hgranted hg
    rcases hr with ⟨-, hput⟩ | ⟨hno, -⟩
    · exact ⟨c', sink', hrun, hput⟩
    · cases hno
  · intro s hs
    obtain ⟨L, xs, hstate, hreach⟩ := hs.state hv hpos (show p.length ≤ 2 ^ 32 by omega)
    rw [hall] at hreach
    rw [hlast] at hstate
    refine ⟨L, xs, hstate.chain, hreach, hstate.heap.covers, fun e he hpass => ?_⟩
    obtain ⟨k, j, x, y, c, hk, hj, hx, hy, hgen, hrule⟩ := hstate.passes he hpass
    refine ⟨k, j, x, y, c, hk, hj, hx, hy, hgen, hrule, fun heap hpop => ?_⟩
    obtain ⟨top, heap', hpop', -, -, hleast⟩ := pop_spec heapLess_eq hstate.heap.ordered (List.ne_nil_of_mem he)
    rw [hpop] at hpop'
    cases hpop'
    exact hstate.heap.best hstate.chain hleast hk hj hx hy hrule

theorem merge_long_greedy_toy : ∃ (c c' : BpCtx) (sink' : BpSink), c.v = Convert.toy.vocab ∧
    mergeLong c [0x61, 0x62, 0x63] ⟨[0, 0], 0⟩ = .ok (.ok (), (c', sink')) ∧
    bpSinkPut ⟨[0, 0], 0⟩ (greedy Convert.toy.vocab.rule ([0x61, 0x62, 0x63].map Convert.toy.vocab.byteToken)) = .ok sink' := by
  have hopens : Opens ⟨true, true, true⟩ Convert.toy.image Convert.toy.vocab := Convert.toy_opens
  obtain ⟨c, hc, hg⟩ := exists_context Convert.toy.vocab
  have hcv := (hopens.coherent hc).handle
  obtain ⟨c', sink', hrun, hput⟩ :=
    (@merge_long_greedy _ _ _ Convert.toy_opens [0x61, 0x62, 0x63] (by decide) (by decide)).1 c ⟨[0, 0], 0⟩ hcv hg
  exact ⟨c, c', sink', hcv, hrun, hput⟩

end Greedy

end Bytepair
