import Bytepair.Bpe.Pretoken
import Bytepair.Bpe.Potential

/-!
# Pretokens past 2^32 bytes

Node `2 ^ 32 - 1` of a pretoken that goes on behind it has the link 0: the next position is no `int32_t`. The
merge loop runs on the linked nodes as if it were not there, until it merges node 0 into it; from
then on node 0 is alone. `longIds_exists`: of whatever length, the long path comes to the first
ids of a state of the greedy run on the bytes it can link.
-/

namespace Bytepair
open Support Support.BinaryHeap

/-- The node that is linked to node 0. -/
@[irreducible] def wrapPos : Nat := 2 ^ 32 - 1

/-- The nodes, with that link. -/
def wrap (nd : List Node) : List Node := nd.modify wrapPos fun x => { x with next := 0 }

/-- The nodes behind a round, with that link. -/
def wrapFlow : Flow (List Node × List HeapEnt) (Except Err (List Node)) →
    Flow (List Node × List HeapEnt) (Except Err (List Node))
  | .next (nd, heap) => .next (wrap nd, heap)
  | .done r => .done (r.map wrap)

section Wrapped

variable {v : BpVocab} {nd : List Node}

theorem wrap_of_ne {i : Nat} (h : i ≠ wrapPos) : (wrap nd)[i]? = nd[i]? := by
  unfold wrap
  exact List.getElem?_modify_ne _ _ (Ne.symm h)

/-- The wrapped link leads to the first node. -/
theorem wrap_at : (wrap nd)[wrapPos]? = nd[wrapPos]?.map fun x => { x with next := 0 } := by
  unfold wrap
  exact List.getElem?_modify_eq _ _ _

theorem length_wrap : (wrap nd).length = nd.length := List.length_modify _ _ _

theorem wrap_set {i : Nat} (h : i ≠ wrapPos) (x : Node) : wrap (nd.set i x) = (wrap nd).set i x := by
  apply List.ext_getElem?
  intro k
  rw [List.getElem?_set, length_wrap]
  by_cases hk : k = wrapPos
  · subst hk
    rw [wrap_at, List.getElem?_set_ne h, if_neg h, wrap_at]
  · rw [wrap_of_ne hk, List.getElem?_set, wrap_of_ne hk]

theorem index_wrap {i : Nat} (h : i ≠ wrapPos) : index (wrap nd) i = index nd i := by
  unfold index
  rw [wrap_of_ne h]

theorem store_wrap {i : Nat} (h : i ≠ wrapPos) (x : Node) : store (wrap nd) i x = (store nd i x).map wrap := by
  unfold store
  rw [length_wrap]
  split
  · rw [← wrap_set h]
    rfl
  · rfl

/-- The id, the generation and the link back of a node are the same. -/
theorem index_wrap_eq (i : Nat) :
    ∃ f : Node → Node, index (wrap nd) i = (index nd i).map f ∧
      ∀ x, (f x).id = x.id ∧ (f x).gen = x.gen ∧ (f x).prev = x.prev := by
  by_cases h : i = wrapPos
  · subst h
    refine ⟨fun x => { x with next := 0 }, ?_, fun x => ⟨rfl, rfl, rfl⟩⟩
    unfold index
    rw [wrap_at]
    cases nd[wrapPos]? <;> rfl
  · refine ⟨id, ?_, fun x => ⟨rfl, rfl, rfl⟩⟩
    rw [index_wrap h]
    cases index nd i <;> rfl

/-- Pushing a pair does not look at the links. -/
theorem pushPair_wrap (cap : Nat) (heap : List HeapEnt) (l r gen : Nat) :
    pushPair v cap (wrap nd) heap l r gen = pushPair v cap nd heap l r gen := by
  obtain ⟨f, hf, hfid⟩ := @index_wrap_eq nd l
  obtain ⟨f', hf', hfid'⟩ := @index_wrap_eq nd r
  unfold pushPair
  rw [hf, hf']
  cases index nd l with
  | error e => simp only [Except.map, Run.error_bind]
  | ok x =>
    cases index nd r with
    | error e => simp only [Except.map, Run.ok_bind, Run.error_bind]
    | ok y => simp only [Except.map, Run.ok_bind, (hfid x).1, (hfid' y).1]

/-- The pair on the left is found by the link back. -/
theorem pushLeft_wrap (cap : Nat) (heap : List HeapEnt) (i : Nat) :
    pushLeft v cap (wrap nd) heap i = pushLeft v cap nd heap i := by
  obtain ⟨f, hf, hfid⟩ := @index_wrap_eq nd i
  unfold pushLeft
  rw [hf]
  cases index nd i with
  | error e => simp only [Except.map, Run.error_bind]
  | ok x =>
    obtain ⟨f', hf', hfid'⟩ := @index_wrap_eq nd x.prev.toNat
    simp only [Except.map, Run.ok_bind, (hfid x).2.2, hf']
    cases index nd x.prev.toNat with
    | error e => rw [Run.error_bind, Run.error_bind]
    | ok l => simp only [Run.ok_bind, (hfid' l).2.1, pushPair_wrap]

/-- The pair on the right is found by a link that is not the wrapped one. -/
theorem pushRight_wrap (cap : Nat) (heap : List HeapEnt) {i : Nat} (h : i ≠ wrapPos) :
    pushRight v cap (wrap nd) heap i = pushRight v cap nd heap i := by
  unfold pushRight
  simp only [index_wrap h, pushPair_wrap]

theorem setPrev_wrap {k : Int} (h : 0 ≤ k → k.toNat ≠ wrapPos) (i : Nat) :
    setPrev (wrap nd) k i = (setPrev nd k i).map wrap := by
  unfold setPrev
  split
  · next hk =>
    rw [index_wrap (h hk)]
    cases index nd k.toNat with
    | error e => rfl
    | ok z => exact store_wrap (h hk) _
  · rfl

/-- Unlinking away from the wrapped link leaves it. -/
theorem unlink_wrap {i j : Nat} (hi : i ≠ wrapPos) (hj : j ≠ wrapPos) {y : Node} (hy : index nd j = .ok y)
    (hnext : 0 ≤ y.next → y.next.toNat ≠ wrapPos) (c : Nat) : unlink (wrap nd) i j c = (unlink nd i j c).map wrap := by
  unfold unlink
  rw [index_wrap hi, index_wrap hj, hy]
  cases index nd i with
  | error e => rfl
  | ok x =>
    rw [Run.ok_bind, Run.ok_bind, Run.ok_bind, Run.ok_bind, store_wrap hi]
    cases store nd i { x with id := c, gen := uint32 (x.gen + 1), next := y.next } with
    | error e => rfl
    | ok nd₁ =>
      show (setPrev (wrap nd₁) y.next i >>= _) = Except.map wrap (setPrev nd₁ y.next i >>= _)
      rw [setPrev_wrap hnext]
      cases setPrev nd₁ y.next i with
      | error e => rfl
      | ok nd₂ =>
        show (index (wrap nd₂) j >>= _) = Except.map wrap (index nd₂ j >>= _)
        rw [index_wrap hj]
        cases index nd₂ j with
        | error e => rfl
        | ok y => exact store_wrap hj _

end Wrapped

section Round

variable {v : BpVocab} {stop : Int} {nd : List Node} {L xs : List Nat}

/-- The link of a node below 2^32 is to a linked node behind the first, or to none. -/
theorem Chain.next_cases (h : Chain stop nd L xs) {i : Nat} (hi : i < 2 ^ 32) {x : Node} (hx : nd[i]? = some x) :
    x.next < 0 ∨ ∃ j ∈ L, x.next = (j : Int) ∧ 0 < j := by
  by_cases hmem : i ∈ L
  · obtain ⟨k, hk⟩ := List.mem_iff_getElem?.1 hmem
    obtain ⟨a, g, -, hnd⟩ := h.node k i hk
    rw [hx] at hnd
    cases hnd
    rcases Int.lt_or_le (after stop L k) 0 with hneg | hnonneg
    · exact .inl hneg
    · obtain ⟨j, hj, hafter⟩ := (after_nonneg h.stop_neg).1 hnonneg
      exact .inr ⟨j, List.mem_of_getElem? hj, hafter, (h.lt_iff h.head hj).2 (Nat.succ_pos k)⟩
  · exact .inl (h.dead i hmem hi x hx)

/-- No node of a chain is at the wrapped link. -/
theorem Chain.ne_wrapPos (h : Chain stop nd L xs) {i : Nat} (hi : i ∈ L) : i ≠ wrapPos := by
  have hsmall := h.small i hi
  unfold wrapPos
  omega

/-- A round that does not take an entry of that node is the round without the link. -/
theorem longRound_wrap (hc : Chain stop nd L xs) {cap : Nat} {heap heap₁ : List HeapEnt} {e : HeapEnt}
    (hne : heap.length ≠ 0) (hpop : pop heapLess heap = .ok (e, heap₁)) (hroom : ¬cap < heap₁.length + 2)
    (hpos : e.pos < 2 ^ 32) (he : e.pos ≠ wrapPos) :
    longRound v cap (wrap nd, heap) = (longRound v cap (nd, heap)).map wrapFlow := by
  rw [longRound, longRound, if_neg hne, if_neg hne, hpop, Run.ok_bind, Run.ok_bind]
  dsimp only
  rw [index_wrap he]
  cases hx : index nd e.pos with
  | error f => rfl
  | ok x =>
    rw [Run.ok_bind, Run.ok_bind]
    split
    · rfl
    · next hlive =>
      simp only [Bool.or_eq_true, decide_eq_true_eq, not_or] at hlive
      obtain ⟨j, hj, hnext, -⟩ := (hc.next_cases hpos (index_eq_ok.1 hx)).resolve_left hlive.2
      have hjw := hc.ne_wrapPos hj
      have hsmall := hc.small j hj
      rw [hnext, Int.toNat_natCast, index_wrap hjw]
      cases hy : index nd j with
      | error f => rfl
      | ok y =>
        rw [Run.ok_bind, Run.ok_bind]
        cases bpPairLookup v x.id y.id with
        | error f => rfl
        | ok val =>
          rw [Run.ok_bind, Run.ok_bind]
          split
          · rfl
          · have hynext : 0 ≤ y.next → y.next.toNat ≠ wrapPos := by
              intro hnonneg
              obtain ⟨z, hz, hznext, -⟩ := (hc.next_cases (by omega) (index_eq_ok.1 hy)).resolve_left (Int.not_lt.2 hnonneg)
              rw [hznext, Int.toNat_natCast]
              exact hc.ne_wrapPos hz
            rw [unlink_wrap he hjw hy hynext]
            cases unlink nd e.pos j (val % 2 ^ 32) with
            | error f => rfl
            | ok nd₁ =>
              simp only [Except.map, Run.ok_bind, makeRoom, if_neg hroom, Run.pure_eq, pushLeft_wrap]
              cases pushLeft v cap nd₁ heap₁ e.pos with
              | error f => rfl
              | ok heap₂ =>
                simp only [Run.ok_bind, pushRight_wrap cap heap₂ he]
                cases pushRight v cap nd₁ heap₂ e.pos with
                | error f => rfl
                | ok heap₃ => rfl

end Round

section Frozen

variable {v : BpVocab} {nd : List Node}

/-- No entry of the heap is past the positions it can hold. -/
def Below (heap : List HeapEnt) : Prop := ∀ e ∈ heap, e.pos < 2 ^ 32

/-- A push keeps it so, since a position is cut to 32 bits. -/
theorem Below.push {heap heap' : List HeapEnt} (h : Below heap) {cap l : Nat} {r gen : Nat}
    (hrun : push heapLess cap heap ⟨r, uint32 l, gen⟩ = .ok heap') : Below heap' := by
  intro e he
  rcases List.mem_cons.1 ((push_perm hrun).mem_iff.1 he) with rfl | he
  · exact uint32_lt l
  · exact h e he

theorem Below.pushPair {heap heap' : List HeapEnt} (h : Below heap) {cap l r gen : Nat}
    (hrun : pushPair v cap nd heap l r gen = .ok heap') : Below heap' := by
  obtain ⟨x, -, hrun⟩ := bind_eq_ok.1 hrun
  obtain ⟨y, -, hrun⟩ := bind_eq_ok.1 hrun
  obtain ⟨val, -, hrun⟩ := bind_eq_ok.1 hrun
  split at hrun
  · cases hrun
    exact h
  · exact h.push hrun

theorem Below.pushLeft {heap heap' : List HeapEnt} (h : Below heap) {cap i : Nat}
    (hrun : pushLeft v cap nd heap i = .ok heap') : Below heap' := by
  obtain ⟨x, -, hrun⟩ := bind_eq_ok.1 hrun
  split at hrun
  · obtain ⟨l, -, hrun⟩ := bind_eq_ok.1 hrun
    exact h.pushPair hrun
  · cases hrun
    exact h

theorem Below.pushRight {heap heap' : List HeapEnt} (h : Below heap) {cap i : Nat}
    (hrun : pushRight v cap nd heap i = .ok heap') : Below heap' := by
  obtain ⟨x, -, hrun⟩ := bind_eq_ok.1 hrun
  split at hrun
  · exact h.pushPair hrun
  · cases hrun
    exact h

theorem filterAuxM_mem {α : Type} {p : α → Run Bool} {xs acc ys : List α} (h : xs.filterAuxM p acc = .ok ys) :
    ∀ y ∈ ys, y ∈ xs ∨ y ∈ acc := by
  induction xs generalizing acc with
  | nil =>
    cases h
    exact fun y hy => .inr hy
  | cons x xs ih =>
    obtain ⟨b, -, h⟩ := bind_eq_ok.1 h
    intro y hy
    rcases ih h y hy with hy | hy
    · exact .inl (List.mem_cons_of_mem x hy)
    · cases b with
      | false => exact .inr hy
      | true =>
        rcases List.mem_cons.1 hy with rfl | hy
        · exact .inl List.mem_cons_self
        · exact .inr hy

/-- Making room keeps it so. -/
theorem Below.makeRoom {heap heap' : List HeapEnt} (h : Below heap) {cap : Nat}
    (hrun : makeRoom cap nd heap = .ok heap') : Below heap' := by
  unfold Bytepair.makeRoom at hrun
  split at hrun
  · obtain ⟨kept, hkept, hrun⟩ := bind_eq_ok.1 hrun
    obtain ⟨rev, hrev, hkept⟩ := bind_eq_ok.1 hkept
    cases hkept
    have hbelow : Below rev.reverse := by
      intro e he
      rcases filterAuxM_mem hrev e (List.mem_reverse.1 he) with he | he
      · exact h e he
      · cases he
    generalize rev.reverse = kept at hbelow hrun
    have hempty : Below [] := fun e he => nomatch he
    generalize ([] : List HeapEnt) = start at hempty hrun
    induction kept generalizing start with
    | nil =>
      cases hrun
      exact hempty
    | cons e kept ih =>
      rw [List.foldlM_cons] at hrun
      obtain ⟨next, hpush, hrun⟩ := bind_eq_ok.1 hrun
      obtain ⟨he, hkept⟩ := List.forall_mem_cons.1 hbelow
      refine ih hkept next ?_ hrun
      intro e' he'
      rcases List.mem_cons.1 ((push_perm hpush).mem_iff.1 he') with rfl | he'
      · exact he
      · exact hempty e' he'
  · cases hrun
    exact h

/-- No node below 2^32 is linked to node 0, and every link is an `int32_t`. -/
def Apart (nd : List Node) : Prop := ∀ i < 2 ^ 32, ∀ x, nd[i]? = some x → x.next ≠ 0 ∧ x.next < 2 ^ 31

/-- The id and the link of a node. -/
def Node.content (x : Node) : Nat × Int := (x.id, x.next)

theorem content_prev (x : Node) (prev : Int) : ({ x with prev } : Node).content = x.content := rfl

/-- Storing a node with the same content changes no content. -/
theorem store_content {nd' : List Node} {k : Nat} {x z : Node} (hz : nd[k]? = some z) (hx : x.content = z.content)
    (hrun : store nd k x = .ok nd') (m : Nat) : nd'[m]?.map Node.content = nd[m]?.map Node.content := by
  obtain ⟨hlt, rfl⟩ := store_eq_ok.1 hrun
  by_cases hm : k = m
  · subst hm
    rw [List.getElem?_set_self hlt, hz, Option.map_some, Option.map_some, hx]
  · rw [List.getElem?_set_ne hm]

/-- Setting a link back changes none. -/
theorem setPrev_content {nd' : List Node} {k : Int} {i : Nat} (hrun : setPrev nd k i = .ok nd') (m : Nat) :
    nd'[m]?.map Node.content = nd[m]?.map Node.content := by
  unfold setPrev at hrun
  split at hrun
  · obtain ⟨z, hz, hrun⟩ := bind_eq_ok.1 hrun
    exact store_content (index_eq_ok.1 hz) (content_prev z _) hrun m
  · cases hrun
    rfl

/-- What unlinking writes, where it returns. -/
theorem unlink_content {nd' : List Node} {i j c : Nat} {y : Node} (hy : nd[j]? = some y)
    (hrun : unlink nd i j c = .ok nd') :
    (∀ (m : Nat) (z : Node), nd'[m]? = some z → z.next = -1 ∨ z.next = y.next ∨ ∃ x : Node, nd[m]? = some x ∧ z.next = x.next) ∧
    (∀ m : Nat, m ≠ i → m ≠ j → nd'[m]?.map Node.content = nd[m]?.map Node.content) ∧
    (i ≠ j → nd'[i]?.map Node.content = some (c, y.next) ∧ nd'[j]?.map Node.content = some (y.id, -1)) := by
  obtain ⟨x, hx, hrun⟩ := bind_eq_ok.1 hrun
  obtain ⟨y', hy', hrun⟩ := bind_eq_ok.1 hrun
  obtain ⟨nd₁, h₁, hrun⟩ := bind_eq_ok.1 hrun
  obtain ⟨nd₂, h₂, hrun⟩ := bind_eq_ok.1 hrun
  obtain ⟨z, hz, hlast⟩ := bind_eq_ok.1 hrun
  rw [index_of_some hy] at hy'
  cases hy'
  obtain ⟨hi, rfl⟩ := store_eq_ok.1 h₁
  obtain ⟨hj, rfl⟩ := store_eq_ok.1 hlast
  have hcontent := setPrev_content h₂
  have hz := index_eq_ok.1 hz
  refine ⟨fun m w hw => ?_, fun m hmi hmj => ?_, fun hij => ?_⟩
  · by_cases hmj : m = j
    · subst hmj
      rw [List.getElem?_set_self hj] at hw
      cases hw
      exact .inl rfl
    · rw [List.getElem?_set_ne (Ne.symm hmj)] at hw
      have hm := hcontent m
      rw [hw] at hm
      by_cases hmi : m = i
      · subst hmi
        rw [List.getElem?_set_self hi] at hm
        exact .inr (.inl (congrArg Prod.snd (Option.some.inj hm)))
      · rw [List.getElem?_set_ne (Ne.symm hmi)] at hm
        obtain ⟨x', hx', heq⟩ := Option.map_eq_some_iff.1 hm.symm
        exact .inr (.inr ⟨x', hx', (congrArg Prod.snd heq).symm⟩)
  · rw [List.getElem?_set_ne (Ne.symm hmj), hcontent, List.getElem?_set_ne (Ne.symm hmi)]
  · constructor
    · rw [List.getElem?_set_ne (Ne.symm hij), hcontent, List.getElem?_set_self hi]
      rfl
    · have hid := hcontent j
      rw [hz, List.getElem?_set_ne hij, hy] at hid
      rw [List.getElem?_set_self hj]
      exact congrArg (fun id => some (id, (-1 : Int))) (congrArg Prod.fst (Option.some.inj hid))

/-- Unlinking a node keeps the others apart from node 0. -/
theorem Apart.unlink {nd' : List Node} (h : Apart nd) {i j c : Nat} {y : Node} (hj : j < 2 ^ 32) (hy : nd[j]? = some y)
    (hrun : unlink nd i j c = .ok nd') : Apart nd' := by
  intro m hm z hz
  rcases (unlink_content hy hrun).1 m z hz with hnext | hnext | ⟨x, hx, hnext⟩
  · rw [hnext]
    decide
  · rw [hnext]
    exact h j hj y hy
  · rw [hnext]
    exact h m hm x hx

/-- Node 0 holds an id and is linked to nothing, and nothing to it. -/
structure Frozen (t : Nat) (s : List Node × List HeapEnt) : Prop where
  head : ∃ x : Node, s.1[0]? = some x ∧ x.id = t ∧ x.next < 0
  apart : Apart s.1
  below : Below s.2

/-- A round leaves node 0 alone. -/
theorem Frozen.round (hv : v.Valid) {t cap : Nat} {s : List Node × List HeapEnt} (h : Frozen t s)
    {flow : Flow (List Node × List HeapEnt) (Except Err (List Node))} (hrun : longRound v cap s = .ok flow) :
    (∀ s', flow = .next s' → Frozen t s') ∧ ∀ nd, flow = .done (.ok nd) → ∃ x : Node, nd[0]? = some x ∧ x.id = t ∧ x.next < 0 := by
  obtain ⟨nd, heap⟩ := s
  obtain ⟨hhead, hapart, hbelow⟩ := h
  dsimp only at hhead hapart hbelow
  cases longRound_cases hv hrun with
  | stop =>
    constructor
    · rintro s ⟨⟩
    · rintro nd' ⟨⟩
      exact hhead
  | stale popped =>
    constructor
    · rintro s ⟨⟩
      exact ⟨hhead, hapart, fun e he => hbelow e ((pop_mem popped).2 e he)⟩
    · rintro nd' ⟨⟩
  | nomem =>
    constructor
    · rintro s ⟨⟩
    · rintro nd' ⟨⟩
  | @merge e x y id nd' heap₁ heap₂ heap₃ heap₄ popped left _ linked right _ unlinked room _ pushedLeft pushedRight =>
    obtain ⟨hmem, hsub⟩ := pop_mem popped
    have hbelow₁ : Below heap₁ := fun e' he' => hbelow e' (hsub e' he')
    obtain ⟨z, hz, hid, hznext⟩ := hhead
    obtain ⟨hnext, hsmall⟩ := hapart _ (hbelow e hmem) x left
    have hpos : 0 ≠ e.pos := by
      intro heq
      rw [← heq, hz] at left
      cases left
      omega
    have hfirst : 0 ≠ x.next.toNat := by omega
    have hkeep := (unlink_content right unlinked).2.1 0 hpos hfirst
    rw [hz] at hkeep
    obtain ⟨z', hz', heq⟩ := Option.map_eq_some_iff.1 hkeep
    constructor
    · rintro s ⟨⟩
      refine ⟨⟨z', hz', (congrArg Prod.fst heq).trans hid, ?_⟩, hapart.unlink (by omega) right unlinked, ?_⟩
      · have hlink : z'.next = z.next := congrArg Prod.snd heq
        omega
      · exact (hbelow₁.makeRoom room).pushLeft pushedLeft |>.pushRight pushedRight
    · rintro nd' ⟨⟩

end Frozen

section Run

variable {v : BpVocab} {stop : Int} {nd : List Node} {L xs : List Nat}

/-- A round over the list with the link: it is a round over the list, or it merges node 0 away. -/
inductive WrapRound (v : BpVocab) (stop : Int) (n : Nat) (nd : List Node) (L xs : List Nat) :
    Flow (List Node × List HeapEnt) (Except Err (List Node)) → Prop
  | next {nd' : List Node} {heap' : List HeapEnt} {L' xs' : List Nat} (state : LongState v stop n (nd', heap') L' xs')
    (step : xs' = xs ∨ ∃ r k c, best v.rule xs = some (r, k, c) ∧ xs' = mergeAt xs k c) :
    WrapRound v stop n nd L xs (.next (wrap nd', heap'))
  | frozen {t : Nat} {rest : List Nat} (head : xs = t :: rest) {s : List Node × List HeapEnt} (frozen : Frozen t s) :
    WrapRound v stop n nd L xs (.next s)
  | done : WrapRound v stop n nd L xs (.done (.ok (wrap nd)))
  | failed (e : Err) : WrapRound v stop n nd L xs (.done (.error e))

/-- What merging node 0 into the node linked to it leaves. -/
theorem Chain.freeze (hc : Chain stop nd L xs) {y : Node} (hy : nd[0]? = some y) {c : Nat} {nd' : List Node}
    (hunlink : Bytepair.unlink (wrap nd) wrapPos 0 c = .ok nd') :
    Apart nd' ∧ ∃ x : Node, nd'[0]? = some x ∧ x.id = y.id ∧ x.next < 0 := by
  have hwrap : 0 ≠ wrapPos := hc.ne_wrapPos (List.mem_of_getElem? hc.head)
  have hy' : (wrap nd)[0]? = some y := by rw [wrap_of_ne hwrap, hy]
  obtain ⟨hlinks, -, hends⟩ := unlink_content hy' hunlink
  obtain ⟨hwrapped, hfirst⟩ := hends (Ne.symm hwrap)
  have hsmall : ∀ {x : Node}, (x.next < 0 ∨ ∃ j ∈ L, x.next = (j : Int) ∧ 0 < j) → x.next ≠ 0 ∧ x.next < 2 ^ 31 := by
    rintro x (hneg | ⟨j, hj, hnext, hpos⟩)
    · omega
    · have := hc.small j hj
      omega
  have hynext := hsmall (hc.next_cases (show 0 < 2 ^ 32 by decide) hy)
  refine ⟨fun m hm z hz => ?_, ?_⟩
  · by_cases hmw : m = wrapPos
    · rw [hmw] at hz
      rw [hz] at hwrapped
      rw [show z.next = y.next from congrArg Prod.snd (Option.some.inj hwrapped)]
      exact hynext
    · rcases hlinks m z hz with hnext | hnext | ⟨x, hx, hnext⟩
      · rw [hnext]
        decide
      · rw [hnext]
        exact hynext
      · rw [wrap_of_ne hmw] at hx
        rw [hnext]
        exact hsmall (hc.next_cases hm hx)
  · obtain ⟨x, hx, heq⟩ := Option.map_eq_some_iff.1 hfirst
    refine ⟨x, hx, congrArg Prod.fst heq, ?_⟩
    rw [show x.next = -1 from congrArg Prod.snd heq]
    decide

theorem longRound_wrapped (hv : v.Valid) {n : Nat} {heap : List HeapEnt} (hs : LongState v stop n (nd, heap) L xs)
    {flow : Flow (List Node × List HeapEnt) (Except Err (List Node))}
    (hrun : longRound v (2 * n) (wrap nd, heap) = .ok flow) : WrapRound v stop n nd L xs flow := by
  have hc := hs.chain
  have hh := hs.heap
  have hstep := longRound_step hv hs
  dsimp only at hc hh hstep
  by_cases hnil : heap = []
  · subst hnil
    cases hrun
    exact .done
  obtain ⟨e, heap₁, hpop, hperm, hord, -⟩ := pop_spec heapLess_eq hh.ordered hnil
  have hlen : heap.length = heap₁.length + 1 := hperm.length_eq
  have hsize := hs.size
  dsimp only at hsize
  obtain ⟨hpos, hpos32⟩ := hh.inside e (hperm.mem_iff.2 List.mem_cons_self)
  have hLpos : 0 < L.length := (List.getElem?_eq_some_iff.1 hc.head).1
  have hne : heap.length ≠ 0 := by omega
  have hroom : ¬2 * n < heap₁.length + 2 := by omega
  by_cases he : e.pos = wrapPos
  · -- without the link the entry is out of date
    have hx : nd[e.pos]? = some nd[e.pos] := List.getElem?_eq_getElem hpos
    generalize nd[e.pos] = x at hx
    have hdead : x.next < 0 := hc.dead e.pos (fun hmem => hc.ne_wrapPos hmem he) hpos32 x hx
    have hplain : longRound v (2 * n) (nd, heap) = .ok (.next (nd, heap₁)) := by
      rw [longRound, if_neg hne, hpop, Run.ok_bind]
      dsimp only
      rw [index_of_some hx, Run.ok_bind, if_pos (by simp [hdead])]
      rfl
    rw [hplain] at hstep
    have hstale : WrapRound v stop n nd L xs (.next (wrap nd, heap₁)) := by
      rcases hstep with ⟨s', L', xs', heq, hs', -, hxs⟩ | ⟨heq, -⟩
      · cases heq
        exact .next hs' hxs
      · cases heq
    have hwx : index (wrap nd) e.pos = .ok { x with next := 0 } := by
      apply index_of_some
      rw [he] at hx ⊢
      rw [wrap_at, hx]
      rfl
    rw [longRound, if_neg hne, hpop, Run.ok_bind] at hrun
    dsimp only at hrun
    rw [hwx, Run.ok_bind] at hrun
    split at hrun
    · cases hrun
      exact hstale
    · obtain ⟨y, hy, hrun⟩ := bind_eq_ok.1 hrun
      rw [bpPairLookup_eq hv, Run.ok_bind] at hrun
      split at hrun
      · cases hrun
        exact hstale
      · obtain ⟨nd₁, hunlink, hrun⟩ := bind_eq_ok.1 hrun
        obtain ⟨heap₂, hmake, hrun⟩ := bind_eq_ok.1 hrun
        split at hrun
        · cases hrun
          exact .failed _
        · obtain ⟨heap₃, hleft, hrun⟩ := bind_eq_ok.1 hrun
          obtain ⟨heap₄, hright, hrun⟩ := bind_eq_ok.1 hrun
          cases hrun
          obtain ⟨t, g, ht, hnode⟩ := hc.node 0 0 hc.head
          obtain ⟨rest, rfl⟩ : ∃ rest, xs = t :: rest := by
            cases xs with
            | nil => cases ht
            | cons a rest =>
              cases ht
              exact ⟨rest, rfl⟩
          have hbelow : Below heap₁ := fun e' he' => (hh.inside e' (hperm.mem_iff.2 (List.mem_cons_of_mem _ he'))).2
          rw [he] at hunlink
          obtain ⟨hapart, hhead⟩ := hc.freeze hnode hunlink
          exact .frozen rfl ⟨hhead, hapart, (hbelow.makeRoom hmake).pushLeft hleft |>.pushRight hright⟩
  · rw [longRound_wrap hc hne hpop hroom hpos32 he] at hrun
    rcases hstep with ⟨s', L', xs', heq, hs', -, hxs⟩ | ⟨heq, -⟩
    · rw [heq] at hrun
      cases hrun
      exact .next hs' hxs
    · rw [heq] at hrun
      cases hrun
      exact .done

end Run

section Whole

variable {v : BpVocab} {stop : Int} {nd : List Node} {L xs : List Nat}

/-- The nodes of a pretoken past 2^32 bytes. -/
theorem initNodes_wrap (hbytes : v.byteId.length = 256) {p : List UInt8} (hlen : 2 ^ 32 < p.length) :
    ∃ nd, initNodes v p = .ok (wrap nd) ∧ nd.length = p.length ∧ (∀ x ∈ nd, x.gen = 0) ∧
      Chain (lastLink p) nd (List.range (linked p).length) ((linked p).map v.byteToken) := by
  have hlinked := length_linked p
  have hwrap : wrapPos = 2 ^ 32 - 1 := by
    unfold wrapPos
    rfl
  have hget : ∀ i < p.length, ((List.range p.length).map (nodeAt v p))[i]? = some (nodeAt v p i) := by
    intro i hi
    rw [List.getElem?_map, List.getElem?_range hi]
    rfl
  have hlast : (nodeAt v p wrapPos).next = 0 := by
    have hnext : wrapPos + 1 < p.length := by omega
    show (if wrapPos + 1 < p.length then int32 (wrapPos + 1 : Nat) else -1) = 0
    rw [if_pos hnext, hwrap]
    rfl
  generalize hnodes : (List.range p.length).map (nodeAt v p) = nodes at hget
  have hlength : nodes.length = p.length := by simp [← hnodes]
  have hcut : ∀ i < p.length, (nodes.modify wrapPos fun x => { x with next := -1 })[i]? =
      some (if i = wrapPos then { nodeAt v p i with next := -1 } else nodeAt v p i) := by
    intro i hi
    by_cases hiw : i = wrapPos
    · subst hiw
      rw [List.getElem?_modify_eq, hget _ hi, if_pos rfl]
      rfl
    · rw [List.getElem?_modify_ne _ _ (Ne.symm hiw), hget i hi, if_neg hiw]
  have hall : ∀ i x, (nodes.modify wrapPos fun x => { x with next := -1 })[i]? = some x →
      i < p.length ∧ x = if i = wrapPos then { nodeAt v p i with next := -1 } else nodeAt v p i := by
    intro i x hx
    have hi := (List.getElem?_eq_some_iff.1 hx).1
    rw [List.length_modify, hlength] at hi
    rw [hcut i hi] at hx
    exact ⟨hi, (Option.some.inj hx).symm⟩
  refine ⟨nodes.modify wrapPos fun x => { x with next := -1 }, ?_, ?_, ?_, chain_init (by omega) ?_ ?_⟩
  · rw [initNodes_eq hbytes, hnodes]
    congr 1
    apply List.ext_getElem?
    intro i
    by_cases hi : i = wrapPos
    · subst hi
      rw [wrap_at, hcut _ (by omega), hget _ (by omega), if_pos rfl]
      generalize nodeAt v p wrapPos = x at hlast
      obtain ⟨id, prev, next, gen⟩ := x
      obtain rfl : next = 0 := hlast
      rfl
    · rw [wrap_of_ne hi]
      exact (List.getElem?_modify_ne _ _ (Ne.symm hi)).symm
  · rw [List.length_modify, hlength]
  · intro x hx
    obtain ⟨i, hi⟩ := List.mem_iff_getElem?.1 hx
    obtain ⟨-, rfl⟩ := hall i x hi
    split <;> rfl
  · intro i hi
    rw [hcut i (by omega), if_neg (by omega)]
  · intro i hi hlow x hx
    obtain ⟨hip, rfl⟩ := hall i x hx
    split
    · show (-1 : Int) < 0
      decide
    · exact initNext_neg (by omega) (by omega)

/-- The walk over the list with the link. -/
theorem Chain.walk_wrap (h : Chain stop nd L xs) {n cap : Nat} (hn : xs.length ≤ n) (hcap : n ≤ cap) :
    loop (walkIds (wrap nd) cap) (n + 1) (0, []) = .ok xs := by
  have hsame : ∀ bound k ids, loop (walkIds (wrap nd) cap) bound (linkTo stop L k, ids) =
      loop (walkIds nd cap) bound (linkTo stop L k, ids) := by
    intro bound
    induction bound with
    | zero => exact fun _ _ => rfl
    | succ bound ih =>
      intro k ids
      rw [loop, loop, walkIds, walkIds]
      split
      · next hlink =>
        obtain ⟨i, hi, hlinkTo⟩ := (linkTo_nonneg h.stop_neg).1 hlink
        obtain ⟨x, g, -, hnd⟩ := h.node k i hi
        rw [hlinkTo, Int.toNat_natCast, index_wrap (h.ne_wrapPos (List.mem_of_getElem? hi)), index_of_some hnd,
          Run.ok_bind]
        cases append cap ids x with
        | error e => rfl
        | ok ids' => exact ih (k + 1) ids'
      · rfl
  have hstart := hsame (n + 1) 0 []
  rw [linkTo_of_some h.head] at hstart
  exact hstart.trans (h.walk hn hcap)

/-- The walk from a node 0 that is linked to nothing. -/
theorem walk_alone {x : Node} (hx : nd[0]? = some x) (hnext : x.next < 0) {n cap : Nat} (hn : 0 < n) (hcap : 0 < cap) :
    loop (walkIds nd cap) (n + 1) (0, []) = .ok [x.id] := by
  obtain ⟨n, rfl⟩ : ∃ m, n = m + 1 := ⟨n - 1, by omega⟩
  have hfirst : walkIds nd cap (0, []) = .ok (.next (x.next, [x.id])) := by
    rw [walkIds, if_pos (Int.le_refl 0), Int.toNat_zero, index_of_some hx, Run.ok_bind, append_lt hcap]
    rfl
  rw [loop_next hfirst]
  apply loop_done
  rw [walkIds, if_neg (by omega)]

/-- The state of the merge loop over the list with the link. -/
def WrapAt (v : BpVocab) (stop : Int) (n : Nat) (start : List Nat) (s : List Node × List HeapEnt) : Prop :=
  (∃ nd L xs, s.1 = wrap nd ∧ LongState v stop n (nd, s.2) L xs ∧ Reaches v.rule start xs) ∨
    ∃ t rest, Frozen t s ∧ Reaches v.rule start (t :: rest)

/-- The nodes that the walk starts on. -/
def WrapLeft (v : BpVocab) (stop : Int) (start : List Nat) (nd : List Node) : Prop :=
  (∃ nd' L xs, nd = wrap nd' ∧ Chain stop nd' L xs ∧ Reaches v.rule start xs) ∨
    ∃ t rest, (∃ x : Node, nd[0]? = some x ∧ x.id = t ∧ x.next < 0) ∧ Reaches v.rule start (t :: rest)

theorem WrapAt.round (hv : v.Valid) {n : Nat} {start : List Nat} {s : List Node × List HeapEnt}
    (h : WrapAt v stop n start s) {flow : Flow (List Node × List HeapEnt) (Except Err (List Node))}
    (hrun : longRound v (2 * n) s = .ok flow) :
    (∀ s', flow = .next s' → WrapAt v stop n start s') ∧ ∀ nd, flow = .done (.ok nd) → WrapLeft v stop start nd := by
  obtain ⟨nd₀, heap⟩ := s
  rcases h with ⟨nd, L, xs, rfl, hs, hreach⟩ | ⟨t, rest, hfrozen, hreach⟩
  · cases longRound_wrapped hv hs hrun with
    | next hs' hxs =>
      constructor
      · rintro s' ⟨⟩
        refine .inl ⟨_, _, _, rfl, hs', ?_⟩
        rcases hxs with rfl | ⟨r, k, c, hbest, rfl⟩
        · exact hreach
        · exact hreach.snoc hbest
      · rintro nd' ⟨⟩
    | frozen head hfrozen =>
      subst head
      constructor
      · rintro s' ⟨⟩
        exact .inr ⟨_, _, hfrozen, hreach⟩
      · rintro nd' ⟨⟩
    | done =>
      constructor
      · rintro s' ⟨⟩
      · rintro nd' ⟨⟩
        exact .inl ⟨nd, L, xs, rfl, hs.chain, hreach⟩
    | failed e =>
      constructor
      · rintro s' ⟨⟩
      · rintro nd' ⟨⟩
  · obtain ⟨hnext, hdone⟩ := hfrozen.round hv hrun
    constructor
    · exact fun s' heq => .inr ⟨t, rest, hnext s' heq, hreach⟩
    · exact fun nd heq => .inr ⟨t, rest, hdone nd heq, hreach⟩

/-- What the walk reads. -/
theorem WrapLeft.walk {start : List Nat} (h : WrapLeft v stop start nd) {n : Nat} (hn : start.length ≤ n) (hpos : 0 < n) :
    ∃ ids ys, loop (walkIds nd n) (n + 1) (0, []) = .ok ids ∧ Reaches v.rule start ys ∧ ids <+: ys := by
  rcases h with ⟨nd', L, xs, rfl, hc, hreach⟩ | ⟨t, rest, ⟨x, hx, rfl, hnext⟩, hreach⟩
  · exact ⟨xs, xs, hc.walk_wrap (Nat.le_trans hreach.length_le hn) (Nat.le_refl _), hreach, List.prefix_refl _⟩
  · exact ⟨[x.id], _, walk_alone hx hnext hpos hpos, hreach, ⟨rest, rfl⟩⟩

/-- **The long path, of whatever length,** has a result: the first ids of a state of the greedy run on the bytes it
can link. -/
theorem longIds_exists (hv : v.Valid) {p : List UInt8} (hpos : 0 < p.length) :
    ∃ ids ys, longIds v p = some ids ∧ Reaches v.rule ((linked p).map v.byteToken) ys ∧ ids <+: ys := by
  rcases Nat.lt_or_ge (2 ^ 32) p.length with hlong | hshort
  swap
  · refine ⟨_, _, ?_, reaches_greedy _, List.prefix_refl _⟩
    rw [longIds, longRun_eq hv hpos hshort]
  have hlinked := length_linked p
  obtain ⟨nd, hinit, hn, hgen, hc⟩ := initNodes_wrap hv.bytes hlong
  obtain ⟨heap, hheap, hsize, hh⟩ := initHeap_spec hv hc hn (show p.length ≤ 2 * p.length by omega) hgen
  have hstart : WrapAt v (lastLink p) p.length ((linked p).map v.byteToken) (wrap nd, heap) := by
    refine .inl ⟨nd, _, _, rfl, ⟨hc, hh, hn, ?_⟩, .refl _⟩
    rw [List.length_range]
    dsimp only
    omega
  have hheap : initHeap v (2 * p.length) (wrap nd) p.length = .ok heap := by
    rw [← hheap]
    unfold initHeap
    simp only [pushPair_wrap]
  obtain ⟨left, hmerge⟩ := mergeLongIn_returns hv hpos
  have hloop := hmerge
  unfold mergeLongIn at hloop
  rw [hinit, Run.ok_bind, hheap, Run.ok_bind] at hloop
  have hleft := @loop_keeps _ _ (longRound v (2 * p.length))
    (WrapAt v (lastLink p) p.length ((linked p).map v.byteToken))
    (fun r => ∀ nd, r = .ok nd → WrapLeft v (lastLink p) ((linked p).map v.byteToken) nd)
    (fun s s' hs hround => (hs.round hv hround).1 s' rfl)
    (fun s r hs hround nd hr => (hs.round hv hround).2 nd (by rw [hr])) _ (wrap nd, heap) _ hstart hloop left rfl
  obtain ⟨ids, ys, hwalk, hreach, hprefix⟩ := hleft.walk (n := p.length) (by rw [List.length_map]; omega) hpos
  refine ⟨ids, ys, ?_, hreach, hprefix⟩
  unfold longIds longRun
  rw [hmerge, Run.ok_bind]
  dsimp only
  rw [hwalk]
  rfl

/-- Every pretoken comes to ids. -/
theorem pretokenIds_exists (hv : v.Valid) (p : List UInt8) : ∃ ids, pretokenIds v p = some ids := by
  unfold pretokenIds
  split
  · exact ⟨_, rfl⟩
  · split
    · next hlow hlong =>
      obtain ⟨ids, -, hids, -⟩ := longIds_exists hv (show 0 < p.length by omega)
      exact ⟨ids, hids⟩
    · exact ⟨_, rfl⟩

end Whole

end Bytepair
