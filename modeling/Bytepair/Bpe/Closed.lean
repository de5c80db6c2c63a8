import Bytepair.Bpe.Pretoken

/-!
# Ids that merging leads to

A set of ids that has the token of every byte and is closed under the merge rule has every id a
pretoken comes to, however long the pretoken is: `pretokenIds_forall`. On the long path this
is what a round keeps of the nodes, linked or not.
-/

namespace Bytepair
open Support

/-- A set of ids that merging does not leave. -/
structure BpVocab.Closed (v : BpVocab) (S : Nat → Prop) : Prop where
  byte : ∀ b, S (v.byteToken b)
  rule : ∀ a b r c, S a → S b → v.rule a b = some (r, c) → S c

section Nodes

variable {v : BpVocab} {S : Nat → Prop}

/-- Every node has an id of the set. -/
def NodesIn (S : Nat → Prop) (nd : List Node) : Prop := ∀ x ∈ nd, S x.id

theorem NodesIn.get {nd : List Node} (h : NodesIn S nd) {i : Nat} {x : Node} (hx : nd[i]? = some x) : S x.id :=
  h x (List.mem_of_getElem? hx)

/-- Storing an id of the set keeps the nodes in it. -/
theorem NodesIn.store {nd nd' : List Node} (h : NodesIn S nd) {i : Nat} {x : Node} (hx : S x.id)
    (hstore : store nd i x = .ok nd') : NodesIn S nd' := by
  obtain ⟨-, rfl⟩ := store_eq_ok.1 hstore
  intro y hy
  rcases List.mem_or_eq_of_mem_set hy with hold | rfl
  · exact h y hold
  · exact hx

theorem NodesIn.setPrev {nd nd' : List Node} (h : NodesIn S nd) {k : Int} {i : Nat}
    (hrun : setPrev nd k i = .ok nd') : NodesIn S nd' := by
  unfold Bytepair.setPrev at hrun
  split at hrun
  · obtain ⟨z, hz, hrun⟩ := bind_eq_ok.1 hrun
    generalize int32 i = prev at hrun
    have hid : S z.id := h.get (index_eq_ok.1 hz)
    exact NodesIn.store (x := { z with prev }) h hid hrun
  · cases hrun
    exact h

/-- Taking a pair together keeps the nodes in the set, if the merged id is in it. -/
theorem NodesIn.unlink {nd nd' : List Node} (h : NodesIn S nd) {i j id : Nat} (hid : S id)
    (hrun : unlink nd i j id = .ok nd') : NodesIn S nd' := by
  obtain ⟨x, -, hrun⟩ := bind_eq_ok.1 hrun
  obtain ⟨y, -, hrun⟩ := bind_eq_ok.1 hrun
  obtain ⟨nd₁, h₁, hrun⟩ := bind_eq_ok.1 hrun
  obtain ⟨nd₂, h₂, hrun⟩ := bind_eq_ok.1 hrun
  obtain ⟨z, hz, hrun⟩ := bind_eq_ok.1 hrun
  have hnd₂ := (h.store hid h₁).setPrev h₂
  have hz : S z.id := hnd₂.get (index_eq_ok.1 hz)
  exact NodesIn.store (x := { z with next := -1, prev := -1 }) hnd₂ hz hrun

/-- The nodes begin with the tokens of bytes. -/
theorem initNodes_in (hv : v.Valid) (hS : v.Closed S) {p : List UInt8} {nd : List Node}
    (h : initNodes v p = .ok nd) : NodesIn S nd := by
  unfold initNodes at h
  generalize List.range p.length = is at h
  induction is generalizing nd with
  | nil =>
    cases h
    intro x hx
    cases hx
  | cons i is ih =>
    rw [List.mapM_cons] at h
    obtain ⟨x, hx, h⟩ := bind_eq_ok.1 h
    obtain ⟨xs, hxs, h⟩ := bind_eq_ok.1 h
    cases h
    obtain ⟨b, -, hx⟩ := bind_eq_ok.1 hx
    obtain ⟨id, hid, hx⟩ := bind_eq_ok.1 hx
    cases hx
    have hlt := b.toNat_lt
    rw [index_getD 0 (by rw [hv.bytes]; omega)] at hid
    cases hid
    exact List.forall_mem_cons.2 ⟨hS.byte b, ih hxs⟩

/-- A round of the merge loop keeps the nodes in the set. -/
theorem longRound_in (hv : v.Valid) (hS : v.Closed S) {heapCap : Nat} {nd : List Node} {heap : List HeapEnt}
    (h : NodesIn S nd) {flow : Flow (List Node × List HeapEnt) (Except Err (List Node))}
    (hrun : longRound v heapCap (nd, heap) = .ok flow) :
    (∀ s, flow = .next s → NodesIn S s.1) ∧ ∀ nd', flow = .done (.ok nd') → NodesIn S nd' := by
  cases longRound_cases hv hrun with
  | stop =>
    constructor
    · rintro s ⟨⟩
    · rintro nd' ⟨⟩
      exact h
  | stale =>
    constructor
    · rintro s ⟨⟩
      exact h
    · rintro nd' ⟨⟩
  | nomem =>
    constructor
    · rintro s ⟨⟩
    · rintro nd' ⟨⟩
  | merge _ left _ _ right rule unlinked =>
    constructor
    · rintro s ⟨⟩
      exact h.unlink (hS.rule _ _ _ _ (h.get left) (h.get right) rule) unlinked
    · rintro nd' ⟨⟩

/-- The merge loop leaves nodes of the set. -/
theorem mergeLongIn_in (hv : v.Valid) (hS : v.Closed S) {p : List UInt8} {nd : List Node}
    (h : mergeLongIn v p = .ok (.ok nd)) : NodesIn S nd := by
  obtain ⟨nd₀, hnodes, h⟩ := bind_eq_ok.1 h
  obtain ⟨heap, -, h⟩ := bind_eq_ok.1 h
  have hpost := @loop_keeps _ _ _ (fun s => NodesIn S s.1) (fun r => ∀ nd, r = .ok nd → NodesIn S nd)
    (fun s s' hs hround => (longRound_in hv hS hs hround).1 s' rfl)
    (fun s r hs hround nd hr => (longRound_in hv hS hs hround).2 nd (by rw [hr])) _ _ _ (initNodes_in hv hS hnodes) h
  exact hpost nd rfl

/-- The walk over the links only meets ids of the nodes. -/
theorem walkIds_in {nd : List Node} (hnd : NodesIn S nd) {cap bound : Nat} {i : Int} {ids : List Nat}
    (h : loop (walkIds nd cap) bound (i, []) = .ok ids) : ∀ id ∈ ids, S id := by
  refine @loop_keeps _ _ _ (fun s => ∀ id ∈ s.2, S id) (fun ids => ∀ id ∈ ids, S id) ?_ ?_ _ _ _ ?_ h
  · rintro ⟨i, ids⟩ s' hids hround
    rw [walkIds] at hround
    split at hround
    · obtain ⟨x, hx, hround⟩ := bind_eq_ok.1 hround
      obtain ⟨ids', happend, hround⟩ := bind_eq_ok.1 hround
      cases hround
      unfold append at happend
      split at happend
      · cases happend
        intro id hid
        rcases List.mem_append.1 hid with hold | hnew
        · exact hids id hold
        · rw [List.mem_singleton.1 hnew]
          exact hnd.get (index_eq_ok.1 hx)
      · cases happend
    · cases hround
  · rintro ⟨i, ids⟩ ids' hids hround
    rw [walkIds] at hround
    split at hround
    · obtain ⟨x, hx, hround⟩ := bind_eq_ok.1 hround
      obtain ⟨ids', happend, hround⟩ := bind_eq_ok.1 hround
      cases hround
    · cases hround
      exact hids
  · intro id hid
    cases hid

/-- Ids of the long path were read off the nodes that the merge loop left. -/
theorem longIds_eq_some {p : List UInt8} {ids : List Nat} (h : longIds v p = some ids) :
    ∃ nd, mergeLongIn v p = .ok (.ok nd) ∧ loop (walkIds nd p.length) (p.length + 1) (0, []) = .ok ids := by
  unfold longIds longRun at h
  split at h
  · next hrun =>
    cases h
    obtain ⟨r, hmerge, hrun⟩ := bind_eq_ok.1 hrun
    cases r with
    | error e => cases hrun
    | ok nd =>
      obtain ⟨ids, hwalk, hrun⟩ := bind_eq_ok.1 hrun
      cases hrun
      exact ⟨nd, hmerge, hwalk⟩
  · cases h

theorem longIds_forall (hv : v.Valid) (hS : v.Closed S) {p : List UInt8} {ids : List Nat}
    (h : longIds v p = some ids) : ∀ id ∈ ids, S id := by
  obtain ⟨nd, hmerge, hwalk⟩ := longIds_eq_some h
  exact walkIds_in (mergeLongIn_in hv hS hmerge) hwalk

/-- **What a pretoken comes to is in the set.** -/
theorem pretokenIds_forall (hv : v.Valid) (hS : v.Closed S) {p : List UInt8} {ids : List Nat}
    (h : pretokenIds v p = some ids) : ∀ id ∈ ids, S id := by
  have hbytes : ∀ id ∈ p.map v.byteToken, S id := by
    intro id hid
    obtain ⟨b, -, rfl⟩ := List.mem_map.1 hid
    exact hS.byte b
  unfold pretokenIds at h
  split at h
  · cases h
    exact greedy_forall _ hS.rule hbytes
  split at h
  · exact longIds_forall hv hS h
  · cases h
    exact greedy_forall _ (fun a b r c ha hb hrule => hS.rule a b r c ha hb (shortRule_eq_some.1 hrule).1) hbytes

end Nodes

end Bytepair
