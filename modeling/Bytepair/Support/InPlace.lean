import Bytepair.Support.Canonical
import Bytepair.Support.Run

/-!
# Ordering in place

The insertion sort of `Support.Canonical` as a loop over an array: the next symbol sinks below the heavier ones before
it, which move up by one. `orderInPlace_eq`: no access is out of bounds, and what is left is `reorder`.
-/

namespace Support.Canonical

section Loop

variable {α : Type} (weight : α → Nat)

/-- Move the symbols above index `j` that are heavier than `t` up by one. -/
def sinkInPlace (t : α) (buf : List α) : Nat → Run (Flow (List α × Nat) (List α × Nat))
  | 0 => .ok (.done (buf, 0))
  | j + 1 => do
    let x ← index buf j
    if weight x > weight t then pure (.next (← store buf (j + 1) x, j))
    else pure (.done (buf, j + 1))

/-- Put symbol `i` where it belongs among the symbols before it. -/
def insertInPlace (buf : List α) (i : Nat) : Run (List α) := do
  let t ← index buf i
  if weight t = 0 then pure buf
  else
    let (buf, j) ← loop (fun (buf, j) => sinkInPlace weight t buf j) (i + 1) (buf, i)
    store buf j t

/-- Stable insertion sort within the runs of nonzero weight. -/
def orderInPlace (buf : List α) : Run (List α) := (List.range' 1 (buf.length - 1)).foldlM (insertInPlace weight) buf

variable {weight}

/-- A round of the sinking loop keeps what `t` will sink to, or has reached its place. -/
theorem sinkInPlace_spec (t : α) (goal : List α) (p : List α × Nat)
    (h : ∃ below above x, p.1 = below.reverse ++ x :: above ∧ p.2 = below.length ∧
      (sink weight t below).reverse ++ above = goal) :
    (∃ p', sinkInPlace weight t p.1 p.2 = .ok (.next p') ∧
      (∃ below above x, p'.1 = below.reverse ++ x :: above ∧ p'.2 = below.length ∧
        (sink weight t below).reverse ++ above = goal) ∧ p'.2 < p.2) ∨
    ∃ p', sinkInPlace weight t p.1 p.2 = .ok (.done p') ∧ p'.2 < p'.1.length ∧ p'.1.set p'.2 t = goal := by
  obtain ⟨buf, j⟩ := p
  obtain ⟨below, above, x, rfl, rfl, hsink⟩ := h
  cases below with
  | nil =>
    refine .inr ⟨([x] ++ above, 0), rfl, by simp, ?_⟩
    rw [← hsink]
    simp [sink]
  | cons y below =>
    have hread : index ((y :: below).reverse ++ x :: above) below.length = .ok y :=
      index_of_some (by simp)
    simp only [sinkInPlace, List.length_cons, hread, Run.ok_bind]
    by_cases hlt : weight y > weight t
    · refine .inl ⟨(below.reverse ++ y :: (y :: above), below.length), ?_, ⟨below, y :: above, y, rfl, rfl, ?_⟩,
        Nat.lt_succ_self _⟩
      · rw [if_pos hlt, store_lt (by simp)]
        simp
      · rw [← hsink, sink, if_pos hlt]
        simp
    · refine .inr ⟨((y :: below).reverse ++ x :: above, below.length + 1), by rw [if_neg hlt]; rfl, by simp, ?_⟩
      rw [← hsink, sink, if_neg hlt]
      simp

/-- The sinking loop opens the place where `t` goes. -/
theorem sink_loop (t : α) (stack tail : List α) (hole : α) :
    ∃ buf j, loop (fun (buf, j) => sinkInPlace weight t buf j) (stack.length + 1)
        (stack.reverse ++ hole :: tail, stack.length) = .ok (buf, j) ∧ j < buf.length ∧
      buf.set j t = (sink weight t stack).reverse ++ tail := by
  obtain ⟨⟨buf, j⟩, hrun, hpost⟩ := loop_rule
    (fun p : List α × Nat => ∃ below above x, p.1 = below.reverse ++ x :: above ∧
      p.2 = below.length ∧
      (sink weight t below).reverse ++ above = (sink weight t stack).reverse ++ tail)
    (fun p : List α × Nat => p.2)
    (fun p : List α × Nat => p.2 < p.1.length ∧
      p.1.set p.2 t = (sink weight t stack).reverse ++ tail)
    (sinkInPlace_spec t _) (stack.length + 1) (stack.reverse ++ hole :: tail, stack.length)
    ⟨stack, tail, hole, rfl, rfl, rfl⟩ (Nat.lt_succ_self _)
  exact ⟨buf, j, hrun, hpost⟩

/-- One round of the ordering loop puts the next symbol on the stack of ordered ones. -/
theorem insertInPlace_eq (stack : List α) (t : α) (tail : List α) :
    insertInPlace weight (stack.reverse ++ t :: tail) stack.length =
      .ok ((place weight stack t).reverse ++ tail) := by
  have hread : index (stack.reverse ++ t :: tail) stack.length = .ok t := index_of_some (by simp)
  unfold insertInPlace place
  rw [hread, Run.ok_bind]
  by_cases ht : weight t = 0
  · rw [if_pos ht, if_pos ht]
    simp
  · obtain ⟨buf, j, hrun, hj, hset⟩ := @sink_loop α weight t stack tail t
    rw [if_neg ht, if_neg ht, hrun, Run.ok_bind]
    dsimp only
    rw [store_lt hj, hset]

theorem length_foldl_place (xs stack : List α) : (xs.foldl (place weight) stack).length = stack.length + xs.length := by
  have h := (foldl_place_shuffle xs stack : Shuffle weight _ _).perm.length_eq
  simpa using h

/-- **The ordering loop** is the insertion sort. -/
theorem orderInPlace_eq (xs : List α) : orderInPlace weight xs = .ok (reorder weight xs) := by
  unfold orderInPlace
  cases xs with
  | nil => rfl
  | cons x xs =>
    let Inv : List Nat → List α → Prop := fun done buf =>
      buf = (((x :: xs).take (done.length + 1)).foldl (place weight) []).reverse ++
        (x :: xs).drop (done.length + 1)
    have hinit : Inv [] (x :: xs) := by simp [Inv, place, sink]
    have hround : ∀ done i todo buf,
        [] ++ List.range' 1 ((x :: xs).length - 1) = done ++ i :: todo → Inv done buf →
        ∃ buf', insertInPlace weight buf i = .ok buf' ∧ Inv (done ++ [i]) buf' := by
      rintro done i todo buf hsplit rfl
      obtain ⟨rfl, hlt⟩ := range'_split hsplit
      have hlt' : done.length + 1 < (x :: xs).length := by simpa using hlt
      have hlen := @length_foldl_place α weight ((x :: xs).take (done.length + 1)) []
      rw [List.length_nil, List.length_take, Nat.min_eq_left hlt'.le, Nat.zero_add] at hlen
      have hstep := @insertInPlace_eq α weight (((x :: xs).take (done.length + 1)).foldl (place weight) [])
        (x :: xs)[done.length + 1] ((x :: xs).drop (done.length + 2))
      rw [hlen, ← List.drop_eq_getElem_cons hlt'] at hstep
      refine ⟨_, by rw [Nat.add_comm 1, hstep], ?_⟩
      simp only [Inv]
      rw [List.length_append, List.length_singleton, ← List.take_append_getElem hlt',
        List.foldl_append]
      rfl
    obtain ⟨buf, hrun, hbuf⟩ := foldlM_rule Inv _ [] (x :: xs) hinit hround
    rw [hrun, hbuf]
    simp [reorder]

end Loop

end Support.Canonical
