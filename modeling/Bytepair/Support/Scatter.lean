import Mathlib.Data.List.Range
import Mathlib.Data.List.Sort

/-!
# Arrays filled by slices

Workers that compute the entries of an array in slices hand these over in no fixed order. Where every slice has the values
of one function, neither the order nor a repetition shows in the array; what is collected and sorted does not depend on
the order either.
-/

namespace Support

section Splice

variable {α : Type} {xs ys : List α} {lo : Nat}

/-- The entries from `lo` on replaced. -/
def splice (xs : List α) (lo : Nat) (ys : List α) : List α := xs.take lo ++ ys ++ xs.drop (lo + ys.length)

theorem length_splice (h : lo + ys.length ≤ xs.length) : (splice xs lo ys).length = xs.length := by
  simp only [splice, List.length_append, List.length_take, List.length_drop]
  omega

theorem getElem?_splice_inside (h : lo + ys.length ≤ xs.length) {i : Nat} (hlo : lo ≤ i) (hi : i < lo + ys.length) :
    (splice xs lo ys)[i]? = ys[i - lo]? := by
  have htake : (xs.take lo).length = lo := by
    rw [List.length_take]
    omega
  unfold splice
  rw [List.getElem?_append_left, List.getElem?_append_right, htake]
  · omega
  · rw [List.length_append, htake]
    exact hi

theorem getElem?_splice_outside (h : lo + ys.length ≤ xs.length) {i : Nat} (hi : ¬(lo ≤ i ∧ i < lo + ys.length)) :
    (splice xs lo ys)[i]? = xs[i]? := by
  have htake : (xs.take lo).length = lo := by
    rw [List.length_take]
    omega
  unfold splice
  rcases Nat.lt_or_ge i lo with hlt | hge
  · rw [List.append_assoc, List.getElem?_append_left (by omega), List.getElem?_take_of_lt hlt]
  · rw [List.getElem?_append_right, List.length_append, htake, List.getElem?_drop]
    · congr 1
      omega
    · rw [List.length_append, htake]
      omega

/-- The values of a function from `lo` on. -/
def slice (f : Nat → α) (lo n : Nat) : List α := (List.range' lo n).map f

theorem length_slice (f : Nat → α) (lo n : Nat) : (slice f lo n).length = n := by
  simp [slice]

/-- What has its place holds a value of the function, and so does all that had one before. -/
theorem getElem?_fill {f : Nat → α} {spans : List (Nat × Nat)} (h : ∀ s ∈ spans, s.1 + s.2 ≤ xs.length) :
    (spans.foldl (fun xs s => splice xs s.1 (slice f s.1 s.2)) xs).length = xs.length ∧
      ∀ i, (xs[i]? = some (f i) ∨ ∃ s ∈ spans, s.1 ≤ i ∧ i < s.1 + s.2) →
        (spans.foldl (fun xs s => splice xs s.1 (slice f s.1 s.2)) xs)[i]? = some (f i) := by
  induction spans generalizing xs with
  | nil =>
    refine ⟨rfl, fun i hi => ?_⟩
    rcases hi with hi | ⟨s, hs, -⟩
    · exact hi
    · cases hs
  | cons s spans ih =>
    obtain ⟨hs, hrest⟩ := List.forall_mem_cons.1 h
    rw [← length_slice f s.1 s.2] at hs
    have hlen := length_splice hs
    obtain ⟨hlength, hfilled⟩ := @ih (splice xs s.1 (slice f s.1 s.2)) (by rwa [hlen])
    refine ⟨hlength.trans hlen, fun i hi => hfilled i ?_⟩
    by_cases hin : s.1 ≤ i ∧ i < s.1 + s.2
    · apply Or.inl
      rw [getElem?_splice_inside hs hin.1 (by rw [length_slice]; exact hin.2), slice, List.getElem?_map,
        List.getElem?_range' (by omega)]
      simp
      congr 1
      omega
    · rcases hi with hi | ⟨s', hs', hin'⟩
      · apply Or.inl
        rw [getElem?_splice_outside hs (by rwa [length_slice]), hi]
      · apply Or.inr
        rcases List.mem_cons.1 hs' with rfl | hs'
        · exact absurd hin' hin
        · exact ⟨s', hs', hin'⟩

end Splice

section Chunks

/-- The starts and the ends of the chunks of `chunk` entries that `size` entries are cut into. -/
def chunkBounds (size chunk : Nat) : List (Nat × Nat) :=
  (List.range ((size + chunk - 1) / chunk)).map fun i => (chunk * i, min (chunk * i + chunk) size)

/-- The chunks follow each other from the first entry to the last. -/
theorem flatMap_chunkBounds {size chunk : Nat} (h : 0 < chunk) :
    (chunkBounds size chunk).flatMap (fun b => List.range' b.1 (b.2 - b.1)) = List.range size := by
  have key : ∀ k, (List.range k).flatMap (fun i => List.range' (chunk * i) (min (chunk * i + chunk) size - chunk * i)) =
      List.range (min (chunk * k) size) := by
    intro k
    induction k with
    | zero => simp
    | succ k ih =>
      rw [List.range_succ, List.flatMap_append, ih, List.flatMap_singleton, Nat.mul_succ]
      rcases Nat.le_total size (chunk * k) with hle | hle
      · rw [Nat.min_eq_right hle, Nat.min_eq_right (by omega), Nat.sub_eq_zero_of_le hle, List.range'_zero, List.append_nil]
      · have happend := @List.range'_append_1 0 (chunk * k) (min (chunk * k + chunk) size - chunk * k)
        rw [Nat.zero_add] at happend
        rw [Nat.min_eq_left hle, List.range_eq_range', List.range_eq_range', happend, Nat.add_sub_cancel' (by omega)]
  unfold chunkBounds
  rw [List.flatMap_map, key, Nat.min_eq_right]
  have hlt := Nat.lt_mul_div_succ (size + chunk - 1) h
  rw [Nat.mul_succ] at hlt
  omega

theorem chunkBounds_le {size chunk : Nat} {b : Nat × Nat} (h : b ∈ chunkBounds size chunk) : b.1 ≤ b.2 ∧ b.2 ≤ size := by
  obtain ⟨i, hi, rfl⟩ := List.mem_map.1 h
  have hlt : i < (size + chunk - 1) / chunk := List.mem_range.1 hi
  have hle := (Nat.mul_le_mul_left chunk hlt).trans (Nat.mul_div_le (size + chunk - 1) chunk)
  rw [Nat.mul_succ] at hle
  dsimp only
  omega

/-- Every entry is in a chunk. -/
theorem exists_chunk {size chunk i : Nat} (h : 0 < chunk) (hi : i < size) :
    ∃ b ∈ chunkBounds size chunk, b.1 ≤ i ∧ i < b.1 + (b.2 - b.1) := by
  have hmem : i ∈ (chunkBounds size chunk).flatMap (fun b => List.range' b.1 (b.2 - b.1)) := by
    rw [flatMap_chunkBounds h]
    exact List.mem_range.2 hi
  obtain ⟨b, hb, hin⟩ := List.mem_flatMap.1 hmem
  exact ⟨b, hb, List.mem_range'_1.1 hin⟩

end Chunks

section Sorted

variable {α : Type} {le : α → α → Bool}

/-- What is sorted does not show the order it came in. -/
theorem mergeSort_eq_of_perm {xs ys : List α} (trans : ∀ a b c, le a b → le b c → le a c) (total : ∀ a b, le a b || le b a)
    (antisymm : ∀ a b, le a b → le b a → a = b) (h : xs.Perm ys) : xs.mergeSort le = ys.mergeSort le := by
  apply List.Perm.eq_of_pairwise
  · exact fun a b _ _ => antisymm a b
  · exact List.pairwise_mergeSort trans total xs
  · exact List.pairwise_mergeSort trans total ys
  · exact (List.mergeSort_perm xs le).trans (h.trans (List.mergeSort_perm ys le).symm)

end Sorted

end Support
