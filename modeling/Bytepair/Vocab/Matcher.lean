import Bytepair.Vocab.Valid
import Mathlib.Data.List.Perm.Basic

/-!
# The added-token matcher

What `bp_vocab_open` prepares for the added-token scan: the records in the order in which
they are tried, and the first bytes a match can have.
-/

namespace Bytepair
open Support

section Order

variable {len : Nat → Nat}

/-- Longer tokens first, and among equals the one of lower index. -/
def Before (len : Nat → Nat) (i j : Nat) : Prop := len j < len i ∨ len i = len j ∧ i < j

/-- Insertion keeps the records. -/
theorem insertOrder_perm (k : Nat) (js : List Nat) : (insertOrder len k js).Perm (k :: js) := by
  induction js with
  | nil => exact .refl _
  | cons j js ih =>
    rw [insertOrder]
    split
    · exact (ih.cons j).trans (.swap k j js)
    · exact .refl _

/-- The sorted records before `k`, last first, and `k` among them. -/
theorem insertOrder_sorted {k : Nat} {js : List Nat} (hk : ∀ j ∈ js, j < k)
    (hjs : js.Pairwise fun i j => Before len j i) :
    (insertOrder len k js).Pairwise fun i j => Before len j i := by
  induction js with
  | nil => exact List.pairwise_singleton _ _
  | cons j js ih =>
    obtain ⟨hj, hjs⟩ := List.pairwise_cons.1 hjs
    obtain ⟨hjk, hk⟩ := List.forall_mem_cons.1 hk
    rw [insertOrder]
    split
    · next hlt =>
      refine List.pairwise_cons.2 ⟨fun i hi => ?_, ih hk hjs⟩
      rcases List.mem_cons.1 ((insertOrder_perm k js).mem_iff.1 hi) with rfl | hi
      · exact .inl hlt
      · exact hj i hi
    · next hge =>
      refine List.pairwise_cons.2 ⟨fun i hi => ?_, List.pairwise_cons.2 ⟨hj, hjs⟩⟩
      have hkj : Before len j k := by unfold Before; omega
      rcases List.mem_cons.1 hi with rfl | hi
      · exact hkj
      · have hij := hj i hi
        have hik := hk i hi
        unfold Before at *
        omega

/-- The insertion sort puts the records in the order `Before`, each once. -/
theorem orderByLength_spec (len : Nat → Nat) (n : Nat) :
    (orderByLength len n).Perm (List.range n) ∧ (orderByLength len n).Pairwise (Before len) := by
  have key : ((List.range n).foldl (fun js k => insertOrder len k js) []).Perm (List.range n) ∧
      ((List.range n).foldl (fun js k => insertOrder len k js) []).Pairwise fun i j => Before len j i := by
    induction n with
    | zero => exact ⟨.refl _, .nil⟩
    | succ n ih =>
      obtain ⟨hperm, hsorted⟩ := ih
      rw [List.range_succ, List.foldl_append, List.foldl_cons, List.foldl_nil]
      refine ⟨?_, insertOrder_sorted (fun j hj => ?_) hsorted⟩
      · exact (insertOrder_perm _ _).trans ((hperm.cons n).trans (List.perm_append_singleton _ _).symm)
      · exact List.mem_range.1 (hperm.mem_iff.1 hj)
  unfold orderByLength
  exact ⟨(List.reverse_perm _).trans key.1, List.pairwise_reverse.2 key.2⟩

end Order

section FirstBytes

/-- The test of a byte against `added_first_map`. -/
def testFirst (map : List UInt8) (b : UInt8) : Bool :=
  (map[(b >>> 3).toNat]?.getD 0) &&& (1 <<< (b &&& 7)) != 0

theorem toNat_shiftRight_3 (b : UInt8) : (b >>> 3).toNat = b.toNat / 8 := by
  rw [UInt8.toNat_shiftRight]
  exact Nat.shiftRight_eq_div_pow b.toNat 3

theorem toNat_and_7 (b : UInt8) : (b &&& 7).toNat = b.toNat % 8 := by
  rw [UInt8.toNat_and]
  exact Nat.and_two_pow_sub_one_eq_mod _ 3

/-- Bits of the map, by the low bits of a byte. -/
theorem bit_and_bit (b fb : UInt8) :
    ((1 : UInt8) <<< (fb &&& 7)) &&& (1 <<< (b &&& 7)) = 0 ↔ fb &&& 7 ≠ b &&& 7 := by
  have all : ∀ i j : Fin 8, ((1 : UInt8) <<< UInt8.ofNat i.1) &&& (1 <<< UInt8.ofNat j.1) = 0 ↔ i ≠ j := by
    decide +kernel
  have := all ⟨(fb &&& 7).toNat, by rw [toNat_and_7]; omega⟩ ⟨(b &&& 7).toNat, by rw [toNat_and_7]; omega⟩
  simpa only [UInt8.ofNat_toNat, ne_eq, Fin.mk.injEq, UInt8.toNat_inj] using this

/-- The cell and the bit of a byte in the map determine it. -/
theorem byte_ext {b fb : UInt8} (hhigh : b >>> 3 = fb >>> 3) (hlow : b &&& 7 = fb &&& 7) : b = fb := by
  apply UInt8.toNat_inj.1
  have hdiv := congrArg UInt8.toNat hhigh
  have hmod := congrArg UInt8.toNat hlow
  rw [toNat_shiftRight_3, toNat_shiftRight_3] at hdiv
  rw [toNat_and_7, toNat_and_7] at hmod
  omega

@[simp] theorem length_setFirst (map : List UInt8) (fb : UInt8) : (setFirst map fb).length = map.length := by
  simp [setFirst]

/-- Setting the bit of a byte sets no other. -/
theorem testFirst_setFirst {map : List UInt8} (hlen : map.length = 32) (fb b : UInt8) :
    testFirst (setFirst map fb) b = (testFirst map b || b == fb) := by
  have hcell : (b >>> 3).toNat < map.length := by
    have := b.toNat_lt
    rw [hlen, toNat_shiftRight_3]
    omega
  have hget : (setFirst map fb)[(b >>> 3).toNat]?.getD 0 =
      if fb >>> 3 = b >>> 3 then map[(b >>> 3).toNat] ||| 1 <<< (fb &&& 7) else map[(b >>> 3).toNat] := by
    unfold setFirst
    rw [List.getElem?_modify, List.getElem?_eq_getElem hcell]
    simp only [UInt8.toNat_inj]
    split <;> rfl
  unfold testFirst
  rw [hget, List.getElem?_eq_getElem hcell, Option.getD_some]
  generalize map[(b >>> 3).toNat] = cell
  by_cases hhigh : fb >>> 3 = b >>> 3
  · have hdistrib : (cell ||| 1 <<< (fb &&& 7)) &&& 1 <<< (b &&& 7) =
        cell &&& 1 <<< (b &&& 7) ||| 1 <<< (fb &&& 7) &&& 1 <<< (b &&& 7) := by
      apply UInt8.toNat_inj.1
      simp only [UInt8.toNat_and, UInt8.toNat_or, Nat.and_or_distrib_right]
    have hlow : b = fb ↔ fb &&& 7 = b &&& 7 :=
      ⟨fun h => by rw [h], fun h => byte_ext hhigh.symm h.symm⟩
    rw [if_pos hhigh, hdistrib, Bool.eq_iff_iff]
    simp only [bne_iff_ne, ne_eq, UInt8.or_eq_zero_iff, bit_and_bit, Bool.or_eq_true, beq_iff_eq, hlow, not_and_or,
      not_not]
  · have hne : b ≠ fb := fun h => hhigh (by rw [h])
    rw [if_neg hhigh, beq_eq_false_iff_ne.2 hne, Bool.or_false]

/-- The map has the bits of the first bytes it was built from. -/
theorem testFirst_foldl (fbs : List UInt8) {map : List UInt8} (hlen : map.length = 32) (b : UInt8) :
    testFirst (fbs.foldl setFirst map) b = (testFirst map b || fbs.contains b) := by
  induction fbs generalizing map with
  | nil => simp
  | cons fb fbs ih =>
    rw [List.foldl_cons, ih (by rw [length_setFirst, hlen]), testFirst_setFirst hlen, List.contains_cons,
      Bool.or_assoc]

/-- No bit is set to begin with. -/
theorem testFirst_empty (b : UInt8) : testFirst (List.replicate 32 0) b = false := by
  unfold testFirst
  have hcell : (List.replicate 32 (0 : UInt8))[(b >>> 3).toNat]?.getD 0 = 0 := by
    rw [List.getElem?_replicate]
    split <;> rfl
  rw [hcell]
  simp

end FirstBytes

section Matcher

/-- The bytes of an added token, and the first of them. -/
def BpVocab.addedBytes (v : BpVocab) (a : BpvAdded) : List UInt8 := v.span a.id

def BpVocab.addedByte (v : BpVocab) (a : BpvAdded) : UInt8 := v.blob[a.offset]?.getD 0

/-- The length of a record, by its index. -/
def BpVocab.addedLen (v : BpVocab) (k : Nat) : Nat := (v.added[k]?.map BpvAdded.len).getD 0

/-- What the matcher of a handle says of its records. -/
structure BpVocab.MatcherOk (v : BpVocab) : Prop where
  order : v.addedOrder.Perm (List.range v.added.length)
  longest : v.addedOrder.Pairwise (Before v.addedLen)
  single : v.addedSingleFirst = true → ∀ a ∈ v.added, v.addedByte a = v.addedFirst
  first : ∀ b, testFirst v.addedFirstMap b = true ↔ ∃ a ∈ v.added, v.addedByte a = b
  map : v.addedFirstMap.length = 32

end Matcher

end Bytepair
