import Bytepair.Vocab.Open

/-!
# The pair lookup

`bpPairLookup_eq`: over a valid handle the probe stops, whatever the table holds, and it
finds what `BpVocab.lookup` says. The merge rule of a handle is `BpVocab.rule`.
-/

namespace Bytepair
open Support Support.Probing

/-- The key of a pair of ids. -/
def pairKey (a b : Nat) : Nat := a <<< 32 ||| b

/-- The slot at which the probe for a key starts. -/
def pairHash (v : BpVocab) (key : Nat) : Nat := bpFmix64 key % v.hdr.slots

/-- What the table holds for a pair: a value, or `BPV_PAIR_EMPTY`. -/
def BpVocab.lookup (v : BpVocab) (a b : Nat) : Nat :=
  match probe (stops (keyOf v.pairs) BPV_PAIR_EMPTY (pairKey a b)) v.hdr.slots v.hdr.slots
      (pairHash v (pairKey a b)) with
  | some s => if keyOf v.pairs s = pairKey a b then valueOf v.pairs s else BPV_PAIR_EMPTY
  | none => BPV_PAIR_EMPTY

/-- The rank of a pair of ids and the id it merges to, where the table has one. -/
def BpVocab.rule (v : BpVocab) (a b : Nat) : Option (Nat × Nat) :=
  if v.lookup a b = BPV_PAIR_EMPTY then none else some (v.lookup a b >>> 32, v.lookup a b % 2 ^ 32)

theorem slots_pos (h : BpvHeader) : 0 < h.slots := by
  unfold BpvHeader.slots
  rw [Nat.one_shiftLeft]
  exact Nat.two_pow_pos _

theorem and_mask (h : BpvHeader) (x : Nat) : x &&& (h.slots - 1) = x % h.slots := by
  unfold BpvHeader.slots
  rw [Nat.one_shiftLeft]
  exact Nat.and_two_pow_sub_one_eq_mod x _

theorem pairKey_lt {a b count : Nat} (hcount : count ≤ 2 ^ 21) (ha : a < count) (hb : b < count) :
    pairKey a b < BPV_PAIR_EMPTY ∧ pairKey a b = a * 2 ^ 32 + b := by
  have heq : pairKey a b = a * 2 ^ 32 + b := by
    unfold pairKey
    rw [← Nat.shiftLeft_add_eq_or_of_lt (show b < 2 ^ 32 by omega), Nat.shiftLeft_eq]
  refine ⟨?_, heq⟩
  rw [heq]
  unfold BPV_PAIR_EMPTY
  omega

section Lookup

variable {v : BpVocab}

theorem BpVocab.Valid.index_key (hv : v.Valid) {s : Nat} (hs : s < v.hdr.slots) :
    index v.pairs (s * 2) = .ok (keyOf v.pairs s) :=
  index_getD _ (by rw [hv.slots]; omega)

theorem BpVocab.Valid.index_value (hv : v.Valid) {s : Nat} (hs : s < v.hdr.slots) :
    index v.pairs (s * 2 + 1) = .ok (valueOf v.pairs s) :=
  index_getD _ (by rw [hv.slots]; omega)

/-- The loop of the lookup walks as `probe` does. -/
theorem lookup_loop (hv : v.Valid) (key bound : Nat) {s t : Nat} (hs : s < v.hdr.slots)
    (h : probe (stops (keyOf v.pairs) BPV_PAIR_EMPTY key) v.hdr.slots bound s = some t) :
    loop (lookupRound v key) bound s =
      .ok (if keyOf v.pairs t = key then valueOf v.pairs t else BPV_PAIR_EMPTY) := by
  induction bound generalizing s with
  | zero => cases h
  | succ bound ih =>
    rw [probe] at h
    by_cases hstop : stops (keyOf v.pairs) BPV_PAIR_EMPTY key s = true
    · rw [if_pos hstop] at h
      obtain rfl := Option.some.inj h
      apply loop_done
      simp only [lookupRound, hv.index_key hs, hv.index_value hs, Run.ok_bind]
      simp only [stops, Bool.or_eq_true, decide_eq_true_eq] at hstop
      by_cases hkey : keyOf v.pairs s = key
      · rw [if_pos hkey, if_pos hkey]
        rfl
      · rw [if_neg hkey, if_neg hkey, if_pos (hstop.resolve_left hkey)]
        rfl
    · rw [if_neg hstop] at h
      simp only [stops, Bool.or_eq_true, decide_eq_true_eq, not_or] at hstop
      have hround : lookupRound v key s = .ok (.next ((s + 1) % v.hdr.slots)) := by
        simp only [lookupRound, hv.index_key hs, Run.ok_bind, if_neg hstop.1, if_neg hstop.2, hv.mask, and_mask]
        rfl
      rw [loop_next hround]
      exact ih (Nat.mod_lt _ (slots_pos _)) h

/-- The probe for a pair stops. -/
theorem BpVocab.Valid.exists_probe (hv : v.Valid) (a b : Nat) :
    ∃ t < v.hdr.slots, probe (stops (keyOf v.pairs) BPV_PAIR_EMPTY (pairKey a b)) v.hdr.slots v.hdr.slots
      (pairHash v (pairKey a b)) = some t := by
  have hstart : pairHash v (pairKey a b) < v.hdr.slots := Nat.mod_lt _ (slots_pos _)
  obtain ⟨s, hs, hempty⟩ := hv.room
  have hstop : stops (keyOf v.pairs) BPV_PAIR_EMPTY (pairKey a b) s = true := by simp [stops, hempty]
  obtain ⟨t, ht⟩ := Probing.exists_probe hstart hs hstop
  exact ⟨t, probe_lt hstart ht, ht⟩

/-- **The lookup returns**, within as many rounds as there are slots. -/
theorem bpPairLookup_eq (hv : v.Valid) (a b : Nat) : bpPairLookup v a b = .ok (v.lookup a b) := by
  obtain ⟨t, -, ht⟩ := hv.exists_probe a b
  have hbound : v.pairMask + 1 = v.hdr.slots := by
    have := slots_pos v.hdr
    rw [hv.mask]
    omega
  have hstart : bpFmix64 (pairKey a b) &&& v.pairMask = pairHash v (pairKey a b) := by
    rw [hv.mask, and_mask]
    rfl
  unfold bpPairLookup
  show loop (lookupRound v (pairKey a b)) (v.pairMask + 1) (bpFmix64 (pairKey a b) &&& v.pairMask) = _
  have hlt : pairHash v (pairKey a b) < v.hdr.slots := Nat.mod_lt _ (slots_pos _)
  rw [hbound, hstart, lookup_loop hv _ _ hlt ht]
  unfold BpVocab.lookup
  rw [ht]

/-- A rule is what a slot says. -/
theorem BpVocab.Valid.rule_slot (hv : v.Valid) {a b r c : Nat} (h : v.rule a b = some (r, c)) :
    ∃ t < v.hdr.slots, keyOf v.pairs t = pairKey a b ∧ valueOf v.pairs t >>> 32 = r ∧ valueOf v.pairs t % 2 ^ 32 = c := by
  obtain ⟨t, hlt, ht⟩ := hv.exists_probe a b
  unfold BpVocab.rule at h
  split at h
  · cases h
  · next hne =>
    have hval : v.lookup a b = valueOf v.pairs t ∧ keyOf v.pairs t = pairKey a b := by
      unfold BpVocab.lookup at hne ⊢
      rw [ht] at hne ⊢
      dsimp only at hne ⊢
      split at hne
      · next hkey => exact ⟨by rw [if_pos hkey], hkey⟩
      · exact absurd rfl hne
    rw [hval.1, Option.some.injEq, Prod.mk.injEq] at h
    exact ⟨t, hlt, hval.2, h⟩

/-- A rule of a pair of ids: its rank is 32 bits, and the merged id is one. -/
theorem BpVocab.Valid.rule_spec (hv : v.Valid) {a b r c : Nat} (ha : v.HasId a) (hb : v.HasId b)
    (h : v.rule a b = some (r, c)) : r < 2 ^ 32 ∧ v.HasId c := by
  obtain ⟨t, hlt, hslot, rfl, rfl⟩ := hv.rule_slot h
  have hkey : keyOf v.pairs t ≠ BPV_PAIR_EMPTY := by
    rw [hslot]
    exact Nat.ne_of_lt (pairKey_lt hv.countLe ha hb).1
  have hwide : valueOf v.pairs t < 2 ^ 64 := by
    unfold valueOf
    cases hw : v.pairs[t * 2 + 1]? with
    | none => exact Nat.two_pow_pos 64
    | some w => exact hv.wide w (List.mem_of_getElem? hw)
  rw [Nat.shiftRight_eq_div_pow]
  exact ⟨by omega, (hv.slot t hlt hkey).2.2⟩

/-- A pair without a rule, as the callers of the lookup test for it. -/
theorem lookup_eq_empty_iff {a b : Nat} : v.lookup a b = BPV_PAIR_EMPTY ↔ v.rule a b = none := by
  unfold BpVocab.rule
  split <;> simp_all

theorem rule_of_lookup {a b : Nat} (h : v.lookup a b ≠ BPV_PAIR_EMPTY) :
    v.rule a b = some (v.lookup a b >>> 32, v.lookup a b % 2 ^ 32) := if_neg h

end Lookup

end Bytepair
