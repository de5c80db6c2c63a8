import Bytepair.Convert.Checks
import Bytepair.Vocab.Lookup

/-!
# The table of pairs as it is built

`Filled` is what the loop over the merges keeps of the table: every pair is where its probe first meets
it, an occupied slot holds a merge that was read, and every merge that was read has its slot.
The loader's lookup walks the table as the converter did.
-/

namespace Bytepair.Convert
open Support Support.Probing

/-- Entry number `rank` of the merges joins the tokens `a` and `b` to `c`. -/
def Joins (vocab : List (Str × Json)) (rank : Nat) (entry : Json) (a b c : Nat) : Prop :=
  ∃ left right, mergeParts rank entry = .ok (left, right) ∧ vocabId vocab left = some a ∧
    vocabId vocab right = some b ∧ vocabId vocab (left ++ right) = some c

section Slots

/-- What a slot holds. -/
def slotKey (keys : List Nat) (s : Nat) : Nat := keys[s]?.getD EMPTY_KEY
def slotValue (values : List Nat) (s : Nat) : Nat := values[s]?.getD 0

theorem slotKey_replicate (n : Nat) : slotKey (List.replicate n EMPTY_KEY) = fun _ => EMPTY_KEY := by
  funext s
  unfold slotKey
  rw [List.getElem?_replicate]
  split <;> rfl

theorem slotKey_set {keys : List Nat} {t : Nat} (ht : t < keys.length) (key : Nat) :
    slotKey (keys.set t key) = Function.update (slotKey keys) t key := by
  funext s
  unfold slotKey
  rcases eq_or_ne s t with rfl | hne
  · rw [Function.update_self, List.getElem?_set_self ht]
    rfl
  · rw [Function.update_of_ne hne, List.getElem?_set_ne (Ne.symm hne)]

/-- The converter probes as the loader does. -/
theorem probeSlot_eq (keys : List Nat) (k key : Nat) (bound : Nat) {s : Nat} :
    probeSlot keys (2 ^ k - 1) key bound s = probe (stops (slotKey keys) EMPTY_KEY key) (2 ^ k) bound s := by
  induction bound generalizing s with
  | zero => rfl
  | succ bound ih =>
    rw [probeSlot, probe, ih, Nat.and_two_pow_sub_one_eq_mod]
    have hstop : (slotKey keys s = EMPTY_KEY ∨ slotKey keys s = key) ↔ stops (slotKey keys) EMPTY_KEY key s = true := by
      simp only [stops, Bool.or_eq_true, decide_eq_true_eq]
      exact or_comm
    exact ite_congr (propext (by simpa [slotKey] using hstop)) (fun _ => rfl) fun _ => rfl

/-- A further slot is occupied. -/
theorem occupiedBelow_update (key : Nat → Nat) (t k n : Nat) :
    occupiedBelow (Function.update key t k) n ≤ occupiedBelow key n + 1 ∧
      (n ≤ t → occupiedBelow (Function.update key t k) n = occupiedBelow key n) := by
  induction n with
  | zero =>
    have hzero : ∀ f, occupiedBelow f 0 = 0 := fun f => rfl
    rw [hzero, hzero]
    exact ⟨Nat.zero_le _, fun _ => rfl⟩
  | succ n ih =>
    obtain ⟨hle, heq⟩ := ih
    rw [occupiedBelow_succ, occupiedBelow_succ]
    rcases eq_or_ne n t with rfl | hne
    · rw [heq (Nat.le_refl n)]
      refine ⟨?_, fun h => absurd h (Nat.not_succ_le_self n)⟩
      split <;> omega
    · rw [Function.update_of_ne hne]
      refine ⟨by omega, fun h => ?_⟩
      rw [heq (by omega)]

end Slots

section Fill

variable {vocab : List (Str × Json)} {idToBytes : List (Nat × List UInt8)}

/-- The slot holds a merge that was read. -/
def SlotHolds (vocab : List (Str × Json)) (done : List (Json × Nat)) (t : PairTable) (s : Nat) : Prop :=
  ∃ entry rank a b c, (entry, rank) ∈ done ∧ Joins vocab rank entry a b c ∧ a < 2 ^ 32 ∧ b < 2 ^ 32 ∧ c < 2 ^ 32 ∧
    slotKey t.keys s = pairKey a b ∧ slotValue t.values s = rank <<< 32 ||| c

/-- The table of `2 ^ k` slots behind the merges that were read. -/
structure Filled (vocab : List (Str × Json)) (k : Nat) (done : List (Json × Nat)) (t : PairTable) : Prop where
  keys : t.keys.length = 2 ^ k
  values : t.values.length = 2 ^ k
  reach : Reachable (slotKey t.keys) EMPTY_KEY (fun key => fmix64 key % 2 ^ k) (2 ^ k)
  slot : ∀ s < 2 ^ k, slotKey t.keys s ≠ EMPTY_KEY → SlotHolds vocab done t s
  merge : t.byteMismatches = 0 → ∀ entry rank, (entry, rank) ∈ done → ∃ a b c s, Joins vocab rank entry a b c ∧
    s < 2 ^ k ∧ slotKey t.keys s ≠ EMPTY_KEY ∧ slotKey t.keys s = pairKey a b ∧ slotValue t.values s = rank <<< 32 ||| c
  occupied : occupiedBelow (slotKey t.keys) (2 ^ k) ≤ done.length

variable {k : Nat} {done : List (Json × Nat)} {t t' : PairTable}

theorem Filled.empty (vocab : List (Str × Json)) (k : Nat) :
    Filled vocab k [] ⟨List.replicate (2 ^ k) EMPTY_KEY, List.replicate (2 ^ k) EMPTY_KEY, 0⟩ := by
  have hempty := slotKey_replicate (2 ^ k)
  constructor
  · exact List.length_replicate
  · exact List.length_replicate
  · rw [hempty]
    exact reachable_empty
  · intro s _ hs
    exact absurd (congrFun hempty s) hs
  · rintro _ entry rank ⟨⟩
  · rw [hempty]
    unfold occupiedBelow
    rw [List.countP_eq_zero.2]
    · exact Nat.zero_le _
    · simp [EMPTY_KEY, BPV_PAIR_EMPTY]

theorem SlotHolds.more {s : Nat} (h : SlotHolds vocab done t s) (e : Json × Nat) :
    SlotHolds vocab (done ++ [e]) t s := by
  obtain ⟨entry, rank, a, b, c, hmem, hrest⟩ := h
  exact ⟨entry, rank, a, b, c, List.mem_append_left _ hmem, hrest⟩

/-- A merge whose bytes disagree is counted, and has no slot. -/
theorem Filled.mismatch (h : Filled vocab k done t) (e : Json × Nat) :
    Filled vocab k (done ++ [e]) { t with byteMismatches := t.byteMismatches + 1 } := by
  constructor
  · exact h.keys
  · exact h.values
  · exact h.reach
  · exact fun s hs hne => (h.slot s hs hne).more e
  · intro hzero
    cases hzero
  · rw [List.length_append]
    exact Nat.le_succ_of_le h.occupied

/-- A merge is put where its probe meets an empty slot. -/
theorem Filled.insert (h : Filled vocab k done t) {entry : Json} {rank a b c : Nat} (hjoins : Joins vocab rank entry a b c)
    (ha : a < 2 ^ 32) (hb : b < 2 ^ 32) (hc : c < 2 ^ 32) (hkey : pairKey a b ≠ EMPTY_KEY) {leftS rightS : Str}
    (hrun : insertPair t (2 ^ k - 1) rank (pairKey a b) (rank <<< 32 ||| c) leftS rightS = .ok t') :
    Filled vocab k (done ++ [(entry, rank)]) t' := by
  have hpos : 0 < 2 ^ k := Nat.two_pow_pos k
  have hhash : fmix64 (pairKey a b) % 2 ^ k < 2 ^ k := Nat.mod_lt _ hpos
  unfold insertPair at hrun
  rw [probeSlot_eq, h.keys, Nat.and_two_pow_sub_one_eq_mod] at hrun
  split at hrun
  · cases hrun
  · next slot hprobe =>
    have hslot : slot < 2 ^ k := probe_lt hhash hprobe
    have hstop := probe_stop hhash hprobe
    simp only [stops, Bool.or_eq_true, decide_eq_true_eq] at hstop
    split at hrun
    · cases hrun
    · next hfree =>
      have hempty : slotKey t.keys slot = EMPTY_KEY := hstop.resolve_left hfree
      have hset := slotKey_set (show slot < t.keys.length by rw [h.keys]; exact hslot) (pairKey a b)
      cases hrun
      have hself : slotKey (t.keys.set slot (pairKey a b)) slot = pairKey a b := by rw [hset, Function.update_self]
      have hvalue : slotValue (t.values.set slot (rank <<< 32 ||| c)) slot = rank <<< 32 ||| c := by
        unfold slotValue
        rw [List.getElem?_set_self (by rw [h.values]; exact hslot)]
        rfl
      have hother : ∀ s, s ≠ slot → slotKey (t.keys.set slot (pairKey a b)) s = slotKey t.keys s ∧
          slotValue (t.values.set slot (rank <<< 32 ||| c)) s = slotValue t.values s := by
        intro s hne
        rw [hset, Function.update_of_ne hne]
        unfold slotValue
        rw [List.getElem?_set_ne (Ne.symm hne)]
        exact ⟨rfl, rfl⟩
      constructor
      · rw [List.length_set, h.keys]
      · rw [List.length_set, h.values]
      · rw [hset]
        exact h.reach.insert hhash hprobe hempty
      · intro s hs hne
        rcases eq_or_ne s slot with rfl | hs'
        · exact ⟨entry, rank, a, b, c, List.mem_append_right _ (List.mem_singleton_self _), hjoins, ha, hb, hc, hself, hvalue⟩
        · obtain ⟨hk, hv⟩ := hother s hs'
          rw [hk] at hne
          obtain ⟨entry', rank', a', b', c', hmem, hj, ha', hb', hc', hk', hv'⟩ := h.slot s hs hne
          exact ⟨entry', rank', a', b', c', List.mem_append_left _ hmem, hj, ha', hb', hc', hk.trans hk', hv.trans hv'⟩
      · intro hzero entry' rank' hmem
        rcases List.mem_append.1 hmem with hold | hnew
        · obtain ⟨a', b', c', s, hj, hs, hne, hk', hv'⟩ := h.merge hzero entry' rank' hold
          have hs' : s ≠ slot := by
            rintro rfl
            exact hne hempty
          obtain ⟨hk, hv⟩ := hother s hs'
          exact ⟨a', b', c', s, hj, hs, by rwa [hk], hk.trans hk', hv.trans hv'⟩
        · cases List.mem_singleton.1 hnew
          exact ⟨a, b, c, slot, hjoins, hslot, by rwa [hself], hself, hvalue⟩
      · rw [hset, List.length_append]
        exact (occupiedBelow_update _ _ _ _).1.trans (Nat.succ_le_succ h.occupied)

theorem insertMerge_spec (h : Filled vocab k done t) {e : Json × Nat}
    (hrun : insertMerge vocab idToBytes (2 ^ k - 1) t e = .ok t') : Filled vocab k (done ++ [e]) t' := by
  obtain ⟨entry, rank⟩ := e
  obtain ⟨⟨leftS, rightS⟩, hparts, hrun⟩ := bind_eq_ok.1 hrun
  obtain ⟨left, hleft, hrun⟩ := bind_eq_ok.1 hrun
  obtain ⟨right, hright, hrun⟩ := bind_eq_ok.1 hrun
  obtain ⟨merged, hmerged, hrun⟩ := bind_eq_ok.1 hrun
  have hjoins : Joins vocab rank entry left right merged :=
    ⟨leftS, rightS, hparts, need_eq_ok.1 hleft, need_eq_ok.1 hright, need_eq_ok.1 hmerged⟩
  dsimp only at hrun
  split at hrun
  · cases hrun
    exact h.mismatch _
  · obtain ⟨_, hwide, hrun⟩ := bind_eq_ok.1 hrun
    obtain ⟨_, hkey, hrun⟩ := bind_eq_ok.1 hrun
    have hwide := require_eq_ok.1 hwide
    have hkey := require_eq_ok.1 hkey
    simp only [Bool.and_eq_true, decide_eq_true_eq] at hwide hkey
    exact h.insert hjoins hwide.1.1 hwide.1.2 hwide.2 hkey hrun

/-- **What `build_pair_table` built.** -/
theorem buildPairTable_spec {merges : List Json} {keys values : List Nat}
    (h : buildPairTable merges vocab idToBytes (1 <<< k) = .ok (keys, values)) :
    ∃ t, Filled vocab k merges.zipIdx t ∧ t.byteMismatches = 0 ∧ keys = t.keys ∧ values = t.values := by
  rw [Nat.one_shiftLeft] at h
  obtain ⟨t, hfold, h⟩ := bind_eq_ok.1 h
  obtain ⟨_, hzero, h⟩ := bind_eq_ok.1 h
  cases h
  have hfilled := foldlM_keeps (Filled vocab k) hfold [] (.empty vocab k)
    fun done e t t' ht hstep => insertMerge_spec ht hstep
  exact ⟨t, hfilled, of_decide_eq_true (require_eq_ok.1 hzero), rfl, rfl⟩

end Fill

end Bytepair.Convert
