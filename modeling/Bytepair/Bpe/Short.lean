import Bytepair.Bpe.Model
import Bytepair.Vocab.Lookup
import Bytepair.Support.Greedy

/-!
# The short path

`merge_short` starts its scan with the rank `0xFFFFFFFF` and takes a pair of a lower rank
only. `mergeShort_eq`: it makes the greedy merges of the pairs below that rank.
-/

namespace Bytepair
open Support

variable {v : BpVocab}

/-- The pairs `merge_short` can see. -/
def shortRule (v : BpVocab) : Nat → Nat → Option (Nat × Nat) := below 0xFFFFFFFF v.rule

theorem shortRule_eq_some {a b r c : Nat} :
    shortRule v a b = some (r, c) ↔ v.rule a b = some (r, c) ∧ r < 0xFFFFFFFF := by
  simp [shortRule, below, Option.filter_eq_some_iff]

/-- The best of the pairs before `k`. -/
def BestBelow (v : BpVocab) (ids : List Nat) (k : Nat) (best : Best) : Prop :=
  (best = ⟨0xFFFFFFFF, 0, ids.length⟩ ∧ ∀ j < k, ∀ r c, ¬Pair (shortRule v) ids j r c) ∨
  (best.pos < k ∧ Pair (shortRule v) ids best.pos best.rank best.id ∧
    ∀ j < k, ∀ r c, Pair (shortRule v) ids j r c → best.rank < r ∨ best.rank = r ∧ best.pos ≤ j)

theorem BestBelow.rank_le {ids : List Nat} {k : Nat} {best : Best} (h : BestBelow v ids k best) :
    best.rank ≤ 0xFFFFFFFF := by
  rcases h with ⟨rfl, -⟩ | ⟨-, ⟨a, b, -, -, hrule⟩, -⟩
  · exact Nat.le_refl _
  · exact Nat.le_of_lt (shortRule_eq_some.1 hrule).2

/-- A pair that is no better than the best so far. -/
theorem BestBelow.keep {ids : List Nat} {k : Nat} {best : Best} (h : BestBelow v ids k best)
    (hk : ∀ r c, Pair (shortRule v) ids k r c → best.rank ≤ r) : BestBelow v ids (k + 1) best := by
  rcases h with ⟨rfl, hno⟩ | ⟨hlt, hpair, hmin⟩
  · refine .inl ⟨rfl, fun j hj r c hp => ?_⟩
    rcases Nat.lt_succ_iff_lt_or_eq.1 hj with hlt | rfl
    · exact hno j hlt r c hp
    · obtain ⟨a, b, -, -, hrule⟩ := id hp
      have hr := (shortRule_eq_some.1 hrule).2
      have hge : 0xFFFFFFFF ≤ r := hk r c hp
      omega
  · refine .inr ⟨by omega, hpair, fun j hj r c hp => ?_⟩
    rcases Nat.lt_succ_iff_lt_or_eq.1 hj with hjk | rfl
    · exact hmin j hjk r c hp
    · have hr := hk r c hp
      omega

/-- A pair that is better. -/
theorem BestBelow.take {ids : List Nat} {k r c : Nat} {best : Best} (h : BestBelow v ids k best)
    (hp : Pair (shortRule v) ids k r c) (hlt : r < best.rank) : BestBelow v ids (k + 1) ⟨r, c, k⟩ := by
  refine .inr ⟨Nat.lt_succ_self k, hp, fun j hj r' c' hj' => ?_⟩
  rcases Nat.lt_succ_iff_lt_or_eq.1 hj with hjk | rfl
  · rcases h with ⟨-, hno⟩ | ⟨-, -, hmin⟩
    · exact absurd hj' (hno j hjk r' c')
    · have := hmin j hjk r' c' hj'
      dsimp only
      omega
  · exact .inr ⟨(hp.unique hj').1, Nat.le_refl _⟩

theorem shortScanRound_spec (hv : v.Valid) {ids : List Nat} {k : Nat} {best : Best} (hk : k + 1 < ids.length)
    (h : BestBelow v ids k best) :
    ∃ best', shortScanRound v ids best k = .ok best' ∧ BestBelow v ids (k + 1) best' := by
  have ha : ids[k]? = some ids[k] := List.getElem?_eq_getElem _
  have hb : ids[k + 1]? = some ids[k + 1] := List.getElem?_eq_getElem hk
  have hpair : ∀ {r c}, Pair (shortRule v) ids k r c ↔ shortRule v ids[k] ids[k + 1] = some (r, c) := by
    intro r c
    constructor
    · rintro ⟨a, b, ha', hb', hrule⟩
      rw [ha] at ha'
      rw [hb] at hb'
      cases ha'
      cases hb'
      exact hrule
    · exact fun hrule => ⟨_, _, ha, hb, hrule⟩
  unfold shortScanRound
  rw [index_of_some ha, index_of_some hb, Run.ok_bind, Run.ok_bind, bpPairLookup_eq hv, Run.ok_bind]
  by_cases hempty : v.lookup ids[k] ids[k + 1] = BPV_PAIR_EMPTY
  · refine ⟨best, if_pos hempty, h.keep fun r c hp => ?_⟩
    rw [hpair, shortRule_eq_some, lookup_eq_empty_iff.1 hempty] at hp
    cases hp.1
  rw [if_neg hempty]
  have hrule := rule_of_lookup hempty
  generalize v.lookup ids[k] ids[k + 1] = val at hrule
  by_cases hlt : val >>> 32 < best.rank
  · have hp : Pair (shortRule v) ids k (val >>> 32) (val % 2 ^ 32) :=
      hpair.2 (shortRule_eq_some.2 ⟨hrule, Nat.lt_of_lt_of_le hlt h.rank_le⟩)
    exact ⟨_, by simp only [if_pos hlt]; rfl, h.take hp hlt⟩
  · refine ⟨best, by simp only [if_neg hlt]; rfl, h.keep fun r c hp => ?_⟩
    rw [hpair, shortRule_eq_some, hrule] at hp
    cases hp.1
    exact Nat.le_of_not_lt hlt

/-- The scan finds what `Support.best` does. -/
theorem shortScan_spec (hv : v.Valid) (ids : List Nat) :
    ∃ b, (List.range (ids.length - 1)).foldlM (shortScanRound v ids) ⟨0xFFFFFFFF, 0, ids.length⟩ = .ok b ∧
      ((b.pos = ids.length ∧ best (shortRule v) ids = none) ∨
        (b.pos + 1 < ids.length ∧ best (shortRule v) ids = some (b.rank, b.pos, b.id))) := by
  obtain ⟨b, hb, hbelow⟩ := foldlM_rule (fun done b => BestBelow v ids done.length b)
    (List.range (ids.length - 1)) [] ⟨0xFFFFFFFF, 0, ids.length⟩
    (.inl ⟨rfl, fun j hj => absurd hj (Nat.not_lt_zero j)⟩) (by
      intro pre i post b hsplit hbelow
      rw [List.nil_append, List.range_eq_range'] at hsplit
      obtain ⟨rfl, hlt⟩ := range'_split hsplit
      rw [Nat.zero_add, List.length_append, List.length_singleton]
      exact shortScanRound_spec hv (by omega) hbelow)
  refine ⟨b, hb, ?_⟩
  rw [List.nil_append, List.length_range] at hbelow
  rcases hbelow with ⟨rfl, hno⟩ | ⟨-, hp, hmin⟩
  · refine .inl ⟨rfl, best_none_iff.2 fun j r c hp => hno j ?_ r c hp⟩
    have := hp.lt
    omega
  · refine .inr ⟨hp.lt, best_iff.2 ⟨hp, fun j r c hj => hmin j ?_ r c hj⟩⟩
    have := hj.lt
    omega

/-- **The short path** makes the greedy merges of the pairs it can see. -/
theorem mergeShort_eq (hv : v.Valid) (ids : List Nat) : mergeShort v ids = .ok (greedy (shortRule v) ids) := by
  refine loop_value List.length (greedy (shortRule v)) (fun ids => ?_) (Nat.lt_succ_self _)
  unfold shortRound
  by_cases htwo : 2 ≤ ids.length
  · obtain ⟨b, hb, hcases⟩ := shortScan_spec hv ids
    rw [if_pos htwo, hb, Run.ok_bind]
    rcases hcases with ⟨hpos, hnone⟩ | ⟨hpos, hsome⟩
    · exact .inr (by rw [if_pos hpos, greedy_of_none _ hnone]; rfl)
    · have hmerge : (ids.set b.pos b.id).take (b.pos + 1) ++ (ids.set b.pos b.id).drop (b.pos + 2) =
          mergeAt ids b.pos b.id := by
        rw [List.drop_set_of_lt (by omega), List.take_succ_eq_append_getElem (by simpa using by omega),
          List.take_set_of_le (Nat.le_refl _), List.getElem_set_self, List.append_assoc]
        rfl
      have hlen := length_mergeAt (c := b.id) hpos
      refine .inl ⟨mergeAt ids b.pos b.id, ?_, by omega, (greedy_of_some _ hsome).symm⟩
      rw [if_neg (by omega), store_lt (by omega), Run.ok_bind, hmerge]
      rfl
  · rw [if_neg htwo]
    have hnone : best (shortRule v) ids = none := best_none_iff.2 fun j r c hp => by
      have := hp.lt
      omega
    exact .inr (by rw [greedy_of_none _ hnone])

end Bytepair
