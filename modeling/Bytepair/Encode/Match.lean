import Bytepair.Encode.Decode
import Bytepair.Support.Literal

/-!
# Finding added tokens

`matchAdded_eq`: over a valid handle the matcher finds `BpVocab.findAdded`, the preferred added
token at the head of a text. `nextCandidate_spec`: whichever way the candidates are
looked for, no place is skipped at which one is found.
-/

namespace Bytepair
open Support

variable {v : BpVocab}

/-- The records in the order they are tried in. -/
def BpVocab.candidates (v : BpVocab) : List BpvAdded := v.addedOrder.filterMap (v.added[·]?)

/-- The added token at the head of a text. -/
def BpVocab.findAdded (v : BpVocab) (p : List UInt8) : Option BpvAdded :=
  v.candidates.find? fun a => decide (v.addedBytes a <+: p)

section Candidates

theorem BpVocab.MatcherOk.order_lt (hm : v.MatcherOk) {i : Nat} (hi : i ∈ v.addedOrder) : i < v.added.length :=
  List.mem_range.1 (hm.order.mem_iff.1 hi)

theorem BpVocab.MatcherOk.mem_candidates (hm : v.MatcherOk) {a : BpvAdded} : a ∈ v.candidates ↔ a ∈ v.added := by
  unfold BpVocab.candidates
  rw [List.mem_filterMap]
  constructor
  · rintro ⟨i, -, hi⟩
    exact List.mem_of_getElem? hi
  · intro ha
    obtain ⟨i, hi⟩ := List.mem_iff_getElem?.1 ha
    exact ⟨i, hm.order.mem_iff.2 (List.mem_range.2 (List.getElem?_eq_some_iff.1 hi).1), hi⟩

theorem BpVocab.MatcherOk.candidates_get (hm : v.MatcherOk) {k i : Nat} (hk : v.addedOrder[k]? = some i) :
    v.candidates[k]? = v.added[i]? := by
  have all : ∀ js : List Nat, (∀ j ∈ js, j < v.added.length) → ∀ k : Nat, js[k]? = some i →
      (js.filterMap (v.added[·]?))[k]? = v.added[i]? := by
    intro js
    induction js with
    | nil => intro _ k hk; cases hk
    | cons j js ih =>
      intro hjs k hk
      obtain ⟨hj, hjs⟩ := List.forall_mem_cons.1 hjs
      rw [List.filterMap_cons_some (List.getElem?_eq_getElem hj)]
      cases k with
      | zero =>
        cases hk
        rw [List.getElem?_eq_getElem hj]
        rfl
      | succ k => exact ih hjs k hk
  exact all v.addedOrder (fun _ => hm.order_lt) k hk

/-- Longest first, and of equal lengths by id. -/
theorem BpVocab.MatcherOk.candidates_sorted (hv : v.Valid) (hm : v.MatcherOk) :
    v.candidates.Pairwise fun a b => b.len < a.len ∨ a.len = b.len ∧ a.id < b.id := by
  unfold BpVocab.candidates
  rw [List.pairwise_filterMap]
  apply hm.longest.imp
  intro i j hbefore a hi b hj
  have hlen : ∀ {k : Nat} {c : BpvAdded}, v.added[k]? = some c → v.addedLen k = c.len := by
    intro k c hk
    rw [BpVocab.addedLen, hk]
    rfl
  rw [Before, hlen hi, hlen hj] at hbefore
  rcases hbefore with hlt | ⟨heq, hij⟩
  · exact .inl hlt
  · obtain ⟨hilen, rfl⟩ := List.getElem?_eq_some_iff.1 hi
    obtain ⟨hjlen, rfl⟩ := List.getElem?_eq_some_iff.1 hj
    exact .inr ⟨heq, List.pairwise_iff_getElem.1 hv.sorted i j hilen hjlen hij⟩

theorem BpVocab.Valid.addedBytes_ne_nil (hv : v.Valid) {a : BpvAdded} (ha : a ∈ v.added) : v.addedBytes a ≠ [] := by
  obtain ⟨-, -, hlen, -⟩ := hv.record_bytes ha
  have := (hv.record a ha).pos
  intro hnil
  rw [hnil, List.length_nil] at hlen
  omega

/-- **What is found is the preferred token.** -/
theorem BpVocab.findAdded_some (hv : v.Valid) (hm : v.MatcherOk) {p : List UInt8} {a : BpvAdded}
    (h : v.findAdded p = some a) : Preferred v.addedBytes BpvAdded.id v.added p a := by
  obtain ⟨hstarts, before, behind, hsplit, hno⟩ := List.find?_eq_some_iff_append.1 h
  have hmem : a ∈ v.added := hm.mem_candidates.1 (by rw [hsplit]; simp)
  refine ⟨hmem, of_decide_eq_true hstarts, fun b hb hbp => ?_⟩
  obtain ⟨-, -, halen, -⟩ := hv.record_bytes hmem
  obtain ⟨-, -, hblen, -⟩ := hv.record_bytes hb
  rw [halen, hblen]
  have hbc := hm.mem_candidates.2 hb
  rw [hsplit, List.mem_append, List.mem_cons] at hbc
  rcases hbc with hbefore | rfl | hbehind
  · have := hno b hbefore
    simp [hbp] at this
  · exact .inr ⟨rfl, Nat.le_refl _⟩
  · have hsorted := hm.candidates_sorted hv
    rw [hsplit, List.pairwise_append, List.pairwise_cons] at hsorted
    have := hsorted.2.1.1 b hbehind
    omega

theorem BpVocab.findAdded_none (hm : v.MatcherOk) {p : List UInt8} (h : v.findAdded p = none) :
    ∀ b ∈ v.added, ¬v.addedBytes b <+: p := by
  intro b hb hstarts
  have := List.find?_eq_none.1 h b (hm.mem_candidates.2 hb)
  simp [hstarts] at this

end Candidates

section Match

/-- What a round of the matcher compares. -/
theorem matches_iff (hv : v.Valid) {a : BpvAdded} (ha : a ∈ v.added) (p : List UInt8) :
    v.addedBytes a <+: p ↔ a.len ≤ p.length ∧ p.take a.len = (v.blob.drop a.offset).take a.len := by
  obtain ⟨-, hbytes, hlen, -⟩ := hv.record_bytes ha
  rw [List.prefix_iff_eq_take, hlen, ← hbytes]
  constructor
  · intro h
    refine ⟨?_, h.symm⟩
    have := congrArg List.length h
    rw [hlen, List.length_take] at this
    omega
  · exact fun h => h.2.symm

theorem matchAdded_eq (hv : v.Valid) (hm : v.MatcherOk) (p : List UInt8) :
    matchAdded v p = .ok (v.findAdded p) := by
  have horder : v.addedOrder.length = v.hdr.addedCount := by
    rw [hm.order.length_eq, List.length_range, hv.addedCount]
  unfold matchAdded
  refine loop_eq (fun k => k ≤ v.hdr.addedCount) (fun k => v.hdr.addedCount - k)
    (fun k => (v.candidates.drop k).find? fun a => decide (v.addedBytes a <+: p)) ?_ (Nat.zero_le _) (by omega)
  intro k hk
  unfold matchRound
  by_cases hlt : k < v.hdr.addedCount
  · have hget : v.addedOrder[k]? = some v.addedOrder[k] := List.getElem?_eq_getElem (by omega)
    have hin := hm.order_lt (List.mem_of_getElem? hget)
    have hcand := hm.candidates_get hget
    generalize v.addedOrder[k] = i at hget hin hcand
    have ha : v.added[i]? = some v.added[i] := List.getElem?_eq_getElem hin
    have hmem := List.mem_of_getElem? ha
    generalize v.added[i] = a at ha hmem
    rw [ha] at hcand
    obtain ⟨hend, -, -, -⟩ := hv.record_bytes hmem
    obtain ⟨hkc, hka⟩ := List.getElem?_eq_some_iff.1 hcand
    rw [if_pos hlt, index_of_some hget, Run.ok_bind, index_of_some ha, Run.ok_bind, slice_of_le hend,
      List.drop_eq_getElem_cons hkc, hka, List.find?_cons]
    by_cases hstarts : v.addedBytes a <+: p
    · obtain ⟨hle, heq⟩ := (matches_iff hv hmem p).1 hstarts
      rw [if_pos hle, Run.ok_bind, if_pos heq, decide_eq_true hstarts]
      exact .inr rfl
    · rw [decide_eq_false hstarts]
      refine .inl ⟨k + 1, ?_, by omega, by omega, rfl⟩
      by_cases hle : a.len ≤ p.length
      · rw [if_pos hle, Run.ok_bind, if_neg fun heq => hstarts ((matches_iff hv hmem p).2 ⟨hle, heq⟩)]
        rfl
      · rw [if_neg hle]
        rfl
  · rw [if_neg hlt]
    have hend : v.candidates.length ≤ k := by
      have := List.length_filterMap_le (v.added[·]?) v.addedOrder
      unfold BpVocab.candidates
      omega
    rw [List.drop_of_length_le hend]
    exact .inr rfl

end Match

section Scan

/-- A token that is found starts with one of the first bytes. -/
theorem BpVocab.findAdded_first (hv : v.Valid) (hm : v.MatcherOk) {b : UInt8} {p : List UInt8} {a : BpvAdded}
    (h : v.findAdded (b :: p) = some a) : a ∈ v.added ∧ v.addedByte a = b := by
  obtain ⟨hmem, ⟨t, ht⟩, -⟩ := BpVocab.findAdded_some hv hm h
  obtain ⟨-, -, -, hhead⟩ := hv.record_bytes hmem
  refine ⟨hmem, ?_⟩
  obtain ⟨x, xs, hcons⟩ := List.exists_cons_of_ne_nil (hv.addedBytes_ne_nil hmem)
  rw [hcons] at ht hhead
  cases ht
  cases hhead
  rfl

/-- The candidate the scan by the map comes to. -/
theorem mapScan_eq (hmap : v.addedFirstMap.length = 32) (p : List UInt8) :
    loop (mapRound v) (p.length + 1) (p, 0) = .ok (p.findIdx? fun b => testFirst v.addedFirstMap b) := by
  have h := @loop_value _ _ (mapRound v) (fun s => s.1.length)
    (fun s => (s.1.findIdx? fun b => testFirst v.addedFirstMap b).map (· + s.2)) ?_ (p.length + 1) (p, 0) (Nat.lt_succ_self _)
  · rw [h]
    dsimp only
    cases p.findIdx? fun b => testFirst v.addedFirstMap b <;> rfl
  · rintro ⟨p, k⟩
    cases p with
    | nil => exact .inr rfl
    | cons b p =>
      have hb := b.toNat_lt
      have hin : (b >>> 3).toNat < v.addedFirstMap.length := by
        rw [toNat_shiftRight_3, hmap]
        omega
      rw [mapRound, index_getD 0 hin, Run.ok_bind]
      dsimp only
      rw [List.findIdx?_cons]
      by_cases htest : testFirst v.addedFirstMap b = true
      · rw [if_pos htest]
        rw [testFirst] at htest
        rw [if_pos htest]
        exact .inr (by simp)
      · rw [if_neg htest]
        rw [testFirst] at htest
        rw [if_neg htest]
        refine .inl ⟨(p, k + 1), rfl, Nat.lt_succ_self _, ?_⟩
        rw [Option.map_map]
        congr 1
        funext i
        simp only [Function.comp]
        omega

/-- A scan that stops at no byte but those that fail `stop` skips no token. -/
theorem skip_of_findIdx? {stop : UInt8 → Bool}
    (hstop : ∀ b p a, v.findAdded (b :: p) = some a → stop b = true) (hnil : v.findAdded [] = none)
    (p : List UInt8) :
    match p.findIdx? stop with
    | none => ∀ j < p.length, v.findAdded (p.drop j) = none
    | some k => k < p.length ∧ ∀ j < k, v.findAdded (p.drop j) = none := by
  have skip : ∀ j, (∀ h : j < p.length, stop p[j] = false) → v.findAdded (p.drop j) = none := by
    intro j hj
    by_cases hlt : j < p.length
    · rw [List.drop_eq_getElem_cons hlt]
      cases hfind : v.findAdded (p[j] :: p.drop (j + 1)) with
      | none => rfl
      | some a =>
        have := hstop _ _ a hfind
        rw [hj hlt] at this
        cases this
    · rw [List.drop_of_length_le (Nat.le_of_not_lt hlt)]
      exact hnil
  cases hidx : p.findIdx? stop with
  | none =>
    intro j hj
    exact skip j fun hlt => by simpa using List.findIdx?_eq_none_iff.1 hidx p[j] (List.getElem_mem hlt)
  | some k =>
    obtain ⟨hk, -, hbefore⟩ := List.findIdx?_eq_some_iff_getElem.1 hidx
    exact ⟨hk, fun j hj => skip j fun hlt => by simpa using hbefore j hj⟩

theorem BpVocab.findAdded_nil (hv : v.Valid) (hm : v.MatcherOk) : v.findAdded [] = none := by
  cases hfind : v.findAdded [] with
  | none => rfl
  | some a =>
    obtain ⟨hmem, hhere, -⟩ := BpVocab.findAdded_some hv hm hfind
    exact absurd (List.prefix_nil.1 hhere) (hv.addedBytes_ne_nil hmem)

/-- **No place is skipped**, by the scan for the one first byte or by the map. -/
theorem nextCandidate_spec (hv : v.Valid) (hm : v.MatcherOk) (p : List UInt8) :
    ∃ r, nextCandidate v p = .ok r ∧
      match r with
      | none => ∀ j < p.length, v.findAdded (p.drop j) = none
      | some k => k < p.length ∧ ∀ j < k, v.findAdded (p.drop j) = none := by
  unfold nextCandidate
  cases hsingle : v.addedSingleFirst with
  | true =>
    refine ⟨_, rfl, skip_of_findIdx? (fun b p a hfind => ?_) (BpVocab.findAdded_nil hv hm) p⟩
    obtain ⟨hmem, rfl⟩ := BpVocab.findAdded_first hv hm hfind
    rw [hm.single hsingle a hmem]
    exact beq_self_eq_true _
  | false =>
    refine ⟨_, mapScan_eq hm.map p, skip_of_findIdx? (fun b p a hfind => ?_) (BpVocab.findAdded_nil hv hm) p⟩
    obtain ⟨hmem, hbyte⟩ := BpVocab.findAdded_first hv hm hfind
    exact (hm.first b).2 ⟨a, hmem, hbyte⟩

end Scan

end Bytepair
