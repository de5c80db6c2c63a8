import Bytepair.Encode.Opened

/-!
# The merges of an opened vocabulary

What the loader does not ask of a pair table. A rank may be `0xFFFFFFFF`, where the short path
starts its search: `merges_greedy_iff` says when a pretoken is merged greedily all the same.
-/

namespace Bytepair
open Support

variable {host : Host} {map : List UInt8} {v : BpVocab}

section Greedy

/-- A pretoken is emitted as some ids: by every context that was reached and that succeeds, and by every
such context if the allocator grants all. -/
def Merges (v : BpVocab) (p : List UInt8) (ids : List Nat) : Prop :=
  ∀ c : BpCtx, c.Reached shipped v → ∀ out,
    (∀ c' s, bpBpePretoken (c, ⟨out, 0⟩) p = .ok (.ok (), (c', s)) → s = ⟨filled out ids, ids.length⟩) ∧
    (c.scratch.Granted → ∃ c', bpBpePretoken (c, ⟨out, 0⟩) p = .ok (.ok (), (c', ⟨filled out ids, ids.length⟩)))

theorem merges_iff (h : Opens host map v) {p : List UInt8} {ids : List Nat} (hp : pretokenIds v p = some ids)
    (xs : List Nat) : Merges v p xs ↔ ids = xs := by
  have hspec : ∀ {c : BpCtx}, c.Reached shipped v → ∀ out,
      Emits v out [] c.scratch.Granted (some ids) (bpBpePretoken (c, ⟨out, 0⟩) p) := by
    intro c hc out
    have hrun := bpBpePretoken_emits h.valid (h.coherent hc) p out []
    rwa [hp, holding_nil] at hrun
  constructor
  · intro hxs
    obtain ⟨c, hc, hgranted⟩ := exists_context v
    have hout : ∀ out, ids.length = xs.length ∧ filled out ids = filled out xs := by
      intro out
      obtain ⟨c', hrun⟩ := (hxs c hc out).2 hgranted
      have hs := hspec hc out
      rw [hrun] at hs
      generalize hsink : (⟨filled out xs, xs.length⟩ : BpSink) = sink at hs
      cases hs with
      | emitted _ _ _ _ =>
        injection hsink with hfill hlen
        exact ⟨hlen.symm, hfill.symm⟩
    exact filled_inj (hout []).1 fun out => (hout out).2
  · rintro rfl c hc out
    have hs := hspec hc out
    generalize bpBpePretoken (c, ⟨out, 0⟩) p = x at hs
    cases hs with
    | emitted _ c' _ _ =>
      constructor
      · rintro c'' s ⟨⟩
        rfl
      · exact fun _ => ⟨c', rfl⟩
    | refused _ c' more _ hno _ =>
      constructor
      · rintro c'' s ⟨⟩
      · exact fun hgranted => absurd hgranted hno

/-- **When a pretoken is merged greedily.** A pretoken comes to the greedy merges of its bytes, by rank and
leftmost among equals, exactly if it has at most two bytes, or more than 64, or if the greedy merges make
none of rank `0xFFFFFFFF`. -/
theorem merges_greedy_iff (h : Opens host map v) {p : List UInt8} (hlen : p.length < 2 ^ 31) :
    Merges v p (greedy v.rule (p.map v.byteToken)) ↔
      p.length ≤ 2 ∨ SHORT_MAX < p.length ∨ ∀ r ∈ greedyRanks v.rule (p.map v.byteToken), r < 0xFFFFFFFF := by
  rw [merges_iff h (pretokenIds_eq h.valid hlen), routeRule]
  split
  · next hroute =>
    rw [← or_assoc]
    exact iff_of_true rfl (.inl hroute)
  · next hroute =>
    rw [← or_assoc, or_iff_right hroute]
    exact greedy_below_iff 0xFFFFFFFF v.rule _

theorem merges_greedy_iff_toy : Merges Convert.toy.vocab [0x61, 0x62, 0x63]
    (greedy Convert.toy.vocab.rule ([0x61, 0x62, 0x63].map Convert.toy.vocab.byteToken)) := by
  apply (merges_greedy_iff Convert.toy_opens (by decide)).2
  refine .inr (.inr ?_)
  decide +kernel

/-- One merge, of the largest rank. -/
def lastRank : Convert.Sample where
  flags := 0
  tokens := [[0x61, 0x62]]
  merges := [(0x61, 0x62, 0xFFFFFFFF, 256)]
  added := []
  info := [0, 0, 0, 0]
  sourceHash := 0

theorem lastRank_opens : lastRank.Opens := Convert.Sample.opens (by decide +kernel)

example : pretokenIds lastRank.vocab [0x61, 0x62] = some [256] := by decide +kernel

/-- A pair of rank `0xFFFFFFFF` is merged in a pretoken of two bytes and not in one of three. -/
theorem not_merges_greedy : Opens ⟨true, true, true⟩ lastRank.image lastRank.vocab ∧
    greedy lastRank.vocab.rule ([0x61, 0x62, 0x63].map lastRank.vocab.byteToken) = [256, 0x63] ∧
    Merges lastRank.vocab [0x61, 0x62, 0x63] [0x61, 0x62, 0x63] ∧ Merges lastRank.vocab [0x61, 0x62] [256] ∧
    ¬∀ (host : Host) (map : List UInt8) (v : BpVocab), Opens host map v → ∀ p : List UInt8, 1 ≤ p.length →
      p.length < 2 ^ 31 → Merges v p (greedy v.rule (p.map v.byteToken)) := by
  have hopens : Opens ⟨true, true, true⟩ lastRank.image lastRank.vocab := lastRank_opens
  have hgreedy : greedy lastRank.vocab.rule ([0x61, 0x62, 0x63].map lastRank.vocab.byteToken) = [256, 0x63] := by
    decide +kernel
  have hthree : pretokenIds lastRank.vocab [0x61, 0x62, 0x63] = some [0x61, 0x62, 0x63] := by decide +kernel
  have htwo : pretokenIds lastRank.vocab [0x61, 0x62] = some [256] := by decide +kernel
  refine ⟨hopens, hgreedy, (merges_iff hopens hthree _).2 rfl, (merges_iff hopens htwo _).2 rfl, fun hall => ?_⟩
  have hmerges := hall _ _ _ hopens [0x61, 0x62, 0x63] (by decide) (by decide)
  rw [hgreedy, merges_iff hopens hthree] at hmerges
  cases hmerges

end Greedy

end Bytepair
