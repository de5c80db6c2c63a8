import Bytepair.Encode.Long

/-!
# Pretokens that are cut off

The links of `merge_long` are `int32_t` and the length of a pretoken is not looked at. Of a pretoken of more than
`2 ^ 31` bytes only the first ones are linked, and what is emitted stands for these at most:
`merge_long_complete_iff`.
-/

namespace Bytepair
open Support

variable {host : Host} {map : List UInt8} {v : BpVocab}

section Complete

/-- Nothing is emitted for no bytes: the walk reads a node that is not there. -/
theorem mergeLong_nil (c : BpCtx) (sink : BpSink) (x : BpCtx × BpSink) : mergeLong c [] sink ≠ .ok (.ok (), x) := by
  intro hrun
  obtain ⟨⟨work, m⟩, -, hrun⟩ := bind_eq_ok.1 hrun
  cases work with
  | none => cases hrun
  | some cap =>
    obtain ⟨-, -, hrun⟩ := bind_eq_ok.1 hrun
    obtain ⟨r, hmerge, hrun⟩ := bind_eq_ok.1 hrun
    cases hmerge
    obtain ⟨⟨room, m'⟩, -, hrun⟩ := bind_eq_ok.1 hrun
    cases room with
    | none => cases hrun
    | some cap' =>
      obtain ⟨-, -, hrun⟩ := bind_eq_ok.1 hrun
      obtain ⟨ids, hwalk, -⟩ := bind_eq_ok.1 hrun
      cases hwalk

/-- The bytes that the ids of the long path stand for are the first ones of the pretoken, of those that are linked. -/
theorem longIds_bytes (hv : v.Valid) (hb : v.ByteCoherent) {p : List UInt8} (hpos : 0 < p.length) :
    ∃ ids, longIds v p = some ids ∧ ids.length ≤ p.length ∧ ids.flatMap v.span <+: linked p ∧
      (p.length ≤ 2 ^ 32 → ids.flatMap v.span = linked p) := by
  have hknown := byteTokens_known hv (linked p)
  have hclosed : ∀ a b r c, v.HasId a → v.HasId b → v.rule a b = some (r, c) → v.HasId c :=
    fun a b r c ha hb' h => (hv.rule_spec ha hb' h).2
  have hbytes : ∀ ys, Reaches v.rule ((linked p).map v.byteToken) ys → ys.flatMap v.span = linked p := by
    intro ys hreach
    rw [hreach.flatMap hclosed hb hknown, byteTokens_flatMap hv]
  have hlength : ∀ ys, Reaches v.rule ((linked p).map v.byteToken) ys → ys.length ≤ p.length := by
    intro ys hreach
    have hle := hreach.length_le
    rw [List.length_map, length_linked] at hle
    exact Nat.le_trans hle (Nat.min_le_right _ _)
  obtain ⟨ids, ys, hids, hreach, more, rfl⟩ := longIds_exists hv hpos
  have hall := hbytes _ hreach
  have hle := hlength _ hreach
  rw [List.flatMap_append] at hall
  rw [List.length_append] at hle
  refine ⟨ids, hids, by omega, ⟨_, hall⟩, fun hlen => ?_⟩
  rw [longIds, longRun_eq hv hpos hlen] at hids
  cases hids
  exact hbytes _ (reaches_greedy _)

/-- What a buffer with room for an id a byte holds after the long path. -/
theorem mergeLong_buffer {c : BpCtx} (hc : c.v = v) {p : List UInt8} {ids : List Nat} (hids : longIds v p = some ids)
    {out : List Nat} (hroom : ids.length ≤ out.length) {c' : BpCtx} {sink : BpSink}
    (hrun : mergeLong c p ⟨out, 0⟩ = .ok (.ok (), (c', sink))) : sink.out.take sink.total = ids := by
  obtain ⟨nd, hmerge, hwalk⟩ := longIds_eq_some hids
  obtain ⟨r, c'', sink', hrun', hr, -⟩ := mergeLong_returns hc hmerge hwalk ⟨out, 0⟩
  rw [hrun] at hrun'
  cases hrun'
  rcases hr with ⟨-, hput⟩ | ⟨hno, -⟩
  · have hstart : BpSink.holding out [] = ⟨out, 0⟩ := by
      rw [BpSink.holding, filled_nil]
      rfl
    rw [← hstart, bpSinkPut_holding, List.nil_append] at hput
    cases hput
    dsimp only [BpSink.holding]
    rw [filled, List.take_of_length_le hroom, List.take_left]
  · cases hno

/-- **When a pretoken is emitted completely.** Where `merge_long` succeeds, the ids it emits stand for all bytes of the
pretoken exactly if these are no more than `2 ^ 31`. -/
theorem merge_long_complete_iff (h : Opens host map v) (hb : v.ByteCoherent) (p : List UInt8) :
    (∀ (c c' : BpCtx) (out : List Nat) (sink : BpSink), c.v = v → p.length ≤ out.length →
      mergeLong c p ⟨out, 0⟩ = .ok (.ok (), (c', sink)) → (sink.out.take sink.total).flatMap v.span = p) ↔
      p.length ≤ 2 ^ 31 := by
  have hv := h.valid
  by_cases hpos : 0 < p.length
  swap
  · obtain rfl : p = [] := List.eq_nil_of_length_eq_zero (by omega)
    exact iff_of_true (fun c c' out sink _ _ hrun => absurd hrun (mergeLong_nil c _ _)) (Nat.zero_le _)
  obtain ⟨ids, hids, hshort, hprefix, hwhole⟩ := longIds_bytes hv hb hpos
  constructor
  · intro hall
    obtain ⟨c, hc, hg⟩ := exists_context v
    have hcv := (h.coherent hc).handle
    obtain ⟨nd, hmerge, hwalk⟩ := longIds_eq_some hids
    obtain ⟨r, c', sink, hrun, -, hgranted⟩ := mergeLong_returns hcv hmerge hwalk ⟨List.replicate p.length 0, 0⟩
    cases hgranted hg
    have hroom : ids.length ≤ (List.replicate p.length 0).length := by rwa [List.length_replicate]
    have hsame := hall c c' _ sink hcv (Nat.le_of_eq List.length_replicate.symm) hrun
    rw [mergeLong_buffer hcv hids hroom hrun] at hsame
    have hle := hprefix.length_le
    rw [hsame, length_linked] at hle
    exact Nat.le_trans hle (Nat.min_le_left _ _)
  · intro hlen c c' out sink hcv hroom hrun
    rw [mergeLong_buffer hcv hids (Nat.le_trans hshort hroom) hrun, hwhole (by omega), linked_of_le hlen]

end Complete

section Cut

theorem toy_coherent : Convert.toy.vocab.ByteCoherent := by
  have hopens : Opens ⟨true, true, true⟩ Convert.toy.image Convert.toy.vocab := Convert.toy_opens
  apply byteCoherent_of_slots hopens.valid
  decide +kernel

theorem merge_long_complete_toy : [0x61, 0x62].length ≤ 2 ^ 31 ∧
    ∀ (c c' : BpCtx) (out : List Nat) (sink : BpSink), c.v = Convert.toy.vocab → 2 ≤ out.length →
      mergeLong c [0x61, 0x62] ⟨out, 0⟩ = .ok (.ok (), (c', sink)) →
      (sink.out.take sink.total).flatMap Convert.toy.vocab.span = [0x61, 0x62] :=
  have hshort : [0x61, 0x62].length ≤ 2 ^ 31 := by decide
  ⟨hshort, (merge_long_complete_iff Convert.toy_opens toy_coherent [0x61, 0x62]).2 hshort⟩

/-- Of 2^31 + 1 letters a the last is lost, and `merge_long` returns 0. -/
theorem not_merge_long_complete : Opens ⟨true, true, true⟩ Convert.toy.image Convert.toy.vocab ∧
    Convert.toy.vocab.ByteCoherent ∧
    (∃ (c c' : BpCtx) (sink : BpSink), c.Reached shipped Convert.toy.vocab ∧
      mergeLong c (List.replicate (2 ^ 31 + 1) 0x61) ⟨List.replicate (2 ^ 31 + 1) 0, 0⟩ = .ok (.ok (), (c', sink)) ∧
      (sink.out.take sink.total).flatMap Convert.toy.vocab.span = List.replicate (2 ^ 31) 0x61) ∧
    ¬∀ (host : Host) (map : List UInt8) (v : BpVocab), Opens host map v → v.ByteCoherent → ∀ (p : List UInt8)
      (c c' : BpCtx) (out : List Nat) (sink : BpSink), c.v = v → p.length ≤ out.length →
      mergeLong c p ⟨out, 0⟩ = .ok (.ok (), (c', sink)) → (sink.out.take sink.total).flatMap v.span = p := by
  have hopens : Opens ⟨true, true, true⟩ Convert.toy.image Convert.toy.vocab := Convert.toy_opens
  generalize hbyte : (0x61 : UInt8) = b
  generalize hn : 2 ^ 31 + 1 = n
  have hlen : (List.replicate n b).length = n := List.length_replicate
  have hlinked : linked (List.replicate n b) = List.replicate (2 ^ 31) b := by
    rw [linked, List.take_replicate, Nat.min_eq_left (by omega)]
  obtain ⟨c, hc, hg⟩ := exists_context Convert.toy.vocab
  have hcv := (hopens.coherent hc).handle
  obtain ⟨ids, hids, hshort, -, hwhole⟩ := longIds_bytes hopens.valid toy_coherent (show 0 < (List.replicate n b).length by omega)
  obtain ⟨nd, hmerge, hwalk⟩ := longIds_eq_some hids
  obtain ⟨r, c', sink, hrun, -, hgranted⟩ := mergeLong_returns hcv hmerge hwalk ⟨List.replicate n 0, 0⟩
  cases hgranted hg
  have hroom : ids.length ≤ (List.replicate n 0).length := by rwa [List.length_replicate, ← hlen]
  have hemitted : (sink.out.take sink.total).flatMap Convert.toy.vocab.span = List.replicate (2 ^ 31) b := by
    rw [mergeLong_buffer hcv hids hroom hrun, hwhole (by omega), hlinked]
  refine ⟨hopens, toy_coherent, ⟨c, c', sink, hc, hrun, hemitted⟩, fun hall => ?_⟩
  have hsame := hall _ _ _ hopens toy_coherent (List.replicate n b) c c' (List.replicate n 0) sink hcv
    (Nat.le_of_eq (hlen.trans List.length_replicate.symm)) hrun
  have hcount := congrArg List.length (hemitted.symm.trans hsame)
  rw [List.length_replicate, hlen] at hcount
  omega

end Cut

end Bytepair
