import Bytepair.Encode.Opened

/-!
# Buffers of any size

A caller asks for the count first and then hands over a buffer, of this size or another. `two_calls`: the count does
not depend on the buffer, and what is written is the front of one list, as far as the buffer goes.
-/

namespace Bytepair
open Support

/-- `out'` is the buffer `out` with the front of `full` written to it, as far as there is room, and nothing else. -/
structure Clipped {α : Type} (out full out' : List α) : Prop where
  length : out'.length = out.length
  written : out'.take (min out.length full.length) = full.take (min out.length full.length)
  beyond : out'.drop (min out.length full.length) = out.drop (min out.length full.length)

theorem clipped_filled {α : Type} (out full : List α) : Clipped out full (filled out full) := by
  have hlen : (full.take out.length).length = min out.length full.length := List.length_take
  constructor
  · exact length_filled
  · rw [filled, List.take_append_of_le_length (Nat.le_of_eq hlen.symm), List.take_take,
      Nat.min_eq_left (Nat.min_le_left _ _)]
  · rw [filled, List.drop_append, hlen, Nat.sub_self, List.drop_zero, List.drop_of_length_le (Nat.le_of_eq hlen),
      List.nil_append]
    rcases Nat.le_total out.length full.length with hle | hle
    · rw [List.drop_of_length_le hle, Nat.min_eq_left hle, List.drop_length]
    · rw [Nat.min_eq_right hle]

variable {host : Host} {map : List UInt8} {v : BpVocab}

/-- A call to the encoder with memory granted. -/
theorem Opens.encode_filled (h : Opens host map v) {t : List UInt8} {flags : Nat} {ids : List Nat}
    (hids : encodeIds shipped v t flags = some ids) {c : BpCtx} (hc : c.Reached shipped v) (hg : c.scratch.Granted)
    (out : List Nat) : ∃ c', bpEncode shipped c t out flags = .ok (.ok ids.length, (c', filled out ids)) := by
  have hrun := h.encode hc t out flags
  rw [hids] at hrun
  generalize bpEncode shipped c t out flags = x at hrun
  cases hrun with
  | done _ c' _ _ => exact ⟨c', rfl⟩
  | refused _ c' _ _ hno _ => exact absurd hg hno

/-- **Two calls.** An input and its flags come to one list of ids: on whatever context with memory granted, and into
whatever buffer, the encoder returns its length and writes its front. Ids and flags come to bytes or an error: the
decoder returns their length and writes their front, or returns the error. -/
theorem two_calls (h : Opens host map v) :
    (∀ (t : List UInt8) (flags : Nat), ∃ ids : List Nat, ∀ c : BpCtx, c.Reached shipped v → c.scratch.Granted →
      ∀ out : List Nat, ∃ c' out', bpEncode shipped c t out flags = .ok (.ok ids.length, (c', out')) ∧ Clipped out ids out') ∧
    ∀ (ids : List Nat) (flags : Nat), ∃ r : Except Err (List UInt8), ∀ c : BpCtx, c.Reached shipped v →
      ∀ out : List UInt8, ∃ out', bpDecode c ids out flags = .ok (r.map List.length, out') ∧
        ∀ bytes, r = .ok bytes → Clipped out bytes out' := by
  constructor
  · intro t flags
    obtain ⟨ids, hids⟩ := encodeIds_isSome (T := shipped) h.valid t flags
    refine ⟨ids, fun c hc hg out => ?_⟩
    obtain ⟨c', hrun⟩ := h.encode_filled hids hc hg out
    exact ⟨c', _, hrun, clipped_filled out ids⟩
  · intro ids flags
    refine ⟨decodeIds v flags ids, fun c hc out => ?_⟩
    have hrun := bpDecode_eq h.valid (h.coherent hc).handle flags ids out
    cases hbytes : decodeIds v flags ids with
    | ok bytes =>
      rw [hbytes] at hrun
      refine ⟨_, hrun, ?_⟩
      rintro _ ⟨⟩
      exact clipped_filled out bytes
    | error e =>
      rw [hbytes] at hrun
      obtain ⟨out', hrun⟩ := hrun
      refine ⟨out', hrun, ?_⟩
      rintro _ ⟨⟩

/-- Three letters, into buffers of no cell and of two. -/
theorem two_calls_toy : ∃ ids : List Nat, ∀ c : BpCtx, c.Reached shipped Convert.toy.vocab → c.scratch.Granted →
    (∃ c' out', bpEncode shipped c [0x61, 0x62, 0x61] [] 0 = .ok (.ok ids.length, (c', out')) ∧ Clipped [] ids out') ∧
    ∃ c' out', bpEncode shipped c [0x61, 0x62, 0x61] [7, 7] 0 = .ok (.ok ids.length, (c', out')) ∧ Clipped [7, 7] ids out' := by
  obtain ⟨ids, hids⟩ := (two_calls Convert.toy_opens).1 [0x61, 0x62, 0x61] 0
  exact ⟨ids, fun c hc hg => ⟨hids c hc hg [], hids c hc hg [7, 7]⟩⟩

end Bytepair
