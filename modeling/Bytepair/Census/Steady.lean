import Bytepair.Census.Witness
import Bytepair.Support.Steady

/-!
# The verdict does not depend on the context

Where all that is asked is granted, every step of the search comes to the same on every context of the handle, and so does the
verdict: `censusToken_steady`.
-/

namespace Bytepair
open Support

variable {host : Host} {map : List UInt8} {v : BpVocab} {g : Prop}

section Steps

/-- A try. -/
theorem tryWitness_steady (h : Opens host map v) (hg : g) (t : Nat) (tb : List UInt8) (affix : List UInt8 × List UInt8) :
    Steady (Ready v g) fun c => tryWitness shipped c t tb affix := by
  unfold tryWitness
  dsimp only
  generalize affix.1 ++ tb ++ affix.2 = w
  apply steady_ite
  · exact fun _ => steady_pure none
  intro _
  apply steady_ite
  · exact fun _ => steady_pure none
  intro _
  obtain ⟨ids, hids⟩ := encodeIds_isSome (T := shipped) h.valid w 0
  refine ⟨if 0 < ids.length ∧ ids.length ≤ WMAX + 8 ∧ t ∈ ids then some w else none, fun c hc => ?_⟩
  have hrun := hc.encode h w (List.replicate (WMAX + 8) 0)
  dsimp only
  generalize bpEncode shipped c w (List.replicate (WMAX + 8) 0) 0 = x at hrun
  cases hrun with
  | refused _ hno => exact absurd hg hno
  | @done ids' c' hids' hc' =>
    obtain rfl : ids = ids' := Option.some.inj (hids.symm.trans hids')
    refine ⟨c', ?_, hc'⟩
    rw [Run.ok_bind]
    dsimp only
    split
    · next hroom =>
      simp only [Bool.and_eq_true, decide_eq_true_eq] at hroom
      rw [containsId_filled t (by rw [List.length_replicate]; exact hroom.2), Run.ok_bind]
      simp [hroom.1, hroom.2]
    · next hroom =>
      simp only [Bool.and_eq_true, decide_eq_true_eq] at hroom
      rw [if_neg fun hall => hroom ⟨hall.1, hall.2.1⟩]
      rfl

/-- Whether the bytes alone merge to the token. -/
theorem pureIsSingle_steady (hv : v.Valid) (hg : g) {tb : List UInt8} (hlen : tb.length ≤ WMAX) (t : Nat) :
    Steady (Ready v g) fun c => pureIsSingle c tb t := by
  refine ⟨decide (pretokenIds v tb = some [t]), fun c hc => ?_⟩
  obtain ⟨b, c', hrun, hc', hyes, hno⟩ := pureIsSingle_spec hv hc hlen t
  refine ⟨c', ?_, hc'⟩
  dsimp only
  rw [hrun]
  cases b with
  | true => simp [hyes rfl]
  | false => simp [hno rfl hg]

/-- The first of some tries. -/
theorem firstWitness_steady {α : Type} {step : BpCtx → α → Run (Option (List UInt8) × BpCtx)} {xs : List α}
    (hstep : ∀ x ∈ xs, Steady (Ready v g) fun c => step c x) : Steady (Ready v g) fun c => firstWitness step c xs := by
  induction xs with
  | nil => exact steady_pure none
  | cons x xs ih =>
    obtain ⟨hx, hxs⟩ := List.forall_mem_cons.1 hstep
    apply hx.bind
    intro found
    cases found with
    | some w => exact steady_pure (some w)
    | none => exact ih hxs

/-- The tries with some affixes. -/
theorem tryAffixes_steady (h : Opens host map v) (hg : g) (t : Nat) (tb : List UInt8)
    (affixes : List (List UInt8 × List UInt8)) :
    Steady (Ready v g) fun c => firstWitness (fun c => tryWitness shipped c t tb) c affixes :=
  firstWitness_steady fun affix _ => tryWitness_steady h hg t tb affix

/-- The tries with a byte behind that takes the completing byte away. -/
theorem stealFrom_steady (h : Opens host map v) (hg : g) (t : Nat) (tb : List UInt8) {xx : Nat} (hxx : xx < 256) (r1 : Nat) :
    Steady (Ready v g) fun c => stealFrom shipped c t tb xx r1 := by
  apply firstWitness_steady
  intro yy hyy
  refine Steady.congr ?_ fun c hc => byteLookup_eq h.valid hc.coherent hxx (followers_lt hyy) _
  apply steady_ite
  · exact fun _ => steady_pure none
  · exact fun _ => tryWitness_steady h hg t tb _

/-- The steals for a lead byte alone. -/
theorem trySteal_steady (h : Opens host map v) (hg : g) (t : Nat) (tb : List UInt8) :
    Steady (Ready v g) fun c => trySteal shipped c t tb := by
  unfold trySteal
  split
  · next b =>
    apply steady_ite
    · intro _
      apply firstWitness_steady
      intro xx hxx
      have hxx : xx < 256 := by
        obtain ⟨k, hk, rfl⟩ := List.mem_range'.1 hxx
        omega
      refine Steady.congr ?_ fun c hc => byteLookup_eq h.valid hc.coherent b.toNat_lt hxx _
      apply steady_ite
      · exact fun _ => steady_pure none
      · exact fun _ => stealFrom_steady h hg t [b] hxx _
    · exact fun _ => steady_pure none
  · exact steady_pure none

/-- The exhaustive search for a fragment of a character. -/
theorem tryFragmentExhaustive_steady (h : Opens host map v) (hg : g) (t : Nat) (tb : List UInt8) :
    Steady (Ready v g) fun c => tryFragmentExhaustive shipped c t tb := by
  unfold tryFragmentExhaustive
  apply steady_ite
  · exact fun _ => steady_pure none
  intro _
  apply steady_ite
  · exact fun _ => steady_pure none
  intro _
  apply (tryAffixes_steady h hg t tb _).bind
  intro found
  cases found with
  | some w => exact steady_pure (some w)
  | none =>
    apply (trySteal_steady h hg t tb).bind
    intro found
    cases found with
    | some w => exact steady_pure (some w)
    | none => exact tryAffixes_steady h hg t tb _

/-- The search of the pool. -/
theorem searchPool_steady (h : Opens host map v) (hg : g) (t : Nat) (tb : List UInt8) (searched : Nat)
    (affixes : List (List UInt8 × List UInt8)) :
    Steady (Ready v g) fun c => searchPool shipped t tb c searched affixes := by
  induction affixes generalizing searched with
  | nil => exact steady_pure (none, searched)
  | cons affix rest ih =>
    apply (tryWitness_steady h hg t tb affix).bind
    intro found
    cases found with
    | some w => exact steady_pure (some w, searched + 1)
    | none => exact ih (searched + 1)

end Steps

section Token

/-- The whole search for a witness. -/
theorem censusSearch_steady (h : Opens host map v) (hg : g) (t : Nat) (tb : List UInt8) (deep : Bool) :
    Steady (Ready v g) fun c => censusSearch shipped c t tb deep := by
  apply (tryAffixes_steady h hg t tb _).bind
  intro found
  cases found with
  | some w => exact steady_pure _
  | none =>
    apply (searchPool_steady h hg t tb 0 _).bind
    rintro ⟨found, searched⟩
    cases found with
    | some w => exact steady_pure _
    | none =>
      have hdeep : Steady (Ready v g) fun c =>
          if deep = true then tryFragmentExhaustive shipped c t tb else .ok (none, c) :=
        steady_ite (fun _ => tryFragmentExhaustive_steady h hg t tb) fun _ => steady_pure none
      apply hdeep.bind
      intro found
      cases found with
      | some w => exact steady_pure _
      | none => exact steady_pure _

/-- **The verdict on a token** is that of the handle and the depth, whatever the context has seen. -/
theorem censusToken_steady (h : Opens host map v) (hg : g) {t : Nat} (ht : v.HasId t) (deep : Bool) :
    Steady (Ready v g) fun c => censusToken shipped v c t deep := by
  unfold censusToken
  simp only [tokenSpan_eq h.valid ht, Run.ok_bind]
  apply steady_ite
  · exact fun _ => steady_pure _
  intro _
  apply steady_ite
  · exact fun _ => steady_pure _
  intro hlen
  apply (pureIsSingle_steady h.valid hg (Nat.le_of_not_lt hlen) t).bind
  intro single
  cases single with
  | false => exact steady_pure _
  | true =>
    apply (tryWitness_steady h hg t (v.span t) ([], [])).bind
    intro found
    cases found with
    | some w => exact steady_pure _
    | none =>
      dsimp only
      cases proveImpossible shipped (v.span t) with
      | none => exact censusSearch_steady h hg t (v.span t) deep
      | _ => exact steady_pure _

end Token

end Bytepair
