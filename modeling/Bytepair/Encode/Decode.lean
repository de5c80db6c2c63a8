import Bytepair.Encode.Model
import Bytepair.Vocab.Open
import Bytepair.Bpe.Pretoken

/-!
# Decoding

`decodeIds` is what `bp_decode` comes to for a list of ids: the bytes of all of them, or the
error of the first that has none. `bpDecode_eq`: over a valid handle every call returns it
and fills the buffer with the bytes as far as there is room.
-/

namespace Bytepair
open Support

/-- The id is that of an added token with the special bit. -/
def BpVocab.special (v : BpVocab) (id : Nat) : Bool := v.added.any fun a => a.id = id && a.flags &&& 1 ≠ 0

/-- The bytes of one id. -/
def decodeOne (v : BpVocab) (flags id : Nat) : Except Err (List UInt8) :=
  if v.hdr.vocabCount ≤ id then .error .range
  else if flags &&& BP_SKIP_SPECIAL ≠ 0 ∧ v.special id = true then .ok []
  else if v.span id = [] then .error .range
  else .ok (v.span id)

/-- The bytes of a list of ids. -/
def decodeIds (v : BpVocab) (flags : Nat) : List Nat → Except Err (List UInt8)
  | [] => .ok []
  | id :: ids => do pure ((← decodeOne v flags id) ++ (← decodeIds v flags ids))

section Special

variable {v : BpVocab}

/-- The window still has every record of the id. -/
def Window (v : BpVocab) (id : Nat) (s : Nat × Nat) : Prop :=
  s.1 ≤ s.2 ∧ s.2 ≤ v.added.length ∧ ∀ k a, v.added[k]? = some a → a.id = id → s.1 ≤ k ∧ k < s.2

/-- Ids rise along the records, so half of a window can be left out. -/
theorem Window.narrow (hv : v.Valid) {id lo hi mid : Nat} {a : BpvAdded} (h : Window v id (lo, hi))
    (hmid : lo ≤ mid ∧ mid < hi) (ha : v.added[mid]? = some a) :
    (a.id < id → Window v id (mid + 1, hi)) ∧ (id < a.id → Window v id (lo, mid)) := by
  obtain ⟨-, hhi, hin⟩ := h
  dsimp only at hhi hin
  have order : ∀ k b, v.added[k]? = some b → (k < mid → b.id < a.id) ∧ (mid < k → a.id < b.id) := by
    intro k b hb
    obtain ⟨hk, rfl⟩ := List.getElem?_eq_some_iff.1 hb
    obtain ⟨hm, rfl⟩ := List.getElem?_eq_some_iff.1 ha
    have hsorted := List.pairwise_iff_getElem.1 hv.sorted
    exact ⟨hsorted k mid hk hm, hsorted mid k hm hk⟩
  have same : ∀ b, v.added[mid]? = some b → b = a := fun b hb => Option.some.inj (hb.symm.trans ha)
  constructor
  · intro hlt
    refine ⟨by dsimp only; omega, hhi, fun k b hb hid => ?_⟩
    obtain ⟨hlo, hk⟩ := hin k b hb hid
    refine ⟨?_, hk⟩
    rcases Nat.lt_trichotomy k mid with hkm | rfl | hkm
    · have := (order k b hb).1 hkm
      omega
    · rw [same b hb] at hid
      omega
    · exact hkm
  · intro hlt
    refine ⟨hmid.1, by dsimp only; omega, fun k b hb hid => ?_⟩
    obtain ⟨hlo, hk⟩ := hin k b hb hid
    refine ⟨hlo, ?_⟩
    rcases Nat.lt_trichotomy k mid with hkm | rfl | hkm
    · exact hkm
    · rw [same b hb] at hid
      omega
    · have := (order k b hb).2 hkm
      omega

/-- A round of the binary search halves the window, or it ends with the right answer. -/
theorem specialRound_spec (hv : v.Valid) {id lo hi : Nat} (hw : Window v id (lo, hi)) :
    (∃ s, specialRound v id (lo, hi) = .ok (.next s) ∧ Window v id s ∧ s.2 - s.1 < hi - lo) ∨
      specialRound v id (lo, hi) = .ok (.done (v.special id)) := by
  unfold specialRound
  rcases Nat.lt_or_ge lo hi with hlt | hge
  · have hmid : lo ≤ (lo + hi) / 2 ∧ (lo + hi) / 2 < hi := by omega
    have hin : (lo + hi) / 2 < v.added.length := Nat.lt_of_lt_of_le hmid.2 hw.2.1
    have hget : v.added[(lo + hi) / 2]? = some v.added[(lo + hi) / 2] := List.getElem?_eq_getElem hin
    generalize v.added[(lo + hi) / 2] = a at hget
    obtain ⟨hright, hleft⟩ := hw.narrow hv hmid hget
    simp only [if_pos hlt, index_of_some hget, Run.ok_bind]
    rcases Nat.lt_trichotomy a.id id with hid | rfl | hid
    · exact .inl ⟨_, by rw [if_pos hid]; rfl, hright hid, by dsimp only; omega⟩
    · rw [if_neg (Nat.lt_irrefl _), if_neg (Nat.lt_irrefl _)]
      refine .inr (congrArg (fun b => Except.ok (Flow.done b)) ?_)
      have hmem := List.mem_of_getElem? hget
      rw [Bool.eq_iff_iff, decide_eq_true_eq, BpVocab.special, List.any_eq_true]
      constructor
      · intro hflag
        exact ⟨a, hmem, by simpa using hflag⟩
      · rintro ⟨b, hb, hflag⟩
        rw [Bool.and_eq_true, decide_eq_true_eq, decide_eq_true_eq] at hflag
        obtain rfl := hv.added_inj hb hmem hflag.1
        exact hflag.2
    · exact .inl ⟨_, by rw [if_neg (by omega), if_pos hid]; rfl, hleft hid, by dsimp only; omega⟩
  · simp only [if_neg (Nat.not_lt.2 hge)]
    refine .inr (congrArg (fun b => Except.ok (Flow.done b)) ?_)
    symm
    rw [BpVocab.special, List.any_eq_false]
    intro a ha hflag
    rw [Bool.and_eq_true, decide_eq_true_eq] at hflag
    obtain ⟨k, hk⟩ := List.mem_iff_getElem?.1 ha
    have := hw.2.2 k a hk hflag.1
    dsimp only at this
    omega

/-- The binary search finds the record of an id if there is one, and tells its special bit. -/
theorem isSpecial_eq (hv : v.Valid) (id : Nat) : isSpecial v id = .ok (v.special id) := by
  unfold isSpecial
  rw [← hv.addedCount]
  apply loop_eq (Window v id) (fun s => s.2 - s.1) (fun _ => v.special id)
  · rintro ⟨lo, hi⟩ hw
    rcases specialRound_spec hv hw with ⟨s, hround, hs, hlt⟩ | hdone
    · exact .inl ⟨s, hround, hs, hlt, rfl⟩
    · exact .inr hdone
  · exact ⟨Nat.zero_le _, Nat.le_refl _, fun k a hk _ => ⟨Nat.zero_le _, (List.getElem?_eq_some_iff.1 hk).1⟩⟩
  · exact Nat.lt_succ_self _

end Special

section Decode

variable {v : BpVocab}

theorem slice_of_le {α : Type} {xs : List α} {off n : Nat} (h : off + n ≤ xs.length) :
    slice xs off n = .ok ((xs.drop off).take n) := if_pos h

/-- What `bp_decode` does with one id, every read of it in bounds. -/
theorem decodeId_eq (hv : v.Valid) (flags id : Nat) :
    decodeId v flags id = .ok (decodeOne v flags id) := by
  unfold decodeId decodeOne
  split
  · rfl
  · next hcount =>
    have hid : v.HasId id := Nat.not_le.1 hcount
    have hskip : (if flags &&& BP_SKIP_SPECIAL ≠ 0 then isSpecial v id else .ok false) =
        .ok (decide (flags &&& BP_SKIP_SPECIAL ≠ 0 ∧ v.special id = true)) := by
      split
      · next hflag => simp [isSpecial_eq hv, hflag]
      · next hflag => simp [hflag]
    rw [hskip, Run.ok_bind]
    simp only [decide_eq_true_eq]
    split
    · rfl
    · obtain ⟨hle, hend⟩ := hv.span_end hid
      have hlen := hv.length_span hid
      have hoffsets := hv.offsets
      have hcountlt : id < v.hdr.vocabCount := hid
      have hoff : index v.tokOff id = .ok (offsetOf v.tokOff id) := index_getD 0 (by omega)
      have hstop : index v.tokOff (id + 1) = .ok (offsetOf v.tokOff (id + 1)) := index_getD 0 (by omega)
      rw [hoff, Run.ok_bind, hstop, Run.ok_bind, sub32_of_le (hv.narrow _) hle, ← hlen]
      simp only [List.length_eq_zero_iff]
      split
      · rfl
      · rw [slice_of_le (by omega), hlen]
        rfl

/-- Bytes are copied behind those before them, as far as there is room. -/
theorem putBytes_filled (buf bytes more : List UInt8) :
    putBytes (filled buf bytes) bytes.length more = .ok (filled buf (bytes ++ more)) := by
  unfold putBytes
  rw [length_filled]
  rcases Nat.lt_or_ge bytes.length buf.length with hlt | hge
  · rw [if_pos hlt, copyTo_filled hlt]
  · rw [if_neg (Nat.not_lt.2 hge), filled_of_full hge]

/-- One round of `bp_decode`: the bytes of an id come behind those before it. -/
theorem decodeFrom_cons (hv : v.Valid) (flags id : Nat) (ids : List Nat) (buf bytes : List UInt8) :
    decodeFrom v flags (filled buf bytes) bytes.length (id :: ids) =
      match decodeOne v flags id with
      | .error e => .ok (.error e, filled buf bytes)
      | .ok more => decodeFrom v flags (filled buf (bytes ++ more)) (bytes ++ more).length ids := by
  rw [decodeFrom, decodeId_eq hv, Run.ok_bind]
  cases decodeOne v flags id with
  | error e => rfl
  | ok more =>
    dsimp only
    rw [putBytes_filled, Run.ok_bind, List.length_append]

/-- **Decoding** returns the length of the bytes, or the first error. -/
theorem decodeFrom_eq (hv : v.Valid) (flags : Nat) (buf bytes : List UInt8)
    (ids : List Nat) :
    match decodeIds v flags ids with
    | .ok more => decodeFrom v flags (filled buf bytes) bytes.length ids =
        .ok (.ok (bytes ++ more).length, filled buf (bytes ++ more))
    | .error e => ∃ out, decodeFrom v flags (filled buf bytes) bytes.length ids = .ok (.error e, out) := by
  induction ids generalizing bytes with
  | nil =>
    simp only [decodeIds, List.append_nil]
    rfl
  | cons id ids ih =>
    rw [decodeFrom_cons hv, decodeIds]
    cases decodeOne v flags id with
    | error e => exact ⟨_, rfl⟩
    | ok more =>
      dsimp only
      have hih := ih (bytes ++ more)
      cases hrest : decodeIds v flags ids with
      | error e =>
        rw [hrest] at hih
        exact hih
      | ok rest =>
        rw [hrest] at hih
        show decodeFrom _ _ _ _ _ = .ok (.ok (bytes ++ (more ++ rest)).length, filled buf (bytes ++ (more ++ rest)))
        rw [← List.append_assoc]
        exact hih

/-- **`bp_decode`** of a valid handle: the bytes of the ids, cut at the capacity, and the length of them all. -/
theorem bpDecode_eq (hv : v.Valid) {c : BpCtx} (hc : c.v = v)
    (flags : Nat) (ids : List Nat) (buf : List UInt8) :
    match decodeIds v flags ids with
    | .ok bytes => bpDecode c ids buf flags = .ok (.ok bytes.length, filled buf bytes)
    | .error e => ∃ out, bpDecode c ids buf flags = .ok (.error e, out) := by
  have h := decodeFrom_eq hv flags buf [] ids
  rw [filled_nil] at h
  unfold bpDecode
  rw [hc]
  exact h

end Decode

end Bytepair
