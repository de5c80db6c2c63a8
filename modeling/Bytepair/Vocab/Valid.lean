import Bytepair.Vocab.Model
import Bytepair.Support.Probing

/-!
# What the loader's checks buy

`BpVocab.Valid` is what every later read relies on. `bpVocabOpen_spec`: the loader returns on
every file, and what it accepts is valid.
-/

namespace Bytepair
open Support

/-- Where the bytes of token `i` start. -/
def offsetOf (tokOff : List Nat) (i : Nat) : Nat := tokOff[i]?.getD 0

/-- The key and the value of a slot. -/
def keyOf (pairs : List Nat) (s : Nat) : Nat := pairs[s * 2]?.getD BPV_PAIR_EMPTY
def valueOf (pairs : List Nat) (s : Nat) : Nat := pairs[s * 2 + 1]?.getD 0

/-- The bytes of a token. -/
def spanOf (tokOff : List Nat) (blob : List UInt8) (id : Nat) : List UInt8 :=
  (blob.drop (offsetOf tokOff id)).take (offsetOf tokOff (id + 1) - offsetOf tokOff id)

/-- A slot that is in range, if it is occupied. -/
def SlotOk (count : Nat) (pairs : List Nat) (s : Nat) : Prop :=
  keyOf pairs s ≠ BPV_PAIR_EMPTY →
    keyOf pairs s >>> 32 < count ∧ keyOf pairs s % 2 ^ 32 < count ∧ valueOf pairs s % 2 ^ 32 < count

/-- A record that is what the table says of its id. -/
structure RecordOk (count : Nat) (tokOff : List Nat) (a : BpvAdded) : Prop where
  id : a.id < count
  pos : 0 < a.len
  len : a.len ≤ 250
  offset : a.offset = offsetOf tokOff a.id
  stop : offsetOf tokOff (a.id + 1) = a.offset + a.len

namespace BpVocab

variable (v : BpVocab)

def span (id : Nat) : List UInt8 := spanOf v.tokOff v.blob id

/-- The token of a byte. -/
def byteToken (b : UInt8) : Nat := v.byteId[b.toNat]?.getD 0

/-- An id the vocabulary has. -/
def HasId (id : Nat) : Prop := id < v.hdr.vocabCount

/-- A handle every read of which is in bounds. -/
structure Valid : Prop where
  countLe : v.hdr.vocabCount ≤ 2 ^ 21
  offsets : v.tokOff.length = v.hdr.vocabCount + 1
  narrow : ∀ i, offsetOf v.tokOff i < 2 ^ 32
  mono : ∀ i < v.hdr.vocabCount, offsetOf v.tokOff i ≤ offsetOf v.tokOff (i + 1)
  last : offsetOf v.tokOff v.hdr.vocabCount ≤ v.blob.length
  log2 : v.hdr.pairSlotsLog2 ≤ 32
  slots : v.pairs.length = v.hdr.slots * 2
  wide : ∀ w ∈ v.pairs, w < 2 ^ 64
  mask : v.pairMask = v.hdr.slots - 1
  slot : ∀ s < v.hdr.slots, SlotOk v.hdr.vocabCount v.pairs s
  room : ∃ s < v.hdr.slots, keyOf v.pairs s = BPV_PAIR_EMPTY
  bytes : v.byteId.length = 256
  byte : ∀ b, v.HasId (v.byteToken b) ∧ v.span (v.byteToken b) = [b]
  addedCount : v.added.length = v.hdr.addedCount
  addedLe : v.added.length ≤ 64
  record : ∀ a ∈ v.added, RecordOk v.hdr.vocabCount v.tokOff a
  sorted : v.added.Pairwise fun a b => a.id < b.id

end BpVocab

section Words

/-- A number is below what its bytes can hold. -/
theorem littleEndian_lt (bs : List UInt8) : littleEndian bs < 256 ^ bs.length := by
  induction bs with
  | nil => exact Nat.one_pos
  | cons b bs ih =>
    have hb := b.toNat_lt
    rw [littleEndian, List.length_cons, Nat.pow_succ]
    omega

theorem length_words (k n : Nat) (bs : List UInt8) : (words k n bs).length = n := by
  induction n generalizing bs with
  | zero => rfl
  | succ n ih => rw [words, List.length_cons, ih]

/-- Words of `k` bytes are below 2^(8k), wherever the section ends. -/
theorem words_lt {k n : Nat} {bs : List UInt8} {w : Nat} (h : w ∈ words k n bs) : w < 256 ^ k := by
  induction n generalizing bs with
  | zero => cases h
  | succ n ih =>
    rcases List.mem_cons.1 h with rfl | h
    · exact Nat.lt_of_lt_of_le (littleEndian_lt _)
        (Nat.pow_le_pow_right (by decide) (List.length_take_le k bs))
    · exact ih h

theorem words_getD_lt {k n : Nat} {bs : List UInt8} (i : Nat) : (words k n bs)[i]?.getD 0 < 256 ^ k := by
  cases h : (words k n bs)[i]? with
  | none => exact Nat.pow_pos (by decide)
  | some w => exact words_lt (List.mem_of_getElem? h)

/-- A 32-bit difference that does not wrap is the difference. -/
theorem sub32_of_le {a b : Nat} (ha : a < 2 ^ 32) (h : b ≤ a) : sub32 a b = a - b := by
  unfold sub32
  rw [show a + 2 ^ 32 - b = (a - b) + 2 ^ 32 by omega, Nat.add_mod_right]
  exact Nat.mod_eq_of_lt (by omega)

theorem index_getD {α : Type} {xs : List α} {i : Nat} (d : α) (h : i < xs.length) :
    index xs i = .ok (xs[i]?.getD d) := by
  rw [index_lt h, List.getElem?_eq_getElem h]
  rfl

end Words

section Checks

variable {h : BpvHeader} {tokOff : List Nat}

/-- The loop over the token offsets stays in the section, and it accepts exactly the offsets that never fall back and end in
the blob. -/
theorem offsetsOk_spec (hlen : tokOff.length = h.vocabCount + 1) :
    ∃ b, offsetsOk h tokOff = .ok b ∧ (b = true ↔
      (∀ i < h.vocabCount, offsetOf tokOff i ≤ offsetOf tokOff (i + 1)) ∧
        offsetOf tokOff h.vocabCount ≤ h.tokenBlob.size) := by
  have hcheck : ∀ i ∈ List.range h.vocabCount,
      ∃ b, (do pure ((← index tokOff i) ≤ (← index tokOff (i + 1))) : Run Bool) = .ok b ∧
        (b = true ↔ offsetOf tokOff i ≤ offsetOf tokOff (i + 1)) := by
    intro i hi
    have := List.mem_range.1 hi
    rw [index_getD 0 (show i < tokOff.length by omega), index_getD 0 (show i + 1 < tokOff.length by omega)]
    exact ⟨_, rfl, decide_eq_true_iff⟩
  obtain ⟨b, hb, hall⟩ := allM_spec hcheck
  simp only [List.mem_range] at hall
  rw [← hall]
  unfold offsetsOk
  rw [hb, Run.ok_bind]
  cases b with
  | false => exact ⟨false, rfl, by simp⟩
  | true =>
    refine ⟨decide (offsetOf tokOff h.vocabCount ≤ h.tokenBlob.size), ?_, by simp⟩
    rw [if_pos rfl, index_getD 0 (by omega)]
    rfl

/-- How many of the first `n` slots are occupied. -/
def occupiedBelow (key : Nat → Nat) (n : Nat) : Nat :=
  (List.range n).countP fun s => key s ≠ BPV_PAIR_EMPTY

theorem occupiedBelow_succ (key : Nat → Nat) (n : Nat) :
    occupiedBelow key (n + 1) = occupiedBelow key n + if key n ≠ BPV_PAIR_EMPTY then 1 else 0 := by
  unfold occupiedBelow
  rw [List.range_succ, List.countP_append, List.countP_singleton]
  simp

/-- Without an empty slot all slots count, which the limit of 13 in 20 excludes. -/
theorem occupiedBelow_full {key : Nat → Nat} {n : Nat} (hfull : ∀ s < n, key s ≠ BPV_PAIR_EMPTY) :
    occupiedBelow key n = n := by
  induction n with
  | zero => rfl
  | succ n ih =>
    rw [occupiedBelow_succ, ih fun s hs => hfull s (by omega), if_pos (hfull n (Nat.lt_succ_self n))]

/-- A round at a slot of the table. -/
theorem pairRound_eq {pairs : List Nat} (hlen : pairs.length = h.slots * 2) {s occupied : Nat}
    (hs : s < h.slots) :
    pairRound h pairs (s, occupied) =
      .ok (if keyOf pairs s = BPV_PAIR_EMPTY then .next (s + 1, occupied)
        else if h.vocabCount ≤ keyOf pairs s >>> 32 ∨ h.vocabCount ≤ keyOf pairs s % 2 ^ 32 ∨
          h.vocabCount ≤ valueOf pairs s % 2 ^ 32 then .done none
        else .next (s + 1, occupied + 1)) := by
  have hkey : index pairs (s * 2) = .ok (keyOf pairs s) := index_getD _ (by omega)
  have hvalue : index pairs (s * 2 + 1) = .ok (valueOf pairs s) := index_getD _ (by omega)
  simp only [pairRound, if_pos hs, hkey, hvalue, Run.ok_bind, Bool.or_eq_true, decide_eq_true_eq, or_assoc]
  by_cases hempty : keyOf pairs s = BPV_PAIR_EMPTY
  · rw [if_pos hempty, if_pos hempty]
    rfl
  · rw [if_neg hempty, if_neg hempty]
    split <;> rfl

/-- The loop over the slots stays in the table, and it accepts exactly the tables whose occupied slots name ids, with room
left for a probe to end in. -/
theorem pairsOk_spec {pairs : List Nat} (hlen : pairs.length = h.slots * 2) :
    ∃ b, pairsOk h pairs = .ok b ∧ (b = true ↔
      (∀ s < h.slots, SlotOk h.vocabCount pairs s) ∧
        occupiedBelow (keyOf pairs) h.slots ≤ h.slots * 13 / 20) := by
  obtain ⟨r, hr, hpost⟩ := @loop_rule _ _ (pairRound h pairs)
    (fun p : Nat × Nat => p.1 ≤ h.slots ∧ p.2 = occupiedBelow (keyOf pairs) p.1 ∧
      ∀ s < p.1, SlotOk h.vocabCount pairs s)
    (fun p : Nat × Nat => h.slots - p.1)
    (fun r : Option Nat =>
      (∀ occupied ∈ r, occupied = occupiedBelow (keyOf pairs) h.slots ∧ ∀ s < h.slots, SlotOk h.vocabCount pairs s) ∧
        (r = none → ∃ s < h.slots, ¬SlotOk h.vocabCount pairs s))
    (by
      rintro ⟨s, occupied⟩ ⟨hle, hocc, hok⟩
      dsimp only at hle hocc hok
      by_cases hs : s < h.slots
      · have hsucc := occupiedBelow_succ (keyOf pairs) s
        have extend : SlotOk h.vocabCount pairs s → ∀ t < s + 1, SlotOk h.vocabCount pairs t := by
          intro hnew t ht
          rcases Nat.lt_succ_iff_lt_or_eq.1 ht with hlt | rfl
          · exact hok t hlt
          · exact hnew
        have hrank : h.slots - (s + 1) < h.slots - s := by omega
        rw [pairRound_eq hlen hs]
        by_cases hempty : keyOf pairs s = BPV_PAIR_EMPTY
        · rw [if_pos hempty]
          rw [if_neg (not_not.2 hempty)] at hsucc
          have hocc' : occupied = occupiedBelow (keyOf pairs) (s + 1) := by omega
          exact .inl ⟨_, rfl, ⟨hs, hocc', extend fun h => absurd hempty h⟩, hrank⟩
        · rw [if_neg hempty]
          rw [if_pos hempty] at hsucc
          split
          · next hrange =>
            refine .inr ⟨none, rfl, by simp, fun _ => ⟨s, hs, fun hok => ?_⟩⟩
            have := hok hempty
            omega
          · next hrange =>
            simp only [not_or, Nat.not_le] at hrange
            have hocc' : occupied + 1 = occupiedBelow (keyOf pairs) (s + 1) := by omega
            exact .inl ⟨_, rfl, ⟨hs, hocc', extend fun _ => hrange⟩, hrank⟩
      · refine .inr ⟨some occupied, by simp [pairRound, hs], ?_⟩
        obtain rfl : s = h.slots := by omega
        constructor
        · rintro _ ⟨⟩
          exact ⟨hocc, hok⟩
        · rintro ⟨⟩)
    (h.slots + 1) (0, 0) ⟨Nat.zero_le _, rfl, fun s hs => absurd hs (Nat.not_lt_zero s)⟩ (by dsimp only; omega)
  unfold pairsOk
  rw [hr, Run.ok_bind]
  cases r with
  | none =>
    obtain ⟨s, hs, hbad⟩ := hpost.2 rfl
    exact ⟨false, rfl, by simp, fun hall => absurd (hall.1 s hs) hbad⟩
  | some occupied =>
    obtain ⟨rfl, hok⟩ := hpost.1 occupied rfl
    exact ⟨_, rfl, fun hle => ⟨hok, of_decide_eq_true hle⟩, fun hall => decide_eq_true hall.2⟩

/-- The token table of a valid handle. -/
structure OffsetsOk (count : Nat) (tokOff : List Nat) (blobSize : Nat) : Prop where
  length : tokOff.length = count + 1
  wide : ∀ i, offsetOf tokOff i < 2 ^ 32
  mono : ∀ i < count, offsetOf tokOff i ≤ offsetOf tokOff (i + 1)
  last : offsetOf tokOff count ≤ blobSize

/-- Offsets that never fall back by one step never fall back. -/
theorem OffsetsOk.le {count blobSize : Nat} (ok : OffsetsOk count tokOff blobSize) {i j : Nat} (hij : i ≤ j)
    (hj : j ≤ count) : offsetOf tokOff i ≤ offsetOf tokOff j := by
  induction j, hij using Nat.le_induction with
  | base => exact Nat.le_refl _
  | succ j hij ih => exact Nat.le_trans (ih (by omega)) (ok.mono j (by omega))

theorem OffsetsOk.index {count blobSize : Nat} (ok : OffsetsOk count tokOff blobSize) {i : Nat}
    (hi : i ≤ count) : Support.index tokOff i = .ok (offsetOf tokOff i) :=
  index_getD 0 (by rw [ok.length]; omega)

/-- The length the code computes of a token is the distance of its offsets. -/
theorem OffsetsOk.sub {count blobSize : Nat} (ok : OffsetsOk count tokOff blobSize) {i : Nat} (hi : i < count) :
    sub32 (offsetOf tokOff (i + 1)) (offsetOf tokOff i) = offsetOf tokOff (i + 1) - offsetOf tokOff i :=
  sub32_of_le (ok.wide _) (ok.mono i hi)

/-- The check of a byte reads in bounds, and it accepts exactly the ids whose span is that byte. -/
theorem byteOk_spec {blob : List UInt8} {byteId : List Nat} (ok : OffsetsOk h.vocabCount tokOff blob.length)
    (hlen : byteId.length = 256) {i : Nat} (hi : i < 256) :
    ∃ b, byteOk h tokOff blob byteId i = .ok b ∧ (b = true ↔
      byteId[i]?.getD 0 < h.vocabCount ∧ spanOf tokOff blob (byteId[i]?.getD 0) = [UInt8.ofNat i]) := by
  unfold byteOk
  rw [index_getD 0 (by omega), Run.ok_bind]
  generalize byteId[i]?.getD 0 = id
  by_cases hid : h.vocabCount ≤ id
  · exact ⟨false, by rw [if_pos hid]; rfl, by simp, fun hspan => absurd hid (Nat.not_le.2 hspan.1)⟩
  rw [if_neg hid, ok.index (by omega), Run.ok_bind, ok.index (by omega), Run.ok_bind, ok.sub (by omega)]
  have hend := ok.le (show id + 1 ≤ h.vocabCount by omega) (Nat.le_refl _)
  have hlast := ok.last
  by_cases hone : offsetOf tokOff (id + 1) - offsetOf tokOff id = 1
  · have hin : offsetOf tokOff id < blob.length := by omega
    have hspan : spanOf tokOff blob id = [blob[offsetOf tokOff id]] := by
      rw [spanOf, hone, List.drop_eq_getElem_cons hin]
      rfl
    rw [if_neg (not_not.2 hone), index_lt hin, Run.ok_bind, hspan]
    exact ⟨_, rfl, fun hb => ⟨by omega, by rw [of_decide_eq_true hb]⟩,
      fun hb => decide_eq_true (List.singleton_inj.1 hb.2)⟩
  · refine ⟨false, by rw [if_pos hone]; rfl, by simp, fun hspan => ?_⟩
    have hlen := congrArg List.length hspan.2
    rw [spanOf, List.length_take, List.length_drop, List.length_singleton] at hlen
    omega

/-- The loop over the added records reads in bounds, and it accepts exactly the records that agree with the token table,
with ids that rise. -/
theorem addedOk_spec {blobSize : Nat} (ok : OffsetsOk h.vocabCount tokOff blobSize) (prev : Option Nat)
    (as : List BpvAdded) :
    ∃ b, addedOk h tokOff prev as = .ok b ∧ (b = true ↔
      (∀ a ∈ as, RecordOk h.vocabCount tokOff a) ∧ (as.Pairwise fun a b => a.id < b.id) ∧
        ∀ p ∈ prev, ∀ a ∈ as, p < a.id) := by
  induction as generalizing prev with
  | nil => exact ⟨true, rfl, by simp⟩
  | cons a as ih =>
    rw [addedOk]
    by_cases hfields : (decide (h.vocabCount ≤ a.id) || decide (a.len = 0) || decide (250 < a.len)) = true
    · refine ⟨false, by rw [if_pos hfields], by simp, fun hall => ?_⟩
      have hr := hall.1 a List.mem_cons_self
      have := hr.id
      have := hr.pos
      have := hr.len
      simp only [Bool.or_eq_true, decide_eq_true_eq] at hfields
      omega
    rw [if_neg hfields]
    simp only [Bool.or_eq_true, decide_eq_true_eq, not_or] at hfields
    have hmono := ok.mono a.id (by omega)
    rw [ok.index (by omega), Run.ok_bind, ok.index (by omega), Run.ok_bind, ok.sub (by omega)]
    by_cases hspan : a.offset ≠ offsetOf tokOff a.id ∨
        a.len ≠ offsetOf tokOff (a.id + 1) - offsetOf tokOff a.id
    · refine ⟨false, by rw [if_pos (by simpa using hspan)]; rfl, by simp, fun hall => ?_⟩
      have hr := hall.1 a List.mem_cons_self
      have := hr.offset
      have := hr.stop
      omega
    rw [if_neg (by simpa using hspan)]
    simp only [not_or, not_not] at hspan
    by_cases hprev : prev.any (a.id ≤ ·) = true
    · refine ⟨false, by rw [if_pos hprev]; rfl, by simp, fun hall => ?_⟩
      cases prev with
      | none => simp at hprev
      | some p =>
        have := hall.2.2 p rfl a List.mem_cons_self
        simp only [Option.any_some, decide_eq_true_eq] at hprev
        omega
    rw [if_neg hprev]
    obtain ⟨b, hb, hall⟩ := ih (some a.id)
    have hfirst : ∀ p ∈ prev, p < a.id := by
      rintro p hp
      rw [hp] at hprev
      simpa using hprev
    have hrecord : RecordOk h.vocabCount tokOff a := ⟨by omega, by omega, by omega, hspan.1, by omega⟩
    refine ⟨b, hb, hall.trans ⟨?_, ?_⟩⟩
    · rintro ⟨hrec, hsorted, hlt⟩
      refine ⟨List.forall_mem_cons.2 ⟨hrecord, hrec⟩, List.pairwise_cons.2 ⟨hlt a.id rfl, hsorted⟩,
        fun p hp => List.forall_mem_cons.2 ⟨hfirst p hp, ?_⟩⟩
      exact fun c hc => Nat.lt_trans (hfirst p hp) (hlt a.id rfl c hc)
    · rintro ⟨hrec, hsorted, -⟩
      obtain ⟨hlt, hsorted⟩ := List.pairwise_cons.1 hsorted
      refine ⟨(List.forall_mem_cons.1 hrec).2, hsorted, ?_⟩
      rintro p ⟨⟩
      exact hlt

end Checks

end Bytepair
