import Bytepair.Convert.Roundtrip
import Bytepair.Dump.Inspected

/-!
# What the converter writes is inspected

The converter never promised what the inspector asks: that every slot is reached, that the ranks are those from 0 on,
that a record is text. `Built.paired` and `Built.listed` read it off the passes of a conversion, and
`convert_inspected` says which images pass: those that have merges.
-/

namespace Bytepair.Dump
open Support Support.Probing Bytepair.Convert

variable {s : Source} {p : Convert.Passes} {c : Contents}

section Pairs

/-- What is in an occupied slot. -/
theorem merge_of_slot (h : Built s p c) {t : Nat} (ht : t < 2 ^ c.slotsLog2) (hne : keyOf c.pairs t ≠ EMPTY_KEY) :
    ∃ rank a b m, s.Merge rank a b m ∧ b < 2 ^ 32 ∧ keyOf c.pairs t = pairKey a b ∧ valueOf c.pairs t >>> 32 = rank ∧
      valueOf c.pairs t % 2 ^ 32 = m := by
  obtain ⟨hkey, hvalue⟩ := keyOf_zip (h.filled.keys.trans h.filled.values.symm)
  rw [← h.pairs] at hkey hvalue
  rw [hkey] at hne ⊢
  rw [hvalue]
  obtain ⟨entry, rank, a, b, m, hmem, hjoins, -, hb, hm, hk, hv⟩ := h.filled.slot t ht hne
  have hv : slotValue p.table.values t = rank * 2 ^ 32 + m := by
    rw [hv, ← Nat.shiftLeft_add_eq_or_of_lt hm, Nat.shiftLeft_eq]
  rw [hv, Nat.shiftRight_eq_div_pow]
  exact ⟨rank, a, b, m, ⟨entry, List.mem_zipIdx_iff_getElem?.1 hmem, hjoins⟩, hb, hk, by omega, by omega⟩

theorem joined_of_slot (h : Built s p c) {t : Nat} (ht : t < 2 ^ c.slotsLog2) (hne : keyOf c.pairs t ≠ EMPTY_KEY) :
    Joined c t := by
  obtain ⟨rank, a, b, m, hmerge, hb, hkey, -, hm⟩ := merge_of_slot h ht hne
  obtain ⟨left, right, hleft, hright, hjoined⟩ := h.merge_bytes hmerge
  have howns : ∀ {id raw}, p.idToBytes.lookup id = some raw → s.Owns id raw := by
    intro id raw hid
    rw [h.owns_iff, hid]
    rfl
  rw [pairKey_eq hb] at hkey
  have ha' : keyOf c.pairs t >>> 32 = a := by
    rw [hkey, Nat.shiftRight_eq_div_pow]
    omega
  have hb' : keyOf c.pairs t % 2 ^ 32 = b := by omega
  constructor
  · rw [ha']
    exact h.owns_lt (howns hleft)
  · rw [hb']
    exact h.owns_lt (howns hright)
  · rw [hm]
    exact h.owns_lt (howns hjoined)
  · rw [ha', hb', hm, h.span_owned (howns hleft), h.span_owned (howns hright), h.span_owned (howns hjoined)]

theorem reachable_pairs (h : Built s p c) :
    Reachable (keyOf c.pairs) EMPTY_KEY (fun key => fmix64 key % 2 ^ c.slotsLog2) (2 ^ c.slotsLog2) := by
  have hkey := (keyOf_zip (h.filled.keys.trans h.filled.values.symm)).1
  rw [← h.pairs] at hkey
  rw [hkey]
  exact h.filled.reach

/-- Two slots do not have one rank: that would be one merge, and one key. -/
theorem slot_of_rank (h : Built s p c) {t u : Nat} (ht : t < 2 ^ c.slotsLog2) (hu : u < 2 ^ c.slotsLog2)
    (hne : keyOf c.pairs t ≠ EMPTY_KEY) (hne' : keyOf c.pairs u ≠ EMPTY_KEY)
    (heq : valueOf c.pairs t >>> 32 = valueOf c.pairs u >>> 32) : t = u := by
  obtain ⟨rank, a, b, m, ⟨entry, hentry, hjoins⟩, -, hkey, hrank, -⟩ := merge_of_slot h ht hne
  obtain ⟨rank', a', b', m', ⟨entry', hentry', hjoins'⟩, -, hkey', hrank', -⟩ := merge_of_slot h hu hne'
  obtain rfl : rank = rank' := hrank.symm.trans (heq.trans hrank')
  rw [hentry] at hentry'
  cases hentry'
  obtain ⟨rfl, rfl, rfl⟩ := hjoins.unique hjoins'
  have hhash : ∀ key, fmix64 key % 2 ^ c.slotsLog2 < 2 ^ c.slotsLog2 := fun key => Nat.mod_lt _ (Nat.two_pow_pos _)
  have hfound := probe_present (reachable_pairs h) ht hne (hhash _)
  have hfound' := probe_present (reachable_pairs h) hu hne' (hhash _)
  rw [hkey', ← hkey, hfound] at hfound'
  exact Option.some.inj hfound'

/-- **The table that was filled is as the inspector wants it.** -/
theorem paired_of_built (h : Built s p c) (hcount : c.vocabCount < 2 ^ 32) (hsome : s.merges ≠ []) : Paired c := by
  have hoccupied := h.occupied hcount
  have hload := h.load
  have hdistinct : (ranksBelow c (2 ^ c.slotsLog2)).Nodup := by
    unfold ranksBelow
    apply List.Nodup.map_on _ (List.nodup_range.filter _)
    intro t ht u hu heq
    obtain ⟨ht, hne⟩ := List.mem_filter.1 ht
    obtain ⟨hu, hne'⟩ := List.mem_filter.1 hu
    exact slot_of_rank h (List.mem_range.1 ht) (List.mem_range.1 hu) (of_decide_eq_true hne) (of_decide_eq_true hne') heq
  have hsubset : ranksBelow c (2 ^ c.slotsLog2) ⊆ List.range s.merges.length := by
    unfold ranksBelow
    intro rank hrank
    obtain ⟨t, ht, rfl⟩ := List.mem_map.1 hrank
    obtain ⟨ht, hne⟩ := List.mem_filter.1 ht
    obtain ⟨rank, a, b, m, hmerge, -, -, rfl, -⟩ := merge_of_slot h (List.mem_range.1 ht) (of_decide_eq_true hne)
    exact List.mem_range.2 (h.merge_lt hmerge).1
  have hperm : (ranksBelow c (2 ^ c.slotsLog2)).Perm (List.range s.merges.length) := by
    apply (List.subperm_of_subset hdistinct hsubset).perm_of_length_le
    rw [length_ranksBelow, hoccupied, List.length_range]
  constructor
  · intro t ht hne
    obtain ⟨j, hj, hhome, hbefore⟩ := reachable_pairs h t ht hne
    exact ⟨joined_of_slot h ht hne, j, hj, hj, hhome, hbefore⟩
  · exact hdistinct
  · rw [hoccupied]
    exact List.length_pos_iff.2 hsome
  · rwa [hoccupied]
  · intro rank
    rw [hoccupied, hperm.mem_iff, List.mem_range]

end Pairs

section Added

theorem decodeUtf8_encodeUtf8 {text : Str} {bytes : List UInt8} (h : encodeUtf8 text = .ok bytes)
    (hchars : ∀ ch ∈ text, ch < 0x110000) : Dump.decodeUtf8 bytes = some text := by
  unfold Dump.decodeUtf8
  rw [units_encodeUtf8 h hchars, if_pos]
  rw [List.all_eq_true]
  exact fun ch hch => decide_eq_true (hchars ch hch)

/-- The record of an added token is text. -/
theorem listed_of_built (h : Built s p c)
    (hchars : ∀ entry ∈ s.addedTokens, ∀ t, validateAdded entry = .ok t → ∀ ch ∈ t.content, ch < 0x110000) :
    ∀ a ∈ c.records, Listed c a := by
  have hids : (p.tokens.map AddedToken.tid).Nodup := List.pairwise_map.2 (h.sorted.imp Nat.ne_of_lt)
  obtain ⟨out, hout, hperm⟩ := h.tokens
  obtain ⟨source, -, -, hsource⟩ := sourceAdded_eq_ok (mapM_eq_ok.1 hout) ((hperm.map _).nodup_iff.1 hids)
  intro a ha
  rw [h.records] at ha
  obtain ⟨t, ht, rfl⟩ := List.mem_map.1 ha
  have hl := h.lists ht (hsource t (hperm.mem_iff.1 ht))
  obtain ⟨bytes, hlookup, hbytes⟩ := h.lookup_added ht
  obtain ⟨entry, hentry, hvalid⟩ := h.mem_tokens.1 ht
  obtain ⟨kvs, hkvs, hcontent, -⟩ := hsource t (hperm.mem_iff.1 ht)
  obtain ⟨kvs', hkvs', htoken, -⟩ := hl.token
  rw [show (⟨t.tid, _, _, _⟩ : BpvAdded).id = t.tid from rfl, hkvs] at hkvs'
  cases hkvs'
  unfold contentBytes at htoken
  rw [hcontent] at htoken
  have htext := toOption_eq_some.1 (expect_eq_ok.1 htoken)
  constructor
  · exact hl.id
  · exact hl.inside
  · rw [hlookup]
    exact List.length_pos_iff.2 (encodeUtf8_ne_nil hbytes (validateAdded_ne_nil hvalid))
  · exact hl.flags
  · exact hl.offset
  · exact hl.len
  · exact ⟨t.content, decodeUtf8_encodeUtf8 htext (hchars entry hentry t hvalid)⟩

end Added

section Whole

variable {ceilLog2 : Nat → Nat} {raw : List UInt8} {doc : Convert.Json} {name : Str} {image : List UInt8}

/-- **What the converter writes passes the inspector** exactly if it has merges and its table has at most 2^40 slots. -/
theorem convert_inspected {samples : Int} (h : convert ceilLog2 raw doc name = .ok image) (hsamples : 1 ≤ samples)
    (hname : ∀ ch ∈ name, ch < 0x110000)
    (hchars : ∀ s, doc.source = some s → ∀ entry ∈ s.addedTokens, ∀ t, validateAdded entry = .ok t →
      ∀ ch ∈ t.content, ch < 0x110000) :
    ∃ s, doc.source = some s ∧
      (main samples (some image) = 0 ↔ s.merges ≠ [] ∧ tableLog2 ceilLog2 s.merges.length ≤ 40) := by
  obtain ⟨s, p, c, hs, hb, hsized, hslots, hinfo, hwritten⟩ := convert_written h
  have himage : c.IsImage image := assemble_read hwritten rfl
  obtain ⟨-, -, -, -, hcount⟩ := assemble_stamp hwritten rfl
  have hflags : c.flags < 2 := by
    rw [hb.flags]
    split <;> decide
  obtain ⟨top, -, htop⟩ := hb.top
  have hframed := Assembled.framed himage hsized hwritten hflags (by omega)
  have hread := Contents.read_eq himage hsized
  refine ⟨s, hs, ?_⟩
  rw [main_eq_zero hsamples, ← hslots, ← hframed]
  constructor
  · intro hi
    refine ⟨fun hnone => ?_, hi.framed⟩
    have hoccupied := hi.paired.some
    rw [hread, hb.occupied hcount, hnone] at hoccupied
    exact absurd hoccupied (Nat.lt_irrefl 0)
  · rintro ⟨hsome, hf⟩
    have hids : (c.records.map BpvAdded.id).Nodup := by
      rw [hb.records, List.map_map]
      exact List.pairwise_map.2 (hb.sorted.imp Nat.ne_of_lt)
    obtain ⟨hversion, hregex⟩ := Bool.and_eq_true_iff.1 version_chars
    have hstrings := metaStrings_encodeMeta hinfo (by
      rintro text htext ch hch
      simp only [List.mem_cons, List.not_mem_nil, or_false] at htext
      rcases htext with rfl | rfl | rfl
      · exact hname ch hch
      · exact of_decide_eq_true (List.all_eq_true.1 hversion ch hch)
      · exact of_decide_eq_true (List.all_eq_true.1 hregex ch hch)) (Nat.le_refl _) 0
    constructor
    · exact hf
    · rw [himage.profileId]
      decide
    · rw [hread]
      exact hb.tabled
    · rw [hread]
      exact paired_of_built hb hcount hsome
    · rw [hread]
      exact listed_of_built hb (hchars s hs)
    · rwa [hread]
    · rw [(himage.reads hsized).info]
      exact ⟨_, bind_eq_ok.2 ⟨_, hstrings, check_bind.2 ⟨rfl, rfl⟩⟩⟩

theorem toy_inspected : main 1 (some toy.image) = 0 := by decide +kernel

theorem convert_inspected_toy : ∃ s, (toyDoc [addedEntryOf (str "<x>") 258]).source = some s ∧ s.merges ≠ [] := by
  have hchars : ∀ s, (toyDoc [addedEntryOf (str "<x>") 258]).source = some s → ∀ entry ∈ s.addedTokens, ∀ t,
      validateAdded entry = .ok t → ∀ ch ∈ t.content, ch < 0x110000 := by
    intro s hs entry hentry t ht
    rw [toy_addedTokens hs] at hentry
    rw [List.mem_singleton.1 hentry, validateAdded_entry (by decide +kernel)] at ht
    cases ht
    decide +kernel
  obtain ⟨s, hs, hiff⟩ := convert_inspected toy_converts (Int.le_refl 1) (List.forall_mem_nil _) hchars
  exact ⟨s, hs, (hiff.1 toy_inspected).1⟩

end Whole

end Bytepair.Dump
