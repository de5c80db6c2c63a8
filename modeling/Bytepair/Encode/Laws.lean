import Bytepair.Encode.Buffers

/-!
# The laws of decoding

What a call to `bp_decode` returns, as a function of the ids alone: `bpDecode_laws`. The bytes of a list of ids are the
bytes of its ids in order, and a skipped id is as good as absent.
-/

namespace Bytepair
open Support

section Ids

variable {v : BpVocab} {flags flags' : Nat}

/-- The flags ask to leave out special tokens. -/
abbrev Skips (flags : Nat) : Prop := flags &&& BP_SKIP_SPECIAL ≠ 0

/-- The id has no bytes to decode to, and is not left out. -/
def BpVocab.NoBytes (v : BpVocab) (flags id : Nat) : Prop :=
  v.hdr.vocabCount ≤ id ∨ ¬(Skips flags ∧ v.special id = true) ∧ v.span id = []

theorem decodeOne_cases (v : BpVocab) (flags id : Nat) :
    (v.NoBytes flags id ∧ decodeOne v flags id = .error .range) ∨
      (¬v.NoBytes flags id ∧ ∃ bytes, decodeOne v flags id = .ok bytes) := by
  unfold decodeOne
  split
  · next hcount => exact .inl ⟨.inl hcount, rfl⟩
  · next hcount =>
    split
    · next hskip => exact .inr ⟨not_or.2 ⟨hcount, fun h => h.1 hskip⟩, _, rfl⟩
    · next hskip =>
      split
      · next hnil => exact .inl ⟨.inr ⟨hskip, hnil⟩, rfl⟩
      · next hne => exact .inr ⟨not_or.2 ⟨hcount, fun h => hne h.2⟩, _, rfl⟩

theorem decodeIds_cases (v : BpVocab) (flags : Nat) (ids : List Nat) :
    ((∃ id ∈ ids, v.NoBytes flags id) ∧ decodeIds v flags ids = .error .range) ∨
      ((∀ id ∈ ids, ¬v.NoBytes flags id) ∧ ∃ bytes, decodeIds v flags ids = .ok bytes) := by
  induction ids with
  | nil => exact .inr ⟨nofun, [], rfl⟩
  | cons id ids ih =>
    rw [decodeIds]
    rcases decodeOne_cases v flags id with ⟨hno, herr⟩ | ⟨hid, bytes, hone⟩
    · rw [herr]
      exact .inl ⟨⟨id, List.mem_cons_self, hno⟩, rfl⟩
    · rw [hone]
      rcases ih with ⟨⟨bad, hbad, hno⟩, herr⟩ | ⟨hids, more, hmore⟩
      · rw [herr]
        exact .inl ⟨⟨bad, List.mem_cons_of_mem _ hbad, hno⟩, rfl⟩
      · rw [hmore]
        exact .inr ⟨List.forall_mem_cons.2 ⟨hid, hids⟩, bytes ++ more, rfl⟩

theorem decodeIds_append {xs ys : List Nat} {bs cs : List UInt8} (hxs : decodeIds v flags xs = .ok bs)
    (hys : decodeIds v flags ys = .ok cs) : decodeIds v flags (xs ++ ys) = .ok (bs ++ cs) := by
  induction xs generalizing bs with
  | nil =>
    obtain rfl : [] = bs := Except.ok.inj hxs
    exact hys
  | cons x xs ih =>
    rw [decodeIds] at hxs
    rw [List.cons_append, decodeIds]
    cases hx : decodeOne v flags x with
    | error e =>
      rw [hx] at hxs
      cases hxs
    | ok b =>
      rw [hx] at hxs
      cases hrest : decodeIds v flags xs with
      | error e =>
        rw [hrest] at hxs
        cases hxs
      | ok rest =>
        rw [hrest] at hxs
        obtain rfl : b ++ rest = bs := Except.ok.inj hxs
        rw [ih hrest, List.append_assoc]
        rfl

theorem BpVocab.Valid.special_lt (hv : v.Valid) {id : Nat} (h : v.special id = true) : id < v.hdr.vocabCount := by
  obtain ⟨a, ha, hflag⟩ := List.any_eq_true.1 h
  simp only [Bool.and_eq_true, decide_eq_true_eq] at hflag
  rw [← hflag.1]
  exact (hv.record a ha).id

theorem decodeOne_skipped (hv : v.Valid) {id : Nat} (hs : Skips flags) (h : v.special id = true) :
    decodeOne v flags id = .ok [] := by
  rw [decodeOne, if_neg (Nat.not_le.2 (hv.special_lt h)), if_pos ⟨hs, h⟩]

/-- An id that is not special decodes alike with and without the flag. -/
theorem decodeOne_kept {id : Nat} (hs : ¬Skips flags') (h : v.special id = false) :
    decodeOne v flags id = decodeOne v flags' id := by
  rw [decodeOne, decodeOne, if_neg (c := flags &&& BP_SKIP_SPECIAL ≠ 0 ∧ v.special id = true) (by simp [h]),
    if_neg (c := flags' &&& BP_SKIP_SPECIAL ≠ 0 ∧ v.special id = true) (fun hskip => hs hskip.1)]

/-- Leaving out special tokens is decoding the others, whatever the buffer holds already. -/
theorem decodeFrom_filter (hv : v.Valid) (hs : Skips flags) (hs' : ¬Skips flags') (ids : List Nat)
    (buf bytes : List UInt8) :
    decodeFrom v flags (filled buf bytes) bytes.length ids =
      decodeFrom v flags' (filled buf bytes) bytes.length (ids.filter fun id => !v.special id) := by
  induction ids generalizing bytes with
  | nil => rfl
  | cons id ids ih =>
    rw [decodeFrom_cons hv, List.filter_cons]
    cases hspecial : v.special id with
    | true =>
      rw [decodeOne_skipped hv hs hspecial]
      simpa using ih bytes
    | false =>
      rw [Bool.not_false, if_pos rfl, decodeFrom_cons hv, decodeOne_kept hs' hspecial]
      cases decodeOne v flags' id with
      | error e => rfl
      | ok more => exact ih (bytes ++ more)

end Ids

section Calls

variable {host : Host} {map : List UInt8} {v : BpVocab} {c : BpCtx}

/-- On the context the ids decode to the bytes: every call returns their number, and fills its buffer with them as
far as it goes. -/
def Decodes (c : BpCtx) (flags : Nat) (ids : List Nat) (bytes : List UInt8) : Prop :=
  ∀ out : List UInt8, ∃ out', bpDecode c ids out flags = .ok (.ok bytes.length, out') ∧ Clipped out bytes out'

/-- A call has one result. -/
theorem Decodes.unique {flags : Nat} {ids : List Nat} {bs cs : List UInt8} (hb : Decodes c flags ids bs)
    (hc : Decodes c flags ids cs) : bs = cs := by
  obtain ⟨out, hrun, hclip⟩ := hb (List.replicate bs.length 0)
  obtain ⟨out', hrun', hclip'⟩ := hc (List.replicate bs.length 0)
  have heq := Except.ok.inj (hrun.symm.trans hrun')
  have hlen : bs.length = cs.length := Except.ok.inj (congrArg Prod.fst heq)
  obtain rfl : out = out' := congrArg Prod.snd heq
  have hwritten := hclip.written
  have hwritten' := hclip'.written
  rw [List.length_replicate, ← hlen, Nat.min_self] at hwritten'
  rw [List.length_replicate, Nat.min_self, hwritten', List.take_length, hlen, List.take_length] at hwritten
  exact hwritten.symm

theorem Opens.decodes_iff (h : Opens host map v) (hc : c.Reached shipped v) {flags : Nat} {ids : List Nat}
    {bytes : List UInt8} : Decodes c flags ids bytes ↔ decodeIds v flags ids = .ok bytes := by
  have hrun := bpDecode_eq h.valid (h.coherent hc).handle flags ids
  have hok : ∀ bytes, decodeIds v flags ids = .ok bytes → Decodes c flags ids bytes := by
    intro bytes hbytes out
    have hout := hrun out
    rw [hbytes] at hout
    exact ⟨_, hout, clipped_filled out bytes⟩
  constructor
  · intro hdec
    cases hbytes : decodeIds v flags ids with
    | ok more => rw [hdec.unique (hok more hbytes)]
    | error e =>
      obtain ⟨out, hout, -⟩ := hdec []
      have herr := hrun []
      rw [hbytes] at herr
      obtain ⟨out', hout'⟩ := herr
      rw [hout'] at hout
      cases hout
  · exact hok bytes

/-- **The laws of decoding.** The range error is for an id without bytes that is not left out; any other list of ids
decodes, the parts of a list decode to the parts of its bytes, and with the flag a call is that on the ids that are
not special, without it. -/
theorem bpDecode_laws (h : Opens host map v) (hc : c.Reached shipped v) :
    (∀ (ids : List Nat) (flags : Nat) (out : List UInt8),
      (∃ out', bpDecode c ids out flags = .ok (.error .range, out')) ↔ ∃ id ∈ ids, v.NoBytes flags id) ∧
    (∀ (ids : List Nat) (flags : Nat), (∀ id ∈ ids, ¬v.NoBytes flags id) → ∃ bytes, Decodes c flags ids bytes) ∧
    (∀ (xs ys : List Nat) (flags : Nat) (bs cs : List UInt8), Decodes c flags xs bs → Decodes c flags ys cs →
      Decodes c flags (xs ++ ys) (bs ++ cs)) ∧
    ∀ (ids : List Nat) (flags flags' : Nat) (out : List UInt8), Skips flags → ¬Skips flags' →
      bpDecode c ids out flags = bpDecode c (ids.filter fun id => !v.special id) out flags' := by
  have hhandle := (h.coherent hc).handle
  refine ⟨fun ids flags out => ?_, fun ids flags hall => ?_, fun xs ys flags bs cs hxs hys => ?_,
    fun ids flags flags' out hs hs' => ?_⟩
  · have hrun := bpDecode_eq h.valid hhandle flags ids out
    rcases decodeIds_cases v flags ids with ⟨hbad, herr⟩ | ⟨hgood, bytes, hok⟩
    · rw [herr] at hrun
      exact iff_of_true hrun hbad
    · rw [hok] at hrun
      apply iff_of_false
      · rintro ⟨out', hout'⟩
        rw [hrun] at hout'
        cases hout'
      · rintro ⟨id, hid, hno⟩
        exact hgood id hid hno
  · rcases decodeIds_cases v flags ids with ⟨⟨id, hid, hno⟩, -⟩ | ⟨-, bytes, hok⟩
    · exact absurd hno (hall id hid)
    · exact ⟨bytes, (h.decodes_iff hc).2 hok⟩
  · rw [h.decodes_iff hc] at hxs hys ⊢
    exact decodeIds_append hxs hys
  · have hfilter := decodeFrom_filter h.valid hs hs' ids out []
    rw [filled_nil] at hfilter
    rw [bpDecode, bpDecode, hhandle]
    exact hfilter

/-- Token 258 is special. -/
theorem bpDecode_laws_toy : ∃ c : BpCtx, c.Reached shipped Convert.toy.vocab ∧ ∀ out : List UInt8,
    bpDecode c [258, 257] out BP_SKIP_SPECIAL = bpDecode c [257] out 0 := by
  obtain ⟨c, hc, -⟩ := toy_context
  obtain ⟨-, -, -, hskip⟩ := bpDecode_laws Convert.toy_opens hc
  have hfilter : [258, 257].filter (fun id => !Convert.toy.vocab.special id) = [257] := by decide +kernel
  refine ⟨c, hc, fun out => ?_⟩
  rw [hskip [258, 257] BP_SKIP_SPECIAL 0 out (by decide) (by decide), hfilter]

end Calls

end Bytepair
