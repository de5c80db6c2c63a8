import Bytepair.Cli.Outcome
import Bytepair.Dump.Sound

/-!
# `encode | decode`

What `bytepair encode` prints, `bytepair decode` reads back, over a file or a pipe that hands it over in whatever
pieces: `encode_decode`. The vocabulary is one that the converter wrote, or that the inspector takes.
-/

namespace Bytepair.Cli
open Support Support.Numeral

section Numerals

/-- The lines of some ids are read as these ids. -/
theorem runs_lines (ids : List Nat) (hsmall : ∀ id ∈ ids, id < 2 ^ 64) : ∃ ps, Runs (lines ids) ps ∧ ps.map numeral = ids := by
  obtain ⟨ps, hps, hvalues, hgaps⟩ := @runs_separated [0x0A] (List.cons_ne_nil _ _)
    (List.forall_mem_singleton.2 (by decide)) [] (List.forall_mem_nil _) ids
  refine ⟨ps, hps, ?_⟩
  have hnumeral : ∀ p ∈ ps, numeral p = value 0 p.2 := by
    intro p hp
    have hdigits : p.2 ∈ ids.map decimal := by
      rw [← hvalues]
      exact List.mem_map_of_mem hp
    obtain ⟨id, hid, hdecimal⟩ := List.mem_map.1 hdigits
    have hlt : ¬2 ^ 64 ≤ value 0 p.2 := by
      rw [← hdecimal, value_decimal]
      exact Nat.not_le.2 (hsmall id hid)
    have hplus : p.1.getLast? ≠ some 0x2D := by
      rcases hgaps p hp with hgap | hgap
      · rw [hgap]
        decide
      · rw [hgap]
        decide
    unfold numeral
    rw [if_neg hlt, if_neg hplus]
  rw [List.map_congr_left hnumeral]
  calc ps.map (fun p => value 0 p.2) = (ps.map Prod.snd).map (value 0) := by rw [List.map_map]; rfl
    _ = (ids.map decimal).map (value 0) := by rw [hvalues]
    _ = ids := by
      rw [List.map_map]
      exact List.map_id'' value_decimal ids

end Numerals

section Handles

variable {host host' : Host} {image : List UInt8} {v v' : BpVocab}

/-- Ids that have bytes are decoded, unless special tokens are left out. -/
theorem decodeIds_keep {flags : Nat} (hflags : flags &&& BP_SKIP_SPECIAL = 0) {ids : List Nat} (h : ∀ id ∈ ids, v.Used id) :
    decodeIds v flags ids = .ok (ids.flatMap v.span) := by
  have hone : ∀ id, decodeOne v flags id = decodeOne v 0 id := by
    intro id
    unfold decodeOne
    rw [hflags, Nat.zero_and]
  rw [← decodeIds_used h]
  clear h
  induction ids with
  | nil => rfl
  | cons id ids ih => rw [decodeIds, decodeIds, hone, ih]

/-- Handles of one image have the same tokens, whatever the host. -/
theorem opens_span (ho : Opens host image v) (ho' : Opens host' image v') : v'.span = v.span ∧ v'.hdr = v.hdr := by
  have hi := ho.image
  have hi' := ho'.image
  have hhdr : v'.hdr = v.hdr := hi'.hdr.trans hi.hdr.symm
  refine ⟨?_, hhdr⟩
  funext id
  unfold BpVocab.span
  rw [hi'.tokOff, hi'.blob, hhdr, ← hi.tokOff, ← hi.blob]

/-- An image that the converter wrote, or that the inspector takes. -/
def Trusted (image : List UInt8) : Prop :=
  (∃ ceilLog2 raw doc name, Convert.convert ceilLog2 raw doc name = .ok image) ∨
    ∃ samples : Int, 1 ≤ samples ∧ Dump.main samples (some image) = 0

/-- **A text comes to ids that stand for it** under a vocabulary of such an image. -/
theorem Trusted.ids (h : Trusted image) (ho : Opens host image v) {x : List UInt8} {flags : Nat}
    (hlen : ∀ seg, v.IsSegment x flags seg → (v.normal shipped seg).length < 2 ^ 31) :
    ∃ ids, encodeIds shipped v x flags = some ids ∧ (∀ id ∈ ids, v.Used id) ∧ Dump.Restored v x flags (ids.flatMap v.span) := by
  rcases h with ⟨ceilLog2, raw, doc, name, hconvert⟩ | ⟨samples, hsamples, hzero⟩
  · obtain ⟨s, p, c, -, hb, hc⟩ := Convert.convert_opened hconvert ho
    exact Dump.ids_restore ho (hb.byteCoherent hc ho.valid) (hb.base_closed hc ho.valid) (fun id => hb.base_used hc) hlen
  · have hi := (Dump.main_eq_zero hsamples).1 hzero
    exact Dump.ids_restore ho (hi.byteCoherent ho) (hi.used_closed ho) (fun _ hid => hid) hlen

end Handles

section Pipeline

/-- An invocation of a command on a vocabulary and an input, where all that is asked is granted. -/
structure Invoked (w : World) (args : List (List UInt8)) (cmd : List UInt8) (image : List UInt8) (v : BpVocab) (flags : Nat)
    (input : List UInt8) : Prop where
  grants : w.Grants
  line : ∃ path rest, parseFlags args = (flags, cmd :: path :: rest) ∧ w.image path = some image ∧ w.input rest.head? = .ok input
  opens : Opens w.host image v

variable {w : World} {args : List (List UInt8)} {image : List UInt8} {v : BpVocab} {flags : Nat} {x : List UInt8}

theorem Invoked.run {cmd : List UInt8} (h : Invoked w args cmd image v flags x) (hcmd : cmd ∈ commands) :
    ∃ path rest, w.input rest.head? = .ok x ∧ main shipped w args = runCommand shipped w v cmd path rest flags := by
  obtain ⟨path, rest, hargs, himage, hinput⟩ := h.line
  refine ⟨path, rest, hinput, ?_⟩
  have hopen : openVocab w path = .ok (.ok v) := by
    unfold openVocab
    rw [himage]
    dsimp only
    rw [show bpVocabOpen w.host image = .ok (.ok v) from h.opens]
    rfl
  unfold main
  rw [hargs]
  dsimp only
  rw [if_pos hcmd, hopen]
  rfl

theorem Invoked.encode {ids : List Nat} (h : Invoked w args (ascii "encode") image v flags x)
    (hids : encodeIds shipped v x flags = some ids) : main shipped w args = .ok ⟨0, lines ids, []⟩ := by
  obtain ⟨path, rest, hinput, hmain⟩ := h.run (by decide)
  have hleaves : Leaves w (· = ⟨0, lines ids, []⟩) (cmdEncode shipped w v false rest.head? flags) := by
    apply cmdEncode_leaves h.opens
    · intro e he
      rw [hinput] at he
      cases he
    · intro x' ids' hinput' hids'
      rw [hinput] at hinput'
      cases hinput'
      rw [hids] at hids'
      cases hids'
      rfl
  obtain ⟨e, hrun, rfl⟩ := hleaves.granted h.grants
  rw [hmain]
  exact hrun

theorem Invoked.decode {ids : List Nat} (h : Invoked w args (ascii "decode") image v flags (lines ids))
    (hused : ∀ id ∈ ids, v.Used id) (hflags : flags &&& BP_SKIP_SPECIAL = 0) :
    main shipped w args = .ok ⟨0, ids.flatMap v.span, []⟩ := by
  obtain ⟨path, rest, hinput, hmain⟩ := h.run (by decide)
  have hsmall : ∀ id ∈ ids, id < 2 ^ 32 := by
    intro id hid
    have hlt := (hused id hid).1
    have hcount := h.opens.valid.countLe
    unfold BpVocab.HasId at hlt
    omega
  have hexit : decodeExit v flags ids = ⟨0, ids.flatMap v.span, []⟩ := by
    unfold decodeExit
    rw [if_pos hsmall, decodeIds_keep hflags hused]
  have hleaves : Leaves w (· = ⟨0, ids.flatMap v.span, []⟩) (cmdDecode w v rest.head? flags) := by
    apply cmdDecode_leaves h.opens
    · intro e he
      rw [hinput] at he
      cases he
    · intro x' hinput'
      rw [hinput] at hinput'
      cases hinput'
      obtain ⟨ps, hps, hnumerals⟩ := runs_lines ids fun id hid => Nat.lt_trans (hsmall id hid) (by decide)
      exact ⟨ps, hps, by rw [hnumerals, hexit]⟩
  obtain ⟨e, hrun, rfl⟩ := hleaves.granted h.grants
  rw [hmain]
  exact hrun

/-- **`bytepair encode | bytepair decode`** restores the text, with the ids between them on a file or a pipe: a text whose
segments, normalized, stay below 2^31 bytes is encoded with status 0, and decoded with status 0 from the lines that were
printed, in whatever pieces they are handed over. -/
theorem encode_decode (htrusted : Trusted image) (hencode : Invoked w args (ascii "encode") image v flags x)
    (hlen : ∀ seg, v.IsSegment x flags seg → (v.normal shipped seg).length < 2 ^ 31) :
    ∃ ids y, main shipped w args = .ok ⟨0, lines ids, []⟩ ∧ Dump.Restored v x flags y ∧
      ∀ w' args' v' flags', Invoked w' args' (ascii "decode") image v' flags' (lines ids) → flags' &&& BP_SKIP_SPECIAL = 0 →
        main shipped w' args' = .ok ⟨0, y, []⟩ := by
  obtain ⟨ids, hids, hused, hrestored⟩ := htrusted.ids hencode.opens hlen
  refine ⟨ids, ids.flatMap v.span, hencode.encode hids, hrestored, ?_⟩
  intro w' args' v' flags' hdecode hflags
  obtain ⟨hspan, hhdr⟩ := opens_span hencode.opens hdecode.opens
  have hused' : ∀ id ∈ ids, v'.Used id := by
    intro id hid
    obtain ⟨hknown, hbytes⟩ := hused id hid
    refine ⟨?_, by rwa [hspan]⟩
    unfold BpVocab.HasId
    rw [hhdr]
    exact hknown
  rw [hdecode.decode hused' hflags, hspan]

theorem granting_invoked {cmd : List UInt8} (hcmd : parseFlags [cmd, ascii "toy.bpv"] = (0, [cmd, ascii "toy.bpv"]))
    (input : List UInt8) (chunks : Nat → Nat) :
    Invoked (granting Convert.toy.image input chunks) [cmd, ascii "toy.bpv"] cmd Convert.toy.image Convert.toy.vocab 0 input where
  grants := ⟨fun _ => rfl, fun _ _ => rfl, fun _ => rfl⟩
  line := ⟨_, _, hcmd, rfl, rfl⟩
  opens := Convert.toy_opens

theorem encode_decode_toy : ∃ ids y,
    main shipped (granting Convert.toy.image [0x61, 0xC3, 0x3C, 0x78, 0x3E] fun _ => 0) [ascii "encode", ascii "toy.bpv"] =
      .ok ⟨0, lines ids, []⟩ ∧
    ∀ chunks, main shipped (granting Convert.toy.image (lines ids) chunks) [ascii "decode", ascii "toy.bpv"] = .ok ⟨0, y, []⟩ := by
  have hlen : ([0x61, 0xC3, 0x3C, 0x78, 0x3E] : List UInt8).length < 2 ^ 29 := by decide
  obtain ⟨ids, y, hencode, -, hdecode⟩ := encode_decode (.inr ⟨1, Int.le_refl 1, Dump.toy_inspected⟩)
    (granting_invoked (by decide) [0x61, 0xC3, 0x3C, 0x78, 0x3E] fun _ => 0)
    (length_segment_lt shipped_coherent (Opens.valid Convert.toy_opens) (Opens.matcher Convert.toy_opens) 0 hlen)
  exact ⟨ids, y, hencode, fun chunks => hdecode _ _ _ _ (granting_invoked (by decide) _ chunks) (by decide)⟩

end Pipeline

end Bytepair.Cli
