import Bytepair.Convert.Layout
import Bytepair.Support.Dict

/-!
# What a conversion has checked

A conversion that ends with an image went through every check. Here is what that says of each
step, and what is known of the vocabulary behind `decode_vocab`: `Decoded`.
-/

namespace Bytepair.Convert
open Support

section Outcome

variable {ε α β : Type}

theorem require_eq_ok {cond : Bool} {template : String} {args : List Arg} {u : Unit} :
    require cond template args = .ok u ↔ cond = true := by
  unfold require
  cases cond with
  | false => simp
  | true => simp

theorem need_eq_ok {x : Option α} {template : String} {args : List Arg} {a : α} :
    need x template args = .ok a ↔ x = some a := by
  cases x with
  | none => simp [need]
  | some a => simp [need]

theorem mapM_eq_ok {f : α → Except ε β} {xs : List α} {ys : List β} :
    xs.mapM f = .ok ys ↔ List.Forall₂ (fun x y => f x = .ok y) xs ys := by
  induction xs generalizing ys with
  | nil =>
    rw [List.mapM_nil, List.forall₂_nil_left_iff]
    exact ⟨fun h => (Except.ok.inj h).symm, fun h => congrArg _ h.symm⟩
  | cons x xs ih =>
    rw [List.mapM_cons, bind_eq_ok]
    constructor
    · rintro ⟨y, hy, h⟩
      obtain ⟨ys, hys, h⟩ := bind_eq_ok.1 h
      cases h
      exact .cons hy (ih.1 hys)
    · intro h
      cases h with
      | cons hy hys => exact ⟨_, hy, bind_eq_ok.2 ⟨_, ih.2 hys, rfl⟩⟩

theorem forM_eq_ok {f : α → Except ε Unit} {xs : List α} {u : Unit} :
    xs.forM f = .ok u ↔ ∀ x ∈ xs, f x = .ok () := by
  induction xs with
  | nil => exact ⟨fun _ => List.forall_mem_nil _, fun _ => rfl⟩
  | cons x xs ih =>
    show (f x >>= fun _ => xs.forM f) = _ ↔ _
    rw [bind_eq_ok, List.forall_mem_cons, ih]
    constructor
    · rintro ⟨_, h⟩
      exact h
    · intro h
      exact ⟨(), h⟩

/-- A `for` loop that ends keeps an invariant. -/
theorem foldlM_keeps {f : β → α → Except ε β} (Inv : List α → β → Prop) {xs : List α} {b b' : β}
    (h : xs.foldlM f b = .ok b') (done : List α) (hb : Inv done b)
    (step : ∀ done x b b', Inv done b → f b x = .ok b' → Inv (done ++ [x]) b') : Inv (done ++ xs) b' := by
  induction xs generalizing b done with
  | nil =>
    cases h
    rwa [List.append_nil]
  | cons x xs ih =>
    rw [List.foldlM_cons] at h
    obtain ⟨b₁, h₁, h⟩ := bind_eq_ok.1 h
    have hmore := ih h (done ++ [x]) (step done x b b₁ hb h₁)
    rwa [List.append_assoc] at hmore

end Outcome

section Alphabet

theorem alphabet_checked : ((List.range 256).all fun b => u2b (b2u (UInt8.ofNat b)) == some (UInt8.ofNat b)) = true ∧
    (byteToUnicode.all fun e => b2u (UInt8.ofNat e.1) == e.2) = true := by decide +kernel

example : u2b 0x120 = some 0x20 := by decide +kernel

/-- The alphabet is a bijection. -/
theorem u2b_b2u (b : UInt8) : u2b (b2u b) = some b := by
  have hb := List.all_eq_true.1 alphabet_checked.1 b.toNat (List.mem_range.2 b.toNat_lt)
  rw [UInt8.ofNat_toNat] at hb
  exact beq_iff_eq.1 hb

theorem b2u_of_u2b {ch : Nat} {b : UInt8} (h : u2b ch = some b) : b2u b = ch := by
  unfold u2b at h
  rw [Option.map_map, Option.map_eq_some_iff] at h
  obtain ⟨e, hfind, rfl⟩ := h
  have hch : decide (e.2 = ch) = true := List.find?_some (p := fun e : Nat × Nat => decide (e.2 = ch)) hfind
  have hall := List.all_eq_true.1 alphabet_checked.2 e (List.mem_of_find?_eq_some hfind)
  rw [← of_decide_eq_true hch]
  exact beq_iff_eq.1 hall

theorem b2u_injective : Function.Injective b2u := by
  intro b c h
  have hb := u2b_b2u b
  rw [h, u2b_b2u] at hb
  exact (Option.some.inj hb).symm

/-- A text of the alphabet is the text of its bytes. -/
theorem mapM_u2b {text : Str} {template : Nat → String} {args : Nat → List Arg} {raw : List UInt8}
    (h : text.mapM (fun ch => need (u2b ch) (template ch) (args ch)) = .ok raw) : text = raw.map b2u := by
  have hall := mapM_eq_ok.1 h
  clear h
  induction hall with
  | nil => rfl
  | cons hch _ ih => rw [List.map_cons, b2u_of_u2b (need_eq_ok.1 hch), ← ih]

end Alphabet

section Decoded

/-- `decode_vocab` has every entry of the vocabulary, with the bytes its text stands for, and no more. -/
structure Decoded (vocab : List (Str × Json)) (idToBytes : List (Nat × List UInt8)) : Prop where
  entry : ∀ text id, (text, id) ∈ vocab → ∃ tid raw, tokenId id = some tid ∧ text = raw.map b2u ∧
    idToBytes.lookup tid = some raw
  owner : ∀ tid raw, idToBytes.lookup tid = some raw → ∃ id, (raw.map b2u, id) ∈ vocab ∧ tokenId id = some tid

theorem decodeEntry_spec {vocab : List (Str × Json)} {idToBytes idToBytes' : List (Nat × List UInt8)} {entry : Str × Json}
    (h : Decoded vocab idToBytes) (hrun : decodeEntry idToBytes entry = .ok idToBytes') :
    Decoded (vocab ++ [entry]) idToBytes' := by
  obtain ⟨text, id⟩ := entry
  obtain ⟨tid, htid, hrun⟩ := bind_eq_ok.1 hrun
  obtain ⟨raw, hraw, hrun⟩ := bind_eq_ok.1 hrun
  obtain ⟨_, hfree, hrun⟩ := bind_eq_ok.1 hrun
  cases hrun
  have htid := need_eq_ok.1 htid
  have hfree := Option.isNone_iff_eq_none.1 (require_eq_ok.1 hfree)
  have htext := mapM_u2b hraw
  constructor
  · intro text' id' hmem
    rcases List.mem_append.1 hmem with hold | hnew
    · obtain ⟨tid', raw', htid', htext', hlookup⟩ := h.entry text' id' hold
      refine ⟨tid', raw', htid', htext', ?_⟩
      have hne : tid' ≠ tid := by
        rintro rfl
        rw [hfree] at hlookup
        cases hlookup
      rw [List.lookup_cons, beq_false_of_ne hne]
      exact hlookup
    · cases List.mem_singleton.1 hnew
      exact ⟨tid, raw, htid, htext, by rw [List.lookup_cons, beq_self_eq_true]⟩
  · intro tid' raw' hlookup
    rw [List.lookup_cons] at hlookup
    split at hlookup
    · next heq =>
      cases hlookup
      rw [beq_iff_eq.1 heq, ← htext]
      exact ⟨id, List.mem_append_right _ (List.mem_singleton_self _), htid⟩
    · obtain ⟨id', hmem, hid'⟩ := h.owner tid' raw' hlookup
      exact ⟨id', List.mem_append_left _ hmem, hid'⟩

theorem decodeVocab_spec {vocab : List (Str × Json)} {idToBytes : List (Nat × List UInt8)}
    (h : decodeVocab vocab = .ok idToBytes) : Decoded vocab idToBytes := by
  have hempty : Decoded [] [] := by
    constructor
    · rintro text id ⟨⟩
    · rintro tid raw ⟨⟩
  exact foldlM_keeps Decoded h [] hempty fun done x b b' hb hstep => decodeEntry_spec hb hstep

theorem vocabId_eq_some {vocab : List (Str × Json)} {text : Str} {tid : Nat} (h : vocabId vocab text = some tid) :
    ∃ id, (text, id) ∈ vocab ∧ tokenId id = some tid := by
  obtain ⟨id, hlookup, htid⟩ := Option.bind_eq_some_iff.1 h
  exact ⟨id, mem_of_lookup hlookup, htid⟩

variable {vocab : List (Str × Json)} {idToBytes : List (Nat × List UInt8)}

/-- The bytes of a text of the vocabulary. -/
theorem Decoded.bytes (h : Decoded vocab idToBytes) {text : Str} {tid : Nat} (hid : vocabId vocab text = some tid) :
    ∃ raw, text = raw.map b2u ∧ idToBytes.lookup tid = some raw := by
  obtain ⟨id, hmem, htid⟩ := vocabId_eq_some hid
  obtain ⟨tid', raw, htid', htext, hlookup⟩ := h.entry text id hmem
  rw [htid] at htid'
  cases htid'
  exact ⟨raw, htext, hlookup⟩

/-- Two texts do not share an id. -/
theorem Decoded.injective (h : Decoded vocab idToBytes) {s t : Str} {tid : Nat} (hs : vocabId vocab s = some tid)
    (ht : vocabId vocab t = some tid) : s = t := by
  obtain ⟨raw, rfl, hraw⟩ := h.bytes hs
  obtain ⟨raw', rfl, hraw'⟩ := h.bytes ht
  rw [hraw] at hraw'
  cases hraw'
  rfl

/-- The bytes of the text of a byte string. -/
theorem Decoded.bytes_map (h : Decoded vocab idToBytes) {raw : List UInt8} {tid : Nat}
    (hid : vocabId vocab (raw.map b2u) = some tid) : idToBytes.lookup tid = some raw := by
  obtain ⟨raw', htext, hlookup⟩ := h.bytes hid
  rwa [b2u_injective.list_map htext]

end Decoded

section Bytes

/-- The entry of the token of a byte. -/
def byteEntry (b : Nat) : Str × Json := ([b2u (UInt8.ofNat b)], .int b)

/-- What `decode_vocab` has of the tokens of the bytes below `n`. -/
def byteIds (n : Nat) : List (Nat × List UInt8) := ((List.range n).map fun b => (b, [UInt8.ofNat b])).reverse

theorem byteIds_lookup {n id : Nat} (h : n ≤ id) : (byteIds n).lookup id = none := by
  rw [List.lookup_eq_none_iff]
  intro e he
  obtain ⟨b, hb, rfl⟩ := List.mem_map.1 (List.mem_reverse.1 he)
  exact bne_iff_ne.2 (Nat.ne_of_gt (Nat.lt_of_lt_of_le (List.mem_range.1 hb) h))

/-- The tokens of bytes are decoded. -/
theorem bytes_decoded (n : Nat) : ((List.range n).map byteEntry).foldlM decodeEntry [] = .ok (byteIds n) := by
  induction n with
  | zero => rfl
  | succ n ih =>
    have hbyte : need (u2b (b2u (UInt8.ofNat n))) "vocabulary entry %r contains %r, which is not in the GPT-2 byte alphabet"
        [.text [b2u (UInt8.ofNat n)], .text [b2u (UInt8.ofNat n)]] = .ok (UInt8.ofNat n) := need_eq_ok.2 (u2b_b2u _)
    have hfree : (byteIds n).lookup n = none := byteIds_lookup (Nat.le_refl n)
    rw [List.range_succ, List.map_append, List.foldlM_append, ih]
    have hentry : decodeEntry (byteIds n) (byteEntry n) = .ok ((n, [UInt8.ofNat n]) :: byteIds n) := by
      refine bind_eq_ok.2 ⟨n, rfl, ?_⟩
      refine bind_eq_ok.2 ⟨[UInt8.ofNat n], mapM_eq_ok.2 (.cons hbyte .nil), bind_eq_ok.2 ⟨(), ?_, rfl⟩⟩
      rw [hfree]
      rfl
    have hids : byteIds (n + 1) = (n, [UInt8.ofNat n]) :: byteIds n := by
      unfold byteIds
      rw [List.range_succ, List.map_append, List.reverse_append]
      rfl
    rw [hids]
    exact bind_eq_ok.2 ⟨_, rfl, bind_eq_ok.2 ⟨_, hentry, rfl⟩⟩

/-- The id of a byte's token. -/
theorem bytes_lookup {n : Nat} {b : UInt8} (hn : n ≤ 256) (hb : b.toNat < n) (rest : List (Str × Json)) :
    ((List.range n).map byteEntry ++ rest).lookup [b2u b] = some (.int b.toNat) := by
  induction n generalizing rest with
  | zero => omega
  | succ n ih =>
    rw [List.range_succ, List.map_append, List.append_assoc]
    rcases Nat.lt_or_ge b.toNat n with hlt | hge
    · exact ih (by omega) hlt _
    · obtain rfl : b.toNat = n := by omega
      rw [List.lookup_eq_some_iff]
      refine ⟨(List.range b.toNat).map byteEntry, rest, ?_, ?_⟩
      · rw [List.map_singleton, byteEntry, UInt8.ofNat_toNat]
        rfl
      · intro e he
        obtain ⟨b', hb', rfl⟩ := List.mem_map.1 he
        have hlt := List.mem_range.1 hb'
        have hnat : (UInt8.ofNat b').toNat = b' := UInt8.toNat_ofNat_of_lt' (show b' < 256 by omega)
        apply bne_iff_ne.2
        intro heq
        have hsame := b2u_injective (List.cons.inj heq).1
        rw [hsame, hnat] at hlt
        exact Nat.lt_irrefl _ hlt

end Bytes

end Bytepair.Convert
