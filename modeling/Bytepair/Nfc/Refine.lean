import Bytepair.Nfc.Model
import Bytepair.Support.Composition
import Bytepair.Support.InPlace

/-!
# What the normalizer computes

The loops of `bp_nfc` compute list functions of the segment's units: a decomposition
entry by entry, the reordering and the composition of `Bytepair.Support`, the encoding of
what is left. `bpNfc_eq` puts them together: `bp_nfc` never leaves its buffers, and its
result is `nfcText`.
-/

namespace Bytepair
open Support Support.Canonical

variable (T : Tables)

/-- The class of an entry. -/
abbrev Cpe.weight : Cpe → Nat := Cpe.ccc

/-- The entries of a code point's decomposition. -/
def decomposition (cp : Nat) : List Cpe :=
  if isHangulS cp then
    let s := cp - SBASE
    let lv := [⟨LBASE + s / NCOUNT, 0⟩, ⟨VBASE + s % NCOUNT / TCOUNT, 0⟩]
    if s % TCOUNT ≠ 0 then lv ++ [⟨TBASE + s % TCOUNT, 0⟩] else lv
  else if T.bpDecomp cp = [] then [⟨cp, T.bpCcc cp⟩]
  else (T.bpDecomp cp).map fun x => ⟨x, T.bpCcc x⟩

/-- The entries of a unit; a tagged byte is one opaque starter. -/
def unitEntries (u : Nat) : List Cpe := if tagBase ≤ u then [⟨u, 0⟩] else decomposition T u

/-- The composite entry of a starter and a later entry; tagged bytes do not compose. -/
def composeCpe (a b : Cpe) : Option Cpe :=
  if tagBase ≤ a.cp ∨ tagBase ≤ b.cp ∨ composePair T a.cp b.cp = 0 then none
  else some ⟨composePair T a.cp b.cp, a.ccc⟩

/-- The ordered decomposition of a text. -/
def decomposedEntries (s : List UInt8) : List Cpe :=
  reorder Cpe.weight ((units s).flatMap (unitEntries T))

/-- The entries of the normal form of a text. -/
def nfcEntries (s : List UInt8) : List Cpe :=
  composeAll Cpe.weight (composeCpe T) (decomposedEntries T s)

/-- The text of entries. -/
def entryText (es : List Cpe) : List UInt8 := es.flatMap fun e => encodeUnit e.cp

/-- The result of the full path. -/
def nfcFull (s : List UInt8) : List UInt8 := entryText (nfcEntries T s)

/-- The quick check on units, after a unit of class `prev`. -/
def quickUnits (prev : Nat) : List Nat → Bool
  | [] => true
  | u :: us =>
    if tagBase ≤ u ∨ u < 0x80 then quickUnits 0 us
    else if T.bpCcc u ≠ 0 ∧ T.bpCcc u < prev then false
    else if T.bpNfcQc u ≠ 1 then false
    else quickUnits (T.bpCcc u) us

/-- The segment takes a fast path. -/
def nfcFast (s : List UInt8) : Bool := allAscii s || quickUnits T 0 (units s)

/-- The text `bp_nfc` hands on. -/
def nfcText (nfcFlag : Bool) (s : List UInt8) : List UInt8 :=
  if !nfcFlag || nfcFast T s then s else nfcFull T s

attribute [grind =] decomposition unitEntries composeCpe nfcText

/-- What the normalizer's buffers and tags take for granted of the tables: a decomposition
fits the four cells its callers provide, and a composite is not a tagged byte. -/
structure Tables.Sized (T : Tables) : Prop where
  decomp : ∀ cp, (T.bpDecomp cp).length ≤ 4
  compose : ∀ a b, a < tagBase → b < tagBase → T.bpCompose a b < tagBase

variable {T}

section FastPaths

/-- The quick check's loop goes once over the units. -/
theorem nfcQuick_eq (s : List UInt8) : nfcQuick T s = .ok (quickUnits T 0 (units s)) := by
  unfold nfcQuick
  refine loop_eq (fun _ => True) (fun p : List UInt8 × Nat => p.1.length)
    (fun p : List UInt8 × Nat => quickUnits T p.2 (units p.1)) ?_
    trivial (Nat.lt_succ_self _)
  rintro ⟨p, prev⟩ -
  cases p with
  | nil => exact .inr rfl
  | cons b0 rest =>
    obtain ⟨u, t, cp, adv, hnext, hdrop, -, hlen, hunits, hcases⟩ := read_unit b0 rest
    simp only [nfcQuickRound, hnext, hdrop, hunits, quickUnits]
    rcases hcases with ⟨hs, rfl⟩ | ⟨htag, rfl, rfl⟩
    · have hlt := hs.lt
      rw [if_neg hs.ne_malformed]
      by_cases hascii : cp < 0x80
      · exact .inl ⟨(t, 0), by rw [if_pos hascii], trivial, hlen, by rw [if_pos (.inr hascii)]⟩
      rw [if_neg hascii, if_neg (show ¬(tagBase ≤ cp ∨ cp < 0x80) by unfold tagBase; omega)]
      by_cases hprev : T.bpCcc cp ≠ 0 ∧ T.bpCcc cp < prev
      · exact .inr (by rw [if_pos hprev, if_pos hprev])
      rw [if_neg hprev, if_neg hprev]
      by_cases hqc : T.bpNfcQc cp ≠ 1
      · exact .inr (by rw [if_pos hqc, if_pos hqc])
      · exact .inl ⟨(t, T.bpCcc cp), by rw [if_neg hqc], trivial, hlen, by rw [if_neg hqc]⟩
    · refine .inl ⟨(t, 0), by rw [if_pos rfl], trivial, hlen, ?_⟩
      rw [if_pos (.inl (by unfold tagBase; omega))]

end FastPaths

section Decompose

theorem emit_eq_ok {α : Type} {cap : Nat} {buf xs : List α} (h : buf.length + xs.length ≤ cap) :
    emit cap buf xs = .ok (buf ++ xs) := by
  unfold emit
  induction xs generalizing buf with
  | nil => simp
  | cons x xs ih =>
    simp only [List.length_cons] at h
    rw [List.foldlM_cons, append_lt (by omega), Run.ok_bind, ih (by simp; omega)]
    simp

theorem length_decomposition_le (hT : T.Sized) (cp : Nat) : (decomposition T cp).length ≤ 4 := by
  unfold decomposition
  split
  · dsimp only
    split <;> simp
  · split
    · simp
    · simpa using hT.decomp cp

theorem decomposeOne_eq (hT : T.Sized) (cp : Nat) :
    decomposeOne T cp = .ok (decomposition T cp) := by
  unfold decomposeOne decomposition
  split
  · rfl
  · simp only [Nat.not_lt.2 (hT.decomp cp), if_false, List.length_eq_zero_iff]
    split <;> rfl

theorem length_unitEntries_le (hT : T.Sized) (u : Nat) : (unitEntries T u).length ≤ 4 := by
  unfold unitEntries
  split
  · simp
  · exact length_decomposition_le hT u

/-- The decomposition loop fills the buffer with the entries of the units, and has room for
four entries a byte. -/
theorem decompose_eq (hT : T.Sized) {cap : Nat} {s : List UInt8} (hcap : 4 * s.length ≤ cap) :
    loop (decomposeRound T cap) (s.length + 1) (s, []) = .ok ((units s).flatMap (unitEntries T)) := by
  refine loop_eq (fun p : List UInt8 × List Cpe => p.2.length + 4 * p.1.length ≤ cap)
    (fun p : List UInt8 × List Cpe => p.1.length)
    (fun p : List UInt8 × List Cpe => p.2 ++ (units p.1).flatMap (unitEntries T)) ?_
    (by simpa using hcap) (Nat.lt_succ_self _)
  rintro ⟨p, buf⟩ hroom
  cases p with
  | nil => exact .inr (by simp [decomposeRound])
  | cons b0 rest =>
    obtain ⟨u, t, cp, adv, hnext, hdrop, -, hlen, hunits, hcases⟩ := read_unit b0 rest
    have hle := length_unitEntries_le hT u
    dsimp only at hroom
    have hentries : decomposeInto T cap buf b0 cp = .ok (buf ++ unitEntries T u) := by
      unfold decomposeInto
      rcases hcases with ⟨hs, rfl⟩ | ⟨htag, rfl, rfl⟩
      · have hlt := hs.lt
        rw [unitEntries, if_neg (show ¬tagBase ≤ cp by unfold tagBase; omega)] at hle ⊢
        rw [if_neg hs.ne_malformed, decomposeOne_eq hT, Run.ok_bind, emit_eq_ok (by omega)]
      · rw [unitEntries, if_pos (show tagBase ≤ _ by unfold tagBase; omega), if_pos rfl,
          append_lt (by omega)]
    refine .inl ⟨(t, buf ++ unitEntries T u), ?_, ?_, hlen, ?_⟩
    · rw [decomposeRound, hnext]
      dsimp only
      rw [hentries, hdrop]
      rfl
    · simp only [List.length_append]
      omega
    · simp [hunits]

end Decompose

section Reorder

theorem sinkRound_eq (t : Cpe) (buf : List Cpe) (j : Nat) : sinkRound t buf j = sinkInPlace Cpe.weight t buf j := by
  cases j <;> rfl

/-- The ordering loop is the insertion sort of the library. -/
theorem reorderEntries_eq (xs : List Cpe) :
    reorderEntries xs = .ok (reorder Cpe.weight xs) := by
  have hentry : reorderEntry = insertInPlace Cpe.weight := by
    funext buf i
    unfold reorderEntry insertInPlace
    simp only [sinkRound_eq]
  rw [← orderInPlace_eq, reorderEntries, orderInPlace, hentry]

end Reorder

section Compose

/-- What a composition has written, `out`, leads to the composition of all entries once
`todo` is composed onto it. -/
def ComposesTo (T : Tables) (all out todo : List Cpe) : Option Nat → Prop
  | none => out ++ composeAll Cpe.weight (composeCpe T) todo = all
  | some k => ∃ front s marks, out = front ++ s :: marks ∧ k = front.length ∧ s.cp < tagBase ∧
      front ++ composeFrom Cpe.weight (composeCpe T) s marks todo = all

/-- The composition loop before entry `done.length`: what it wrote, entries it is done
with, and the entries ahead. -/
def Composed (T : Tables) (all todo : List Cpe) (i : Nat) (c : Composing) : Prop :=
  ∃ out gap, c.buf = out ++ (gap ++ todo) ∧ c.w = out.length ∧ out.length + gap.length = i ∧
    ComposesTo T all out todo c.starter

theorem composeCpe_tagged_left {a : Cpe} (h : tagBase ≤ a.cp) (b : Cpe) : composeCpe T a b = none := by
  rw [composeCpe, if_pos (.inl h)]

/-- The composite the loop finds is the library's. -/
theorem compositeOf_eq {front marks tail : List Cpe} {s cur : Cpe} {w : Nat} (hs : s.cp < tagBase)
    (hw : w = (front ++ s :: marks).length) :
    compositeOf T ⟨front ++ s :: marks ++ tail, w, some front.length⟩ cur =
      .ok ((if unblocked Cpe.weight marks cur then composeCpe T s cur else none).map
        fun d => (front.length, d.cp)) := by
  have hstarter : index (front ++ s :: marks ++ tail) front.length = .ok s := index_of_some (by simp)
  have hopen : entryUnblocked ⟨front ++ s :: marks ++ tail, w, some front.length⟩ front.length cur =
      .ok (unblocked Cpe.weight marks cur) := by
    unfold entryUnblocked unblocked
    rcases List.eq_nil_or_concat marks with rfl | ⟨ms, m, rfl⟩
    · rw [if_pos (by simpa using hw)]
      rfl
    · have hlast : index (front ++ s :: ms.concat m ++ tail) (w - 1) = .ok m :=
        index_of_some (by subst hw; simp)
      rw [if_neg (by subst hw; simp), hlast]
      simp
  unfold compositeOf composeCpe
  dsimp only
  by_cases hcur : cur.cp < 0x110000
  · rw [if_pos hcur, hopen, Run.ok_bind]
    cases unblocked Cpe.weight marks cur with
    | false => rfl
    | true =>
      simp only [if_true, hstarter, Run.ok_bind]
      by_cases h0 : composePair T s.cp cur.cp = 0
      · rw [if_neg (by simpa using h0), if_pos (Or.inr (Or.inr h0))]
        rfl
      · have htag : tagBase = 0x110000 := rfl
        rw [if_pos h0, if_neg (by omega)]
        rfl
  · have htag : tagBase ≤ cur.cp := by unfold tagBase; omega
    rw [if_neg hcur, if_pos (Or.inr (Or.inl htag))]
    cases unblocked Cpe.weight marks cur <;> rfl

/-- Writing the current entry at the write index. -/
theorem store_write (out gap rest : List Cpe) (cur : Cpe) :
    ∃ gap', store (out ++ (gap ++ cur :: rest)) out.length cur = .ok (out ++ [cur] ++ (gap' ++ rest)) ∧
      gap'.length = gap.length := by
  have hlt : out.length < (out ++ (gap ++ cur :: rest)).length := by
    simp only [List.length_append, List.length_cons]
    omega
  rw [store_lt hlt]
  cases gap with
  | nil => exact ⟨[], by simp, rfl⟩
  | cons g gap => exact ⟨gap ++ [cur], by simp, by simp⟩

theorem composePair_lt (hT : T.Sized) {a b : Nat} (ha : a < tagBase) (hb : b < tagBase) :
    composePair T a b < tagBase := by
  unfold composePair
  split
  · next h =>
    unfold SBASE LBASE VBASE LCOUNT VCOUNT TCOUNT tagBase at *
    omega
  split
  · next h =>
    have hs := h.1
    unfold isHangulS SBASE SCOUNT LCOUNT NCOUNT VCOUNT TCOUNT at hs
    unfold TBASE TCOUNT tagBase at *
    simp only [Bool.and_eq_true, decide_eq_true_eq] at hs
    omega
  · exact hT.compose a b ha hb

theorem composeCpe_eq_some (hT : T.Sized) {a b d : Cpe} (h : composeCpe T a b = some d) :
    d = { a with cp := d.cp } ∧ d.cp < tagBase := by
  unfold composeCpe at h
  split at h
  · cases h
  · next hno =>
    obtain rfl := Option.some.inj h
    exact ⟨rfl, composePair_lt hT (by omega) (by omega)⟩

/-- Past an entry of class 0 that nothing before it composes with. -/
theorem composesTo_next {all out rest : List Cpe} {cur : Cpe}
    (hall : out ++ composeFrom Cpe.weight (composeCpe T) cur [] rest = all) :
    ComposesTo T all (out ++ [cur]) rest (if 0x110000 ≤ cur.cp then none else some out.length) := by
  by_cases htag : 0x110000 ≤ cur.cp
  · rw [composeFrom_inert (composeCpe_tagged_left htag)] at hall
    rw [if_pos htag]
    simpa [ComposesTo] using hall
  · rw [if_neg htag]
    exact ⟨out, cur, [], rfl, rfl, by unfold tagBase; omega, hall⟩

/-- Past an entry that does not compose. -/
theorem composesTo_write {all front marks rest : List Cpe} {s cur : Cpe} (hs : s.cp < tagBase)
    (hno : unblocked Cpe.weight marks cur = true → composeCpe T s cur = none)
    (hall : front ++ composeFrom Cpe.weight (composeCpe T) s marks (cur :: rest) = all) :
    ComposesTo T all (front ++ s :: marks ++ [cur]) rest
      (if cur.ccc = 0 then
        (if 0x110000 ≤ cur.cp then none else some (front ++ s :: marks).length)
      else some front.length) := by
  rw [composeFrom_skip hno] at hall
  by_cases hccc : cur.ccc = 0
  · rw [if_pos hccc] at hall ⊢
    exact composesTo_next (by simpa using hall)
  · rw [if_neg hccc] at hall ⊢
    exact ⟨front, s, marks ++ [cur], by simp, rfl, hs, hall⟩

/-- Past an entry before the first starter that can compose. -/
theorem composesTo_start {all out rest : List Cpe} {cur : Cpe}
    (hall : out ++ composeAll Cpe.weight (composeCpe T) (cur :: rest) = all) :
    ComposesTo T all (out ++ [cur]) rest
      (if cur.ccc = 0 then (if 0x110000 ≤ cur.cp then none else some out.length) else none) := by
  rw [composeAll] at hall
  by_cases hccc : cur.ccc = 0
  · rw [if_pos hccc] at hall ⊢
    exact composesTo_next hall
  · rw [if_neg hccc] at hall ⊢
    simpa [ComposesTo] using hall

/-- **A round of the composition loop** composes the entry or writes it. -/
theorem composeEntry_spec (hT : T.Sized) {all rest : List Cpe} {cur : Cpe} {i : Nat} {c : Composing}
    (h : Composed T all (cur :: rest) i c) :
    ∃ c', composeEntry T c i = .ok c' ∧ Composed T all rest (i + 1) c' := by
  obtain ⟨buf, w, starter⟩ := c
  obtain ⟨out, gap, rfl, rfl, hi, hto⟩ := h
  have hread : index (out ++ (gap ++ cur :: rest)) i = .ok cur := index_of_some (by simp [← hi])
  obtain ⟨gap', hstore, hgap'⟩ := store_write out gap rest cur
  have hlen : (out ++ [cur]).length + gap'.length = i + 1 := by simp; omega
  unfold composeEntry
  rw [hread, Run.ok_bind]
  cases starter with
  | none =>
    simp only [compositeOf, Run.ok_bind, hstore]
    exact ⟨_, rfl, out ++ [cur], gap', rfl, by simp, hlen, composesTo_start hto⟩
  | some k =>
    obtain ⟨front, s, marks, rfl, rfl, hs, hall⟩ := hto
    rw [compositeOf_eq hs rfl, Run.ok_bind]
    cases hd : if unblocked Cpe.weight marks cur then composeCpe T s cur else none with
    | some d =>
      obtain ⟨hu, hd⟩ : unblocked Cpe.weight marks cur = true ∧ composeCpe T s cur = some d := by
        simpa using hd
      obtain ⟨hd', hlt⟩ := composeCpe_eq_some hT hd
      have hstarter : index (front ++ s :: marks ++ (gap ++ cur :: rest)) front.length = .ok s :=
        index_of_some (by simp)
      rw [composeFrom_compose hu hd] at hall
      simp only [Option.map_some, hstarter, Run.ok_bind]
      rw [store_lt (by simp)]
      refine ⟨_, rfl, front ++ d :: marks, gap ++ [cur], ?_, by simp, by simp at hi ⊢; omega,
        front, d, marks, rfl, rfl, hlt, hall⟩
      rw [← hd']
      simp
    | none =>
      have hno : unblocked Cpe.weight marks cur = true → composeCpe T s cur = none := by
        intro hu
        rwa [if_pos hu] at hd
      simp only [Option.map_none, hstore, Run.ok_bind]
      exact ⟨_, rfl, front ++ s :: marks ++ [cur], gap', rfl, by simp [Nat.add_assoc], hlen, composesTo_write hs hno hall⟩

/-- The composition loop is the composition of the library. -/
theorem composeEntries_eq (hT : T.Sized) (xs : List Cpe) :
    composeEntries T xs = .ok (composeAll Cpe.weight (composeCpe T) xs) := by
  have hround : ∀ done i todo c, [] ++ List.range xs.length = done ++ i :: todo →
      Composed T (composeAll Cpe.weight (composeCpe T) xs) (xs.drop done.length) done.length c →
      ∃ c', composeEntry T c i = .ok c' ∧ Composed T (composeAll Cpe.weight (composeCpe T) xs)
        (xs.drop (done ++ [i]).length) (done ++ [i]).length c' := by
    intro done i todo c hsplit hc
    rw [List.nil_append, List.range_eq_range'] at hsplit
    obtain ⟨hi, hlt⟩ := range'_split hsplit
    rw [List.drop_eq_getElem_cons hlt] at hc
    obtain ⟨c', hrun, hc'⟩ := composeEntry_spec hT hc
    exact ⟨c', by rw [hi, Nat.zero_add, hrun], by simpa using hc'⟩
  obtain ⟨c, hrun, out, gap, hbuf, hw, hlen, hto⟩ := foldlM_rule
    (fun done c => Composed T (composeAll Cpe.weight (composeCpe T) xs) (xs.drop done.length) done.length c)
    (List.range xs.length) [] ⟨xs, 0, none⟩ ⟨[], [], rfl, rfl, rfl, rfl⟩ hround
  have hout : c.buf.take c.w = out := by rw [hbuf, hw, List.take_left]
  unfold composeEntries
  rw [hrun, Run.ok_bind, hout]
  simp only [List.nil_append, List.length_range, List.drop_length] at hto
  cases hs : c.starter with
  | none =>
    rw [hs] at hto
    simpa [ComposesTo, composeAll] using hto
  | some k =>
    rw [hs] at hto
    obtain ⟨front, s, marks, rfl, -, -, hall⟩ := hto
    simpa [composeFrom] using hall

end Compose

section Encode

/-- The encoding loop writes the text of the entries. -/
theorem encodeEntries_eq {cap : Nat} {es : List Cpe} (hcap : 4 * es.length ≤ cap) :
    encodeEntries cap es = .ok (entryText es) := by
  have key : ∀ (es : List Cpe) (o : List UInt8), o.length + 4 * es.length ≤ cap →
      es.foldlM (fun o e => emit cap o (encodeUnit e.cp)) o = .ok (o ++ entryText es) := by
    intro es
    induction es with
    | nil => intro o _; simp [entryText]
    | cons e es ih =>
      intro o ho
      have hlen := length_encodeUnit_le e.cp
      simp only [List.length_cons] at ho
      rw [List.foldlM_cons, emit_eq_ok (by omega), Run.ok_bind, ih _ (by simp; omega)]
      simp [entryText]
  simpa [encodeEntries] using key es [] (by simpa using hcap)

end Encode

/-- The full path stays inside the buffers it reserves, and ends with the full normal form
unless the allocator refused. -/
theorem bpNfcFull_eq (hT : T.Sized) (m : Scratch) (s : List UInt8) :
    ∃ r m', bpNfcFull T m s = .ok (r, m') ∧ (r = .ok (nfcFull T s) ∨ r = .error .nomem) ∧
      (m.Granted → r = .ok (nfcFull T s) ∧ m'.Granted) ∧ m'.ids = m.ids := by
  obtain ⟨work, m₁, hwork, hroom, hgranted, -, -, hids⟩ :=
    reserve_eq_ok (show 0 < 4096 by decide) m m.work ((s.length * 4 + 1) * 8)
  unfold bpNfcFull
  simp only [bpBufReserve, hwork, Run.ok_bind]
  cases work with
  | none => exact ⟨_, _, rfl, .inr rfl, fun hg => absurd (hgranted hg).1 (by simp), hids⟩
  | some work =>
    have hcap : 4 * s.length ≤ work / 8 := by
      have := hroom work rfl
      omega
    simp only [decompose_eq hT hcap, reorderEntries_eq, composeEntries_eq hT, Run.ok_bind]
    obtain ⟨norm, m₂, hnorm, hroom₂, hgranted₂, -, -, hids₂⟩ := reserve_eq_ok (show 0 < 4096 by decide)
      { m₁ with work := work } m₁.norm ((nfcEntries T s).length * 4 + 1)
    unfold nfcEntries decomposedEntries at hnorm hroom₂
    rw [hnorm, Run.ok_bind]
    cases norm with
    | none =>
      refine ⟨_, _, rfl, .inr rfl, fun hg => ?_, hids₂.trans hids⟩
      exact absurd (hgranted₂ (hgranted hg).2).1 (by simp)
    | some norm =>
      have hcap₂ := hroom₂ norm rfl
      have htext : encodeEntries norm (composeAll Cpe.weight (composeCpe T)
          (reorder Cpe.weight ((units s).flatMap (unitEntries T)))) = .ok (nfcFull T s) :=
        encodeEntries_eq (by omega)
      simp only [htext, Run.ok_bind]
      exact ⟨_, { m₂ with norm := norm }, rfl, .inl rfl,
        fun hg => ⟨rfl, (hgranted₂ (hgranted hg).2).2⟩, hids₂.trans hids⟩

/-- **What `bp_nfc` does.** Every run stays inside the buffers it reserved and ends, with
`nfcText` unless the allocator refused. -/
theorem bpNfc_eq (hT : T.Sized) (nfcFlag : Bool) (m : Scratch) (s : List UInt8) :
    ∃ r m', bpNfc T nfcFlag m s = .ok (r, m') ∧
      (r = .ok (nfcText T nfcFlag s) ∨ r = .error .nomem) ∧
      (m.Granted → r = .ok (nfcText T nfcFlag s) ∧ m'.Granted) ∧ m'.ids = m.ids := by
  have hempty : s.length = 0 → allAscii s = true := by
    intro h
    rw [List.eq_nil_of_length_eq_zero h]
    rfl
  unfold bpNfc nfcText nfcFast
  rw [nfcQuick_eq, Run.ok_bind]
  by_cases hflag : (!nfcFlag || decide (s.length = 0) || allAscii s) = true
  · have htext : (!nfcFlag || (allAscii s || quickUnits T 0 (units s))) = true := by
      simp only [Bool.or_eq_true, decide_eq_true_eq] at hflag ⊢
      tauto
    rw [if_pos hflag, if_pos htext]
    exact ⟨_, _, rfl, .inl rfl, fun hg => ⟨rfl, hg⟩, rfl⟩
  · rw [if_neg hflag]
    simp only [Bool.or_eq_true, decide_eq_true_eq, not_or, Bool.not_eq_true] at hflag
    by_cases hquick : quickUnits T 0 (units s) = true
    · rw [if_pos hquick, if_pos (by simp [hquick])]
      exact ⟨_, _, rfl, .inl rfl, fun hg => ⟨rfl, hg⟩, rfl⟩
    · rw [if_neg hquick, if_neg (by simp [hflag.1.1, hflag.2, hquick])]
      exact bpNfcFull_eq hT m s

end Bytepair
