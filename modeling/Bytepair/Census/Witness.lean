import Bytepair.Census.Fragments
import Bytepair.Census.Model
import Bytepair.Encode.Spans
import Bytepair.Encode.Opened

/-!
# Witnesses of the census

What the census does on the handle of an image and a context that grants all it asks for. A step of the search
leaves the context as good as it found it, and what it comes to is a witness: `Searched`. `Judged`
says what every verdict rests on.
-/

namespace Bytepair
open Support

/-- The text is well formed, and the token is among the ids it is encoded as. -/
def Witnesses (v : BpVocab) (t : Nat) (w : List UInt8) : Prop :=
  WellFormed w ∧ ∃ ids, Encodes v w 0 ids ∧ t ∈ ids

section Valid

theorem IsTagged.not_isScalar {u : Nat} (h : IsTagged u) : ¬IsScalar u := by
  unfold IsTagged IsScalar at *
  omega

/-- `utf8_valid` is well-formedness. -/
theorem utf8Valid_iff {n : Nat} {w : List UInt8} (hn : w.length ≤ n) : utf8Valid n w = true ↔ WellFormed w := by
  induction n generalizing w with
  | zero =>
    obtain rfl := List.eq_nil_of_length_eq_zero (Nat.le_zero.1 hn)
    exact ⟨fun _ => List.forall_mem_nil _, fun _ => rfl⟩
  | succ n ih =>
    cases w with
    | nil => exact ⟨fun _ => List.forall_mem_nil _, fun _ => rfl⟩
    | cons b rest =>
      obtain ⟨u, tail, cp, adv, hnext, hdrop, -, hlen, hunits, hunit⟩ := read_unit b rest
      have htail := ih (show tail.length ≤ n by omega)
      unfold WellFormed at htail ⊢
      rw [utf8Valid, hnext, hunits, List.forall_mem_cons]
      dsimp only
      rw [hdrop]
      rcases hunit with ⟨hu, rfl⟩ | ⟨hu, -, rfl⟩
      · rw [if_neg hu.ne_malformed, htail, and_iff_right hu]
      · rw [if_pos rfl]
        exact ⟨fun h => absurd h Bool.false_ne_true, fun h => absurd h.1 hu.not_isScalar⟩

/-- `contains_id` inside the buffer. -/
theorem containsId_eq (ids : List Nat) (t : Nat) {i n : Nat} (h : i + n ≤ ids.length) :
    containsId ids t i n = .ok (((ids.drop i).take n).contains t) := by
  induction n generalizing i with
  | zero =>
    rw [List.take_zero]
    rfl
  | succ n ih =>
    have hi : i < ids.length := by omega
    rw [containsId, index_lt hi, Run.ok_bind, List.drop_eq_getElem_cons hi, List.take_succ_cons, List.contains_cons]
    split
    · next heq =>
      rw [heq, beq_self_eq_true, Bool.true_or]
      rfl
    · next hne =>
      rw [ih (by omega), beq_false_of_ne (Ne.symm hne), Bool.false_or]

end Valid

section Steps

variable {host : Host} {map : List UInt8} {v : BpVocab} {g : Prop}

/-- A context of the handle, which grants all that is asked if `g`. -/
structure Ready (v : BpVocab) (g : Prop) (c : BpCtx) : Prop where
  coherent : c.Coherent v
  grants : g → c.scratch.Granted

/-- A witness that was found: a text of a bounded length that comes to few ids, the token among them. -/
structure Found (v : BpVocab) (t : Nat) (w : List UInt8) : Prop where
  length : w.length ≤ WMAX
  wellFormed : WellFormed w
  emitted : ∃ ids, encodeIds shipped v w 0 = some ids ∧ ids.length ≤ WMAX + 8 ∧ t ∈ ids

theorem Found.witnesses (h : Opens host map v) {t : Nat} {w : List UInt8} (hw : Found v t w) : Witnesses v t w := by
  obtain ⟨ids, hids, -, ht⟩ := hw.emitted
  exact ⟨hw.wellFormed, ids, (encodes_iff h.valid h.matcher).2 hids, ht⟩

/-- A call to the encoder by the census. -/
inductive Replies (v : BpVocab) (g : Prop) (w : List UInt8) (out : List Nat) :
    Run (Except Err Nat × (BpCtx × List Nat)) → Prop
  | done {ids : List Nat} {c : BpCtx} (emitted : encodeIds shipped v w 0 = some ids) (ready : Ready v g c) :
    Replies v g w out (.ok (.ok ids.length, (c, filled out ids)))
  | refused {c : BpCtx} {out' : List Nat} (ready : Ready v g c) (hno : ¬g) :
    Replies v g w out (.ok (.error .nomem, (c, out')))

theorem Ready.encode (h : Opens host map v) {c : BpCtx} (hc : Ready v g c) (w : List UInt8)
    (out : List Nat) : Replies v g w out (bpEncode shipped c w out 0) := by
  obtain ⟨ids, hids⟩ := encodeIds_isSome (T := shipped) h.valid w 0
  have hs := bpEncode_spec shipped_sized shipped_scannable h.valid h.matcher hc.coherent w out 0
  rw [hids] at hs
  generalize bpEncode shipped c w out 0 = x at hs
  cases hs with
  | done _ c' coherent grants => exact .done hids ⟨coherent, fun hg => grants (hc.grants hg)⟩
  | refused _ c' more coherent hno _ =>
    have hno : ¬g := fun hg => hno (hc.grants hg)
    exact .refused ⟨coherent, fun hg => absurd hg hno⟩ hno

/-- What a step of the search comes to: a witness or nothing. -/
def Searched (v : BpVocab) (g : Prop) (t : Nat) (x : Run (Option (List UInt8) × BpCtx)) : Prop :=
  ∃ w c, x = .ok (w, c) ∧ Ready v g c ∧ ∀ bs, w = some bs → Found v t bs

theorem Searched.nothing {c : BpCtx} (hc : Ready v g c) (t : Nat) : Searched v g t (.ok (none, c)) := by
  refine ⟨none, c, rfl, hc, ?_⟩
  rintro bs ⟨⟩

/-- One search, and another where it comes to nothing. -/
theorem Searched.orElse {t : Nat} {x : Run (Option (List UInt8) × BpCtx)}
    {k : BpCtx → Run (Option (List UInt8) × BpCtx)} (hx : Searched v g t x)
    (hk : ∀ c, Ready v g c → Searched v g t (k c)) :
    Searched v g t (do
      match ← x with
      | (some w, c) => pure (some w, c)
      | (none, c) => k c) := by
  obtain ⟨w, c, rfl, hc, hw⟩ := hx
  cases w with
  | none => exact hk c hc
  | some bs => exact ⟨some bs, c, rfl, hc, hw⟩

theorem filled_take {out ids : List Nat} (h : ids.length ≤ out.length) : (filled out ids).take ids.length = ids := by
  rw [filled, List.take_of_length_le h, List.take_left]

/-- The search of the ids of a call. -/
theorem containsId_filled {out ids : List Nat} (t : Nat) (h : ids.length ≤ out.length) :
    containsId (filled out ids) t 0 ids.length = .ok (ids.contains t) := by
  rw [containsId_eq _ _ (by rw [length_filled]; omega), List.drop_zero, filled_take h]

/-- A try: the text around the token is a witness, or nothing is found. -/
theorem tryWitness_spec (h : Opens host map v) {c : BpCtx} (hc : Ready v g c) (t : Nat) (tb : List UInt8)
    (affix : List UInt8 × List UInt8) :
    ∃ w c', tryWitness shipped c t tb affix = .ok (w, c') ∧ Ready v g c' ∧
      ∀ bs, w = some bs → bs = affix.1 ++ tb ++ affix.2 ∧ Found v t bs := by
  unfold tryWitness
  dsimp only
  generalize affix.1 ++ tb ++ affix.2 = w
  have nothing : ∀ c', Ready v g c' → ∃ w' c'', (Except.ok (none, c') : Run (Option (List UInt8) × BpCtx)) = .ok (w', c'') ∧
      Ready v g c'' ∧ ∀ bs, w' = some bs → bs = w ∧ Found v t bs := by
    intro c' hc'
    refine ⟨none, c', rfl, hc', ?_⟩
    rintro bs ⟨⟩
  split
  · exact nothing c hc
  · next hw =>
    have hw := Nat.le_of_not_lt hw
    split
    · exact nothing c hc
    · next hvalid =>
      have hvalid : utf8Valid w.length w = true := by simpa using hvalid
      have hrun := hc.encode h w (List.replicate (WMAX + 8) 0)
      generalize bpEncode shipped c w (List.replicate (WMAX + 8) 0) 0 = x at hrun
      cases hrun with
      | refused hc' _ => exact nothing _ hc'
      | @done ids c' hids hc' =>
        rw [Run.ok_bind]
        dsimp only
        split
        · next hroom =>
          simp only [Bool.and_eq_true, decide_eq_true_eq] at hroom
          rw [containsId_filled t (by rw [List.length_replicate]; exact hroom.2), Run.ok_bind]
          refine ⟨_, c', rfl, hc', ?_⟩
          intro bs hbs
          split at hbs
          · next hfound =>
            cases hbs
            exact ⟨rfl, hw, (utf8Valid_iff (Nat.le_refl _)).1 hvalid, ids, hids, hroom.2, List.contains_iff_mem.1 hfound⟩
          · cases hbs
        · exact nothing c' hc'

theorem tryWitness_searched (h : Opens host map v) {c : BpCtx} (hc : Ready v g c) (t : Nat) (tb : List UInt8)
    (affix : List UInt8 × List UInt8) : Searched v g t (tryWitness shipped c t tb affix) := by
  obtain ⟨w, c', hrun, hc', hw⟩ := tryWitness_spec h hc t tb affix
  exact ⟨w, c', hrun, hc', fun bs hbs => (hw bs hbs).2⟩

theorem firstWitness_searched {α : Type} {t : Nat} {step : BpCtx → α → Run (Option (List UInt8) × BpCtx)}
    {xs : List α} (hstep : ∀ c, ∀ x ∈ xs, Ready v g c → Searched v g t (step c x)) {c : BpCtx} (hc : Ready v g c) :
    Searched v g t (firstWitness step c xs) := by
  induction xs generalizing c with
  | nil => exact .nothing hc t
  | cons x xs ih =>
    apply (hstep c x List.mem_cons_self hc).orElse
    exact fun c hc => ih (fun c y hy => hstep c y (List.mem_cons_of_mem x hy)) hc

theorem tryAffixes_searched (h : Opens host map v) {c : BpCtx} (hc : Ready v g c) (t : Nat) (tb : List UInt8)
    (affixes : List (List UInt8 × List UInt8)) :
    Searched v g t (firstWitness (fun c => tryWitness shipped c t tb) c affixes) :=
  firstWitness_searched (fun _ x _ hc => tryWitness_searched h hc t tb x) hc

theorem tryGlue_searched (h : Opens host map v) {c : BpCtx} (hc : Ready v g c) (t : Nat) (tb : List UInt8) :
    Searched v g t (tryGlue shipped c t tb) := tryAffixes_searched h hc t tb _

end Steps

section Steal

variable {host : Host} {map : List UInt8} {v : BpVocab} {g : Prop}

/-- A lookup of the pair of two bytes. -/
theorem byteLookup_eq {α : Type} (hv : v.Valid) {c : BpCtx} (hc : c.Coherent v) {a b : Nat} (ha : a < 256)
    (hb : b < 256) (k : Nat → Run α) :
    (do
      let value ← bpPairLookup c.v (← index c.v.byteId a) (← index c.v.byteId b)
      k value) = k (v.lookup (v.byteId[a]?.getD 0) (v.byteId[b]?.getD 0)) := by
  rw [hc.handle, index_getD 0 (by rw [hv.bytes]; exact ha), Run.ok_bind, index_getD 0 (by rw [hv.bytes]; exact hb),
    Run.ok_bind, bpPairLookup_eq hv, Run.ok_bind]

theorem followers_lt {lo yy : Nat} (h : yy ∈ followers lo) : yy < 256 := by
  obtain ⟨k, hk, rfl⟩ := List.mem_range'.1 (List.mem_filter.1 h).1
  omega

theorem stealFrom_searched (h : Opens host map v) {c : BpCtx} (hc : Ready v g c) (t : Nat) (tb : List UInt8) {xx : Nat}
    (hxx : xx < 256) (r1 : Nat) : Searched v g t (stealFrom shipped c t tb xx r1) := by
  apply firstWitness_searched _ hc
  intro c yy hyy hc
  rw [byteLookup_eq h.valid hc.coherent hxx (followers_lt hyy)]
  split
  · exact .nothing hc t
  · exact tryWitness_searched h hc t tb _

theorem trySteal_searched (h : Opens host map v) {c : BpCtx} (hc : Ready v g c) (t : Nat) (tb : List UInt8) :
    Searched v g t (trySteal shipped c t tb) := by
  unfold trySteal
  split
  · next b =>
    split
    · apply firstWitness_searched _ hc
      intro c xx hxx hc
      have hxx : xx < 256 := by
        obtain ⟨k, hk, rfl⟩ := List.mem_range'.1 hxx
        omega
      rw [byteLookup_eq h.valid hc.coherent b.toNat_lt hxx]
      split
      · exact .nothing hc t
      · exact stealFrom_searched h hc t [b] hxx _
    · exact .nothing hc t
  · exact .nothing hc t

theorem tryFragmentExhaustive_searched (h : Opens host map v) {c : BpCtx} (hc : Ready v g c) (t : Nat)
    (tb : List UInt8) : Searched v g t (tryFragmentExhaustive shipped c t tb) := by
  unfold tryFragmentExhaustive
  split
  · exact .nothing hc t
  · split
    · exact .nothing hc t
    · apply (tryAffixes_searched h hc t tb _).orElse
      intro c hc
      apply (trySteal_searched h hc t tb).orElse
      exact fun c hc => tryAffixes_searched h hc t tb _

end Steal

section Token

variable {host : Host} {map : List UInt8} {v : BpVocab} {g : Prop}

/-- The bytes of a token that the vocabulary has. -/
theorem tokenSpan_eq (hv : v.Valid) {t : Nat} (ht : v.HasId t) : tokenSpan v t = .ok (v.span t) := by
  obtain ⟨hle, hend⟩ := hv.span_end ht
  have hlen := hv.length_span ht
  have hoffsets := hv.offsets
  have hcount : t < v.hdr.vocabCount := ht
  rw [tokenSpan, index_getD 0 (by omega), Run.ok_bind, index_getD 0 (by omega), Run.ok_bind]
  show slice v.blob (offsetOf v.tokOff t) (sub32 (offsetOf v.tokOff (t + 1)) (offsetOf v.tokOff t)) = _
  rw [sub32_of_le (hv.narrow _) hle, ← hlen, slice_of_le (by omega), hlen]
  rfl

/-- The buffer and the count say whether a pretoken comes to one id. -/
theorem filled_single {n : Nat} (hn : 0 < n) (ids : List Nat) (t : Nat) :
    (decide (ids.length = 1) && decide ((filled (List.replicate n 0) ids).head? = some t)) = true ↔ ids = [t] := by
  rw [Bool.and_eq_true, decide_eq_true_eq, decide_eq_true_eq, List.length_eq_one_iff]
  constructor
  · rintro ⟨⟨a, rfl⟩, hhead⟩
    rw [filled, List.length_replicate, List.take_of_length_le hn] at hhead
    cases hhead
    rfl
  · rintro rfl
    refine ⟨⟨t, rfl⟩, ?_⟩
    rw [filled, List.length_replicate, List.take_of_length_le hn]
    rfl

/-- The test of a token alone. -/
theorem pureIsSingle_spec (hv : v.Valid) {c : BpCtx} (hc : Ready v g c) {tb : List UInt8} (hlen : tb.length ≤ WMAX)
    (t : Nat) :
    ∃ b c', pureIsSingle c tb t = .ok (b, c') ∧ Ready v g c' ∧
      (b = true → pretokenIds v tb = some [t]) ∧ (b = false → g → pretokenIds v tb ≠ some [t]) := by
  have hshort : tb.length < 2 ^ 31 := by
    unfold WMAX at hlen
    omega
  have hrun := bpBpePretoken_emits hv hc.coherent tb (List.replicate (WMAX + 8) 0) []
  have hids := pretokenIds_eq hv hshort
  generalize greedy (routeRule v tb.length) (tb.map v.byteToken) = ids at hids
  unfold pureIsSingle
  rw [holding_nil, hids] at hrun
  rw [if_neg (Nat.not_lt.2 hlen), hids]
  generalize bpBpePretoken (c, ⟨List.replicate (WMAX + 8) 0, 0⟩) tb = x at hrun
  cases hrun with
  | refused _ c' more coherent hno _ =>
    have hno : ¬g := fun hg => hno (hc.grants hg)
    refine ⟨false, c', rfl, ⟨coherent, fun hg => absurd hg hno⟩, ?_, fun _ hg => absurd hg hno⟩
    rintro ⟨⟩
  | emitted _ c' coherent grants =>
    have hsingle := filled_single (show 0 < WMAX + 8 by decide) ids t
    refine ⟨_, c', rfl, ⟨coherent, fun hg => grants (hc.grants hg)⟩, ?_, ?_⟩
    · exact fun hb => congrArg some (hsingle.1 hb)
    · intro hb _ heq
      exact Bool.false_ne_true (hb.symm.trans (hsingle.2 (Option.some.inj heq)))

/-- What a verdict rests on. -/
inductive Judged (v : BpVocab) (g : Prop) (t : Nat) : CensusResult → Prop
  | added (hadded : v.isAdded t = true) : Judged v g t ⟨.added, .none, v.span t, 0⟩
  | mergeOrder (hadded : v.isAdded t = false) (hlen : (v.span t).length ≤ WMAX)
    (hno : g → pretokenIds v (v.span t) ≠ some [t]) : Judged v g t ⟨.impossible, .mergeOrder, [], 0⟩
  | impossible (hadded : v.isAdded t = false) (hlen : (v.span t).length ≤ WMAX)
    (single : pretokenIds v (v.span t) = some [t]) {reason : CensusReason}
    (proved : proveImpossible shipped (v.span t) = reason) (hreason : reason ≠ .none) :
    Judged v g t ⟨.impossible, reason, [], 0⟩
  | found (hadded : v.isAdded t = false) {verdict : CensusVerdict} (hverdict : verdict = .self ∨ verdict = .context)
    {w : List UInt8} (found : Found v t w) (searched : Nat) : Judged v g t ⟨verdict, .none, w, searched⟩
  | unresolved (hadded : v.isAdded t = false)
    (hopen : WMAX < (v.span t).length ∨
      pretokenIds v (v.span t) = some [t] ∧ proveImpossible shipped (v.span t) = .none)
    (searched : Nat) : Judged v g t ⟨.unresolved, .none, [], searched⟩

theorem tryAlignments_inl {t : List UInt8} {ks : List Nat} {found : Bool × Bool} {reason : CensusReason}
    (h : tryAlignments shipped t ks found = .inl reason) : reason = .none := by
  induction ks generalizing found with
  | nil => cases h
  | cons k ks ih =>
    rw [tryAlignments] at h
    split at h
    · split at h
      · exact ih h
      · split at h
        · split at h
          · exact ih h
          · cases h
            rfl
        · exact ih h
    · cases h

/-- The prover knows nothing of merges. -/
theorem proveImpossible_ne_mergeOrder (t : List UInt8) : proveImpossible shipped t ≠ .mergeOrder := by
  unfold proveImpossible
  split
  · decide
  · split
    · next reason h =>
      rw [tryAlignments_inl h]
      decide
    · repeat' split
      all_goals decide

/-- What the verdict `impossible` rests on. -/
theorem Judged.of_impossible {t : Nat} {r : CensusResult} (hr : Judged v g t r) (h : r.verdict = .impossible) :
    v.isAdded t = false ∧ (v.span t).length ≤ WMAX ∧
      (r.reason = .mergeOrder ∧ (g → pretokenIds v (v.span t) ≠ some [t]) ∨
        r.reason ≠ .mergeOrder ∧ pretokenIds v (v.span t) = some [t] ∧ proveImpossible shipped (v.span t) = r.reason) := by
  cases hr with
  | mergeOrder hadded hlen hno => exact ⟨hadded, hlen, .inl ⟨rfl, hno⟩⟩
  | impossible hadded hlen single proved _ =>
    refine ⟨hadded, hlen, .inr ⟨?_, single, proved⟩⟩
    rw [← proved]
    exact proveImpossible_ne_mergeOrder _
  | found _ hverdict _ _ =>
    rcases hverdict with rfl | rfl <;> cases h
  | _ => cases h

theorem searchPool_searched (h : Opens host map v) {c : BpCtx} (hc : Ready v g c) (t : Nat) (tb : List UInt8)
    (searched : Nat) (affixes : List (List UInt8 × List UInt8)) :
    ∃ w n c', searchPool shipped t tb c searched affixes = .ok ((w, n), c') ∧ Ready v g c' ∧
      ∀ bs, w = some bs → Found v t bs := by
  induction affixes generalizing c searched with
  | nil =>
    refine ⟨none, searched, c, rfl, hc, ?_⟩
    rintro bs ⟨⟩
  | cons affix rest ih =>
    obtain ⟨w, c', hw, hc', hfound⟩ := tryWitness_searched h hc t tb affix
    rw [searchPool, hw, Run.ok_bind]
    cases w with
    | some bs => exact ⟨some bs, _, c', rfl, hc', hfound⟩
    | none => exact ih hc' (searched + 1)

theorem censusSearch_spec (h : Opens host map v) {c : BpCtx} (hc : Ready v g c) {t : Nat} (tb : List UInt8) (deep : Bool)
    (hadded : v.isAdded t = false)
    (hopen : pretokenIds v (v.span t) = some [t] ∧ proveImpossible shipped (v.span t) = .none) :
    ∃ r c', censusSearch shipped c t tb deep = .ok (r, c') ∧ Ready v g c' ∧ Judged v g t r := by
  obtain ⟨w, c₁, hw, hc₁, hfound⟩ := tryGlue_searched h hc t tb
  rw [censusSearch, hw, Run.ok_bind]
  cases w with
  | some bs => exact ⟨_, c₁, rfl, hc₁, .found hadded (.inr rfl) (hfound bs rfl) 0⟩
  | none =>
    obtain ⟨w, n, c₂, hw, hc₂, hfound⟩ :=
      searchPool_searched h hc₁ t tb 0 (poolAffixes (if deep then AFFIX_DEEP else AFFIX_QUICK))
    dsimp only
    rw [hw, Run.ok_bind]
    cases w with
    | some bs => exact ⟨_, c₂, rfl, hc₂, .found hadded (.inr rfl) (hfound bs rfl) n⟩
    | none =>
      have hdeep : Searched v g t (if deep then tryFragmentExhaustive shipped c₂ t tb else .ok (none, c₂)) := by
        split
        · exact tryFragmentExhaustive_searched h hc₂ t tb
        · exact .nothing hc₂ t
      obtain ⟨w, c₃, hw, hc₃, hfound⟩ := hdeep
      dsimp only
      rw [hw, Run.ok_bind]
      cases w with
      | some bs => exact ⟨_, c₃, rfl, hc₃, .found hadded (.inr rfl) (hfound bs rfl) n⟩
      | none => exact ⟨_, c₃, rfl, hc₃, .unresolved hadded (.inr hopen) n⟩

/-- An added token is reported as it is. -/
theorem censusToken_added (hv : v.Valid) {t : Nat} (hadded : v.isAdded t = true) (c : BpCtx) (deep : Bool) :
    censusToken shipped v c t deep = .ok (⟨.added, .none, v.span t, 0⟩, c) := by
  obtain ⟨a, ha, rfl⟩ := isAdded_iff.1 hadded
  have hshort : (v.span a.id).take WMAX = v.span a.id := by
    obtain ⟨-, -, hlen, -⟩ := hv.record_bytes ha
    have hlong := (hv.record a ha).len
    apply List.take_of_length_le
    show (v.addedBytes a).length ≤ WMAX
    unfold WMAX
    omega
  rw [censusToken, tokenSpan_eq hv (hv.record a ha).id, Run.ok_bind,
    if_pos (show (v.added.any fun b => b.id = a.id) = true from hadded), hshort]
  rfl

/-- **The verdict on a token.** -/
theorem censusToken_spec (h : Opens host map v) {c : BpCtx} (hc : Ready v g c) {t : Nat} (ht : v.HasId t) (deep : Bool) :
    ∃ r c', censusToken shipped v c t deep = .ok (r, c') ∧ Ready v g c' ∧ Judged v g t r := by
  cases hadded : v.isAdded t with
  | true => exact ⟨_, c, censusToken_added h.valid hadded c deep, hc, .added hadded⟩
  | false =>
    rw [censusToken, tokenSpan_eq h.valid ht, Run.ok_bind,
      if_neg (show ¬(v.added.any fun a => a.id = t) = true from Bool.eq_false_iff.1 hadded)]
    split
    · next hlong => exact ⟨_, c, rfl, hc, .unresolved hadded (.inl hlong) 0⟩
    · next hlen =>
      have hlen := Nat.le_of_not_lt hlen
      obtain ⟨b, c₁, hsingle, hc₁, hyes, hno⟩ := pureIsSingle_spec h.valid hc hlen t
      rw [hsingle, Run.ok_bind]
      cases b with
      | false => exact ⟨_, c₁, rfl, hc₁, .mergeOrder hadded hlen (hno rfl)⟩
      | true =>
        obtain ⟨w, c₂, hw, hc₂, hfound⟩ := tryWitness_searched h hc₁ t (v.span t) ([], [])
        dsimp only
        rw [hw, Run.ok_bind]
        cases w with
        | some bs => exact ⟨_, c₂, rfl, hc₂, .found hadded (.inl rfl) (hfound bs rfl) 0⟩
        | none =>
          dsimp only
          split
          · next hproved => exact censusSearch_spec h hc₂ (v.span t) deep hadded ⟨hyes rfl, hproved⟩
          · next hreason => exact ⟨_, c₂, rfl, hc₂, .impossible hadded hlen (hyes rfl) rfl hreason⟩

/-- What the prover says of a token that its own bytes are merged to and that its own bytes, as a text, do not
come to is the verdict. -/
theorem censusToken_impossible (h : Opens host map v) {c : BpCtx} (hc : c.Reached shipped v) (hg : c.scratch.Granted)
    {t : Nat} (ht : v.HasId t) (hadded : v.isAdded t = false) (hlen : (v.span t).length ≤ WMAX)
    (hsingle : pretokenIds v (v.span t) = some [t])
    (hno : WellFormed (v.span t) → ∀ ids, encodeIds shipped v (v.span t) 0 = some ids → t ∉ ids)
    {reason : CensusReason} (hproved : proveImpossible shipped (v.span t) = reason) (hreason : reason ≠ .none) (deep : Bool) :
    ∃ c', censusToken shipped v c t deep = .ok (⟨.impossible, reason, [], 0⟩, c') := by
  have hready : Ready v True c := ⟨h.coherent hc, fun _ => hg⟩
  obtain ⟨b, c₁, hrun, hc₁, -, hfail⟩ := pureIsSingle_spec h.valid hready hlen t
  rw [censusToken, tokenSpan_eq h.valid ht, Run.ok_bind,
    if_neg (show ¬(v.added.any fun a => a.id = t) = true from Bool.eq_false_iff.1 hadded), if_neg (Nat.not_lt.2 hlen),
    hrun, Run.ok_bind]
  cases b with
  | false => exact absurd hsingle (hfail rfl trivial)
  | true =>
    obtain ⟨w, c₂, hw, -, hfound⟩ := tryWitness_spec h hc₁ t (v.span t) ([], [])
    dsimp only
    rw [hw, Run.ok_bind]
    cases w with
    | some bs =>
      obtain ⟨rfl, hbs⟩ := hfound bs rfl
      rw [List.nil_append, List.append_nil] at hbs
      obtain ⟨ids, hids, -, hmem⟩ := hbs.emitted
      exact absurd hmem (hno hbs.wellFormed ids hids)
    | none =>
      refine ⟨c₂, ?_⟩
      dsimp only
      rw [hproved]
      cases reason with
      | none => exact absurd rfl hreason
      | _ => rfl

end Token

end Bytepair
