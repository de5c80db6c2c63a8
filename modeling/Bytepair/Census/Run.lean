import Bytepair.Census.Steady

/-!
# A run of the census

What `bp_census_run` finds: a row for every id in use, in order, with the verdict that `census_token` gives, and no witness that
fails when it is encoded again. `bpCensusRun_spec`.
-/

namespace Bytepair
open Support

/-- How many ids are looked at. -/
def censusCount (v : BpVocab) (limit : Nat) : Nat :=
  if limit ≠ 0 && limit < v.hdr.vocabCount then limit else v.hdr.vocabCount

section Rows

variable {v : BpVocab} {g : Prop} {deep : Bool}

/-- The rows are those of the ids in use among `ts`, in order, each with the bytes of its id. -/
structure RowsOf (v : BpVocab) (ts : List Nat) (rows : List CensusRow) : Prop where
  ids : rows.map CensusRow.id = ts.filter fun t => v.span t ≠ []
  bytes : ∀ row ∈ rows, row.bytes = v.span row.id

theorem rowsOf_nil : RowsOf v [] [] := ⟨rfl, List.forall_mem_nil _⟩

theorem RowsOf.skip {done : List Nat} {rows : List CensusRow} (h : RowsOf v done rows) {t : Nat} (ht : v.span t = []) :
    RowsOf v (done ++ [t]) rows := by
  constructor
  · rw [h.ids, List.filter_append]
    simp [ht]
  · exact h.bytes

theorem RowsOf.add {done : List Nat} {rows : List CensusRow} (h : RowsOf v done rows) {t : Nat} (ht : v.span t ≠ [])
    (r : CensusResult) : RowsOf v (done ++ [t]) (rows ++ [⟨t, v.span t, r⟩]) := by
  constructor
  · rw [List.map_append, h.ids, List.filter_append]
    simp [ht]
  · exact List.forall_mem_append.2 ⟨h.bytes, List.forall_mem_singleton.2 rfl⟩

/-- A verdict: it is judged, some call on a context in order gives it and, where all that is asked is granted, every one. -/
structure IsVerdict (v : BpVocab) (g : Prop) (deep : Bool) (t : Nat) (r : CensusResult) : Prop where
  judged : Judged v g t r
  given : ∃ c c', Ready v g c ∧ censusToken shipped v c t deep = .ok (r, c')
  steady : g → ∀ c, Ready v g c → ∃ c', censusToken shipped v c t deep = .ok (r, c') ∧ Ready v g c'

/-- A call on a context in order gives a verdict. -/
theorem censusToken_verdict {host : Host} {map : List UInt8} (h : Opens host map v) {c : BpCtx} (hc : Ready v g c) {t : Nat}
    (ht : v.HasId t) (deep : Bool) :
    ∃ r c', censusToken shipped v c t deep = .ok (r, c') ∧ Ready v g c' ∧ IsVerdict v g deep t r := by
  obtain ⟨r, c', hrun, hc', hjudged⟩ := censusToken_spec h hc ht deep
  refine ⟨r, c', hrun, hc', hjudged, ⟨c, c', hc, hrun⟩, fun hg c₁ hc₁ => ?_⟩
  exact (censusToken_steady h hg ht deep).unique hc hrun hc₁

/-- The verdicts whose witness is encoded again. -/
def CensusRow.reverifies (row : CensusRow) : Bool := row.result.verdict = .self || row.result.verdict = .context

/-- A census of these ids: a row for each in use, with its verdict, the number of witnesses that were encoded again and,
where all that is asked is granted, none that failed. -/
structure Census.Sound (v : BpVocab) (g : Prop) (deep : Bool) (ts : List Nat) (found : Census) : Prop where
  rows : RowsOf v ts found.rows
  verdicts : ∀ row ∈ found.rows, IsVerdict v g deep row.id row.result
  reverified : found.reverified = found.rows.countP CensusRow.reverifies
  failed : g → found.failed = 0

end Rows

section Run

variable {host : Host} {map : List UInt8} {v : BpVocab} {g : Prop}

/-- A witness that was found does not fail when it is encoded again. -/
theorem reverify_spec (h : Opens host map v) {c : BpCtx} (hc : Ready v g c) {t : Nat} {w : List UInt8}
    (hw : Found v t w) :
    ∃ bad c', reverify shipped c t w = .ok (bad, c') ∧ Ready v g c' ∧ (g → bad = false) := by
  obtain ⟨ids, hids, hroom, ht⟩ := hw.emitted
  have hrun := hc.encode h w (List.replicate (WMAX + 8) 0)
  rw [reverify]
  generalize bpEncode shipped c w (List.replicate (WMAX + 8) 0) 0 = x at hrun
  cases hrun with
  | refused hc' hno => exact ⟨true, _, rfl, hc', fun hg => absurd hg hno⟩
  | @done ids' c' hids' hc' =>
    rw [hids] at hids'
    cases hids'
    have hpos : 0 < ids.length := List.length_pos_of_mem ht
    rw [Run.ok_bind]
    dsimp only
    rw [if_pos hpos, containsId_filled t (by rw [List.length_replicate]; exact hroom), Run.ok_bind,
      List.contains_iff_mem.2 ht]
    exact ⟨false, c', rfl, hc', fun _ => rfl⟩

theorem censusRound_spec (h : Opens host map v) {deep : Bool} {ts : List Nat} {found : Census}
    (hfound : found.Sound v g deep ts) {c : BpCtx} (hc : Ready v g c) {t : Nat} (ht : v.HasId t) :
    ∃ found' c', censusRound shipped v deep (found, c) t = .ok (found', c') ∧ Ready v g c' ∧
      found'.Sound v g deep (ts ++ [t]) := by
  rw [censusRound]
  dsimp only
  rw [tokenSpan_eq h.valid ht, Run.ok_bind]
  split
  · next hempty =>
    have hnil := List.eq_nil_of_length_eq_zero hempty
    exact ⟨found, c, rfl, hc, hfound.rows.skip hnil, hfound.verdicts, hfound.reverified, hfound.failed⟩
  · next hused =>
    have hne : v.span t ≠ [] := fun hnil => hused (by rw [hnil]; rfl)
    obtain ⟨r, c₁, hr, hc₁, hverdict⟩ := censusToken_verdict h hc ht deep
    have hrows := hfound.rows.add hne r
    have hlast : ∀ row ∈ [(⟨t, v.span t, r⟩ : CensusRow)], IsVerdict v g deep row.id row.result :=
      List.forall_mem_singleton.2 hverdict
    have hverdicts := List.forall_mem_append.2 ⟨hfound.verdicts, hlast⟩
    rw [hr, Run.ok_bind]
    dsimp only
    split
    · next hagain =>
      have hw : Found v t r.witness := by
        cases hverdict.judged with
        | found _ _ hw _ => exact hw
        | _ => simp at hagain
      obtain ⟨bad, c₂, hbad, hc₂, hok⟩ := reverify_spec h hc₁ hw
      rw [hbad, Run.ok_bind]
      refine ⟨_, c₂, rfl, hc₂, hrows, hverdicts, ?_, fun hg => ?_⟩
      · dsimp only
        rw [List.countP_append, hfound.reverified, List.countP_singleton, CensusRow.reverifies, if_pos hagain]
      · dsimp only
        rw [hok hg, hfound.failed hg]
        rfl
    · next hagain =>
      refine ⟨_, c₁, rfl, hc₁, hrows, hverdicts, ?_, hfound.failed⟩
      dsimp only
      rw [List.countP_append, hfound.reverified, List.countP_singleton, CensusRow.reverifies, if_neg hagain]
      rfl

/-- The rounds over some ids, behind those that are done. -/
theorem censusRounds_spec (h : Opens host map v) {deep : Bool} {ts : List Nat} (hts : ∀ t ∈ ts, v.HasId t)
    {done : List Nat} {found : Census} (hfound : found.Sound v g deep done) {c : BpCtx} (hc : Ready v g c) :
    ∃ found' c', ts.foldlM (censusRound shipped v deep) (found, c) = .ok (found', c') ∧ Ready v g c' ∧
      found'.Sound v g deep (done ++ ts) := by
  induction ts generalizing done found c with
  | nil =>
    rw [List.append_nil]
    exact ⟨found, c, rfl, hc, hfound⟩
  | cons t ts ih =>
    obtain ⟨ht, hts⟩ := List.forall_mem_cons.1 hts
    obtain ⟨found', c', hround, hc', hfound'⟩ := censusRound_spec h hfound hc ht
    rw [List.foldlM_cons, hround, Run.ok_bind, List.append_cons]
    exact ih hts hfound' hc'

/-- **A run of the census** ends with a row for every id in use below the limit, in order, each with the verdict on it, and if
all that is asked is granted no witness fails. -/
theorem bpCensusRun_spec (h : Opens host map v) {c : BpCtx} (hc : Ready v g c) (deep : Bool) (limit : Nat) :
    ∃ found status c', bpCensusRun shipped v c deep limit = .ok ((found, status), c') ∧ Ready v g c' ∧
      found.Sound v g deep (List.range (censusCount v limit)) ∧ (g → status = 0) := by
  have hids : ∀ t ∈ List.range (censusCount v limit), v.HasId t := by
    intro t ht
    have hlt := List.mem_range.1 ht
    unfold censusCount at hlt
    unfold BpVocab.HasId
    simp only [Bool.and_eq_true, decide_eq_true_eq] at hlt
    split at hlt <;> omega
  have hempty : Census.Sound v g deep [] ⟨[], 0, 0⟩ := ⟨rowsOf_nil, List.forall_mem_nil _, rfl, fun _ => rfl⟩
  obtain ⟨found, c', hrun, hc', hfound⟩ := censusRounds_spec h hids hempty hc
  unfold censusCount at hrun
  unfold bpCensusRun
  dsimp only
  rw [hrun, Run.ok_bind]
  refine ⟨found, _, c', rfl, hc', hfound, fun hg => ?_⟩
  rw [hfound.failed hg]
  rfl

end Run

end Bytepair
