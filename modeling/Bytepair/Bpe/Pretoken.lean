import Bytepair.Bpe.Short
import Bytepair.Bpe.Long

/-!
# One pretoken

`bp_bpe_pretoken` over a cache. `BpCtx.Coherent` is what every call keeps: an occupied entry
holds what its own bytes come to. `bpBpePretoken_emits`: on such a context a pretoken comes to
`pretokenIds`, which is a function of its bytes alone.
-/

namespace Bytepair
open Support

section Sink

/-- A buffer that `xs` went into from its start, as far as there was room. -/
def filled {α : Type} (buf xs : List α) : List α := xs.take buf.length ++ buf.drop xs.length

attribute [grind =] filled

section Filled

variable {α : Type} {buf xs : List α}

theorem length_filled : (filled buf xs).length = buf.length := by
  unfold filled
  rw [List.length_append, List.length_take, List.length_drop]
  omega

theorem filled_nil (buf : List α) : filled buf [] = buf := by
  rw [filled, List.take_nil]
  rfl

/-- While there is room, the cells lead the buffer. -/
theorem filled_of_lt (h : xs.length < buf.length) : filled buf xs = xs ++ buf.drop xs.length := by
  rw [filled, List.take_of_length_le (Nat.le_of_lt h)]

/-- A buffer that is full takes no more. -/
theorem filled_of_full (h : buf.length ≤ xs.length) (more : List α) : filled buf (xs ++ more) = filled buf xs := by
  unfold filled
  rw [List.length_append, List.take_append_of_le_length h, List.drop_of_length_le h,
    List.drop_of_length_le (by omega)]

/-- What is copied to the end of the elements stands behind them. -/
theorem copyTo_append {gap ys : List α} (h : ys.length ≤ gap.length) :
    copyTo (xs ++ gap) xs.length ys = .ok (xs ++ ys ++ gap.drop ys.length) := by
  have hlen : xs.length + ys.length ≤ (xs ++ gap).length := by
    rw [List.length_append]
    omega
  rw [copyTo, if_pos hlen, List.take_left, List.drop_append, List.drop_of_length_le (Nat.le_add_right _ _),
    Nat.add_sub_cancel_left, List.nil_append]

/-- Of more elements those are copied for which there is room. -/
theorem copyTo_filled (h : xs.length < buf.length) (ys : List α) :
    copyTo (filled buf xs) xs.length (ys.take (buf.length - xs.length)) = .ok (filled buf (xs ++ ys)) := by
  have hfit : (ys.take (buf.length - xs.length)).length ≤ (buf.drop xs.length).length := by
    rw [List.length_take, List.length_drop]
    omega
  rw [filled_of_lt h, copyTo_append hfit, List.drop_drop, List.length_take]
  unfold filled
  rw [List.length_append, List.take_append, List.take_of_length_le (Nat.le_of_lt h)]
  rcases Nat.le_total ys.length (buf.length - xs.length) with hle | hle
  · rw [Nat.min_eq_right hle]
  · rw [Nat.min_eq_left hle, List.drop_of_length_le (by omega), List.drop_of_length_le (by omega)]

theorem store_filled (h : xs.length < buf.length) (y : α) :
    store (filled buf xs) xs.length y = .ok (filled buf (xs ++ [y])) := by
  have hfit : (xs ++ [y]).length ≤ buf.length := by
    rw [List.length_append]
    exact h
  rw [store_lt (by rw [length_filled]; exact h), filled_of_lt h, filled, List.take_of_length_le hfit,
    List.set_append_right _ _ (Nat.le_refl _), Nat.sub_self, List.drop_eq_getElem_cons h, List.set_cons_zero,
    List.append_assoc, List.length_append]
  rfl

end Filled

/-- The sink of a buffer that `ids` went into. -/
def BpSink.holding (buf ids : List Nat) : BpSink := ⟨filled buf ids, ids.length⟩

/-- A sink that holds some ids holds more behind them. -/
theorem bpSinkPut_holding (buf es ids : List Nat) :
    bpSinkPut (BpSink.holding buf es) ids = .ok (BpSink.holding buf (es ++ ids)) := by
  unfold bpSinkPut BpSink.holding
  dsimp only
  rw [length_filled, List.length_append]
  by_cases hroom : es.length < buf.length
  · rw [if_pos hroom, copyTo_filled hroom]
    rfl
  · rw [if_neg hroom, filled_of_full (Nat.le_of_not_lt hroom)]

theorem bpSinkPut1_holding (buf es : List Nat) (id : Nat) :
    bpSinkPut1 (BpSink.holding buf es) id = .ok (BpSink.holding buf (es ++ [id])) := by
  unfold bpSinkPut1 BpSink.holding
  dsimp only
  rw [length_filled, List.length_append]
  by_cases hroom : es.length < buf.length
  · rw [if_pos hroom, store_filled hroom]
    rfl
  · rw [if_neg hroom, filled_of_full (Nat.le_of_not_lt hroom)]
    rfl

end Sink

/-- The ids of the long path; none where the run has no result. -/
def longIds (v : BpVocab) (p : List UInt8) : Option (List Nat) :=
  match longRun v p with
  | .ok (.ok ids) => some ids
  | _ => none

/-- The ids of a pretoken, by its length. -/
def pretokenIds (v : BpVocab) (p : List UInt8) : Option (List Nat) :=
  if p.length ≤ 2 then some (greedy v.rule (p.map v.byteToken))
  else if SHORT_MAX < p.length then longIds v p
  else some (greedy (shortRule v) (p.map v.byteToken))

attribute [grind =] pretokenIds

/-- A pretoken of a middle length is merged by the rule of the short path. -/
theorem pretokenIds_short {v : BpVocab} {p : List UInt8} (hlow : 3 ≤ p.length) (hhigh : p.length ≤ SHORT_MAX) :
    pretokenIds v p = some (greedy (shortRule v) (p.map v.byteToken)) := by
  rw [pretokenIds, if_neg (Nat.not_le.2 hlow), if_neg (Nat.not_lt.2 hhigh)]

/-- A longer one is merged on the long path. -/
theorem pretokenIds_long {v : BpVocab} {p : List UInt8} (h : SHORT_MAX < p.length) :
    pretokenIds v p = longIds v p := by
  have hlow : ¬p.length ≤ 2 := by
    unfold SHORT_MAX at h
    omega
  rw [pretokenIds, if_neg hlow, if_pos h]

/-- A cache entry is empty or holds what its bytes come to. -/
structure EntOk (v : BpVocab) (ent : CacheEnt) : Prop where
  bytes : ent.bytes.length = CACHE_MAX_BYTES
  ids : ent.ids.length = CACHE_MAX_IDS
  coherent : ent.len ≠ 0 → pretokenIds v (ent.bytes.take ent.len) = some (ent.ids.take ent.nids)

/-- **The invariant of a context** on a handle. -/
structure BpCtx.Coherent (v : BpVocab) (c : BpCtx) : Prop where
  handle : c.v = v
  mask : ∀ cache, c.cache = some cache → ∃ lg, c.cacheMask = 2 ^ lg - 1 ∧ cache.length = 2 ^ lg
  entry : ∀ cache, c.cache = some cache → ∀ ent ∈ cache, EntOk v ent

/-- The scratch buffers are not part of the invariant. -/
theorem BpCtx.Coherent.scratch {v : BpVocab} {c : BpCtx} (h : c.Coherent v) (m : Scratch) :
    ({ c with scratch := m } : BpCtx).Coherent v := ⟨h.handle, h.mask, h.entry⟩

section Emits

/-- What a step of the encoder does on a coherent context and the sink of a buffer that `es` went into, when
what it works on comes to `ids`: it emits them, or an allocation is refused behind the first of them, or
`ids` is nothing and it does not succeed. -/
inductive Emits (v : BpVocab) (buf es : List Nat) (granted : Prop) :
    Option (List Nat) → Run (Except Err Unit × (BpCtx × BpSink)) → Prop
  | emitted (ids : List Nat) (c : BpCtx) (coherent : c.Coherent v) (grants : granted → c.scratch.Granted) :
    Emits v buf es granted (some ids) (.ok (.ok (), (c, BpSink.holding buf (es ++ ids))))
  | refused (ids : Option (List Nat)) (c : BpCtx) (more : List Nat) (coherent : c.Coherent v) (h : ¬granted)
      (first : ∀ xs, ids = some xs → more <+: xs) :
    Emits v buf es granted ids (.ok (.error .nomem, (c, BpSink.holding buf (es ++ more))))
  | failed (e : Err) (c : BpCtx) (s : BpSink) (coherent : c.Coherent v) :
    Emits v buf es granted none (.ok (.error e, (c, s)))
  | fault (f : Fault) : Emits v buf es granted none (.error f)

variable {v : BpVocab} {buf es : List Nat} {granted : Prop}

/-- One step after another. -/
theorem Emits.bind {a b : Option (List Nat)} {x : Run (Except Err Unit × (BpCtx × BpSink))}
    {k : Except Err Unit × (BpCtx × BpSink) → Run (Except Err Unit × (BpCtx × BpSink))}
    (hx : Emits v buf es granted a x) (herr : ∀ e cs, k (.error e, cs) = .ok (.error e, cs))
    (hk : ∀ ids c, a = some ids → c.Coherent v →
      Emits v buf (es ++ ids) c.scratch.Granted b (k (.ok (), (c, BpSink.holding buf (es ++ ids))))) :
    Emits v buf es granted (a.bind fun xs => b.map (xs ++ ·)) (x >>= k) := by
  cases hx with
  | emitted ids c coherent grants =>
    have h := hk ids c rfl coherent
    rw [Run.ok_bind, Option.bind_some]
    generalize hy : k (.ok (), (c, BpSink.holding buf (es ++ ids))) = y at h
    cases h with
    | emitted ids' c' coherent' grants' =>
      rw [List.append_assoc]
      exact .emitted _ c' coherent' fun hg => grants' (grants hg)
    | refused _ c' more coherent' hno first =>
      rw [List.append_assoc]
      apply Emits.refused _ c' _ coherent' fun hg => hno (grants hg)
      intro xs hxs
      obtain ⟨ys, hys, rfl⟩ := Option.map_eq_some_iff.1 hxs
      exact (List.prefix_append_right_inj ids).2 (first ys hys)
    | failed e c' s coherent' => exact .failed e c' s coherent'
    | fault f => exact .fault f
  | refused _ c more coherent hno first =>
    rw [Run.ok_bind, herr]
    apply Emits.refused _ c more coherent hno
    intro xs hxs
    obtain ⟨as, has, hxs⟩ := Option.bind_eq_some_iff.1 hxs
    obtain ⟨bs, -, rfl⟩ := Option.map_eq_some_iff.1 hxs
    exact (first as has).trans (List.prefix_append as bs)
  | failed e c s coherent =>
    rw [Run.ok_bind, herr]
    exact .failed e c s coherent
  | fault f => exact .fault f

/-- A step that is refused before it emits anything. -/
theorem Emits.refuse {c : BpCtx} (hc : c.Coherent v) (hno : ¬granted) (ids : Option (List Nat)) :
    Emits v buf es granted ids (.ok (.error .nomem, (c, BpSink.holding buf es))) := by
  have h := @Emits.refused v buf es granted ids c [] hc hno fun xs _ => List.nil_prefix
  rwa [List.append_nil] at h

end Emits

section MergeLong

variable {v : BpVocab}

theorem inside_of_le {cap need : Nat} (h : need ≤ cap) : inside cap need = .ok () := if_neg (Nat.not_lt.2 h)

/-- The long path emits its ids, or an allocation was refused. -/
theorem mergeLong_emits {c : BpCtx} (hc : c.Coherent v) (p : List UInt8) (buf es : List Nat) :
    Emits v buf es c.scratch.Granted (longIds v p) (mergeLong c p (BpSink.holding buf es)) := by
  obtain rfl := hc.handle
  obtain ⟨work, m, hwork, hroom, hgranted, -, -, -⟩ := reserve_eq_ok (show 0 < 4096 by decide) c.scratch
    c.scratch.work (p.length * SIZEOF_NODE + 2 * p.length * SIZEOF_HEAP_ENT)
  unfold mergeLong bpBufReserve
  dsimp only
  rw [hwork, Run.ok_bind]
  cases work with
  | none => exact Emits.refuse (hc.scratch m) (fun hg => by simpa using (hgranted hg).1) _
  | some cap =>
    dsimp only
    rw [inside_of_le (hroom cap rfl), Run.ok_bind]
    unfold longIds longRun
    generalize mergeLongIn c.v p = r
    cases r with
    | error f => exact .fault f
    | ok r =>
      cases r with
      | error e => exact .failed e _ _ (hc.scratch _)
      | ok nd =>
        obtain ⟨ids, m', hids, hroom', hgranted', -, -, -⟩ := reserve_eq_ok (show 0 < 1024 by decide)
          { m with work := cap } m.ids p.length
        rw [Run.ok_bind, Run.ok_bind]
        dsimp only
        rw [bpIdsReserve, hids, Run.ok_bind]
        cases ids with
        | none =>
          apply Emits.refuse (hc.scratch m')
          intro hg
          have := (hgranted' (hgranted hg).2).1
          simp at this
        | some cap' =>
          dsimp only
          rw [inside_of_le (hroom' cap' rfl), Run.ok_bind]
          generalize loop (walkIds nd p.length) (p.length + 1) (0, []) = w
          cases w with
          | error f => exact .fault f
          | ok ids =>
            simp only [Run.ok_bind, bpSinkPut_holding]
            exact .emitted ids _ (hc.scratch _) fun hg => (hgranted' (hgranted hg).2).2

end MergeLong

section Cache

variable {v : BpVocab}

theorem BpCtx.Coherent.slot_lt {c : BpCtx} (hc : c.Coherent v) {cache : List CacheEnt} (h : c.cache = some cache)
    (x : Nat) : x &&& c.cacheMask < cache.length := by
  obtain ⟨lg, hmask, hlen⟩ := hc.mask cache h
  rw [hmask, hlen, Nat.and_two_pow_sub_one_eq_mod]
  exact Nat.mod_lt _ (Nat.two_pow_pos lg)

/-- An entry the pretoken may be in. -/
def EntryOf (c : BpCtx) (p : List UInt8) (ent : CacheEnt) : Prop :=
  p.length ≤ CACHE_MAX_BYTES ∧ ∃ cache, c.cache = some cache ∧ ent ∈ cache

/-- The entry that is looked up is one that the pretoken may be in. -/
theorem entryOf_spec {c : BpCtx} (hc : c.Coherent v) (p : List UInt8) :
    ∃ entry, entryOf c p = .ok entry ∧ ∀ h ent, entry = some (h, ent) → EntryOf c p ent := by
  unfold entryOf
  cases hcache : c.cache with
  | none => exact ⟨none, rfl, fun h ent heq => by cases heq⟩
  | some cache =>
    dsimp only
    split
    · next hlen =>
      have hlt := hc.slot_lt hcache (bpHashBytes p)
      rw [index_lt hlt]
      refine ⟨_, rfl, fun h ent heq => ?_⟩
      cases heq
      exact ⟨hlen, cache, hcache, List.getElem_mem hlt⟩
    · exact ⟨none, rfl, fun h ent heq => by cases heq⟩

/-- A hit is what the pretoken comes to. -/
theorem entHit_ids {ent : CacheEnt} (h : EntOk v ent) {hash : Nat} {p : List UInt8} (hlow : 3 ≤ p.length)
    (hit : entHit ent hash p = true) : pretokenIds v p = some (ent.ids.take ent.nids) := by
  simp only [entHit, Bool.and_eq_true, decide_eq_true_eq] at hit
  obtain ⟨⟨hlen, -⟩, hbytes⟩ := hit
  have hcoherent := h.coherent (by omega)
  rwa [hlen, hbytes] at hcoherent

theorem copyTo_zero {α : Type} {out xs : List α} (h : xs.length ≤ out.length) :
    copyTo out 0 xs = .ok (xs ++ out.drop xs.length) := by
  rw [copyTo, if_pos (by omega), List.take_zero, List.nil_append, Nat.zero_add]

/-- An entry is filled with the ids of its pretoken, and the cache stays in order. -/
theorem fillEntry_spec {c : BpCtx} (hc : c.Coherent v) {h : Nat} {ent : CacheEnt} {p : List UInt8} {ids : List Nat}
    (hent : EntryOf c p ent) (hids : ids.length ≤ CACHE_MAX_IDS) (hp : pretokenIds v p = some ids) :
    ∃ c', fillEntry c h ent p ids = .ok c' ∧ c'.Coherent v ∧ c'.scratch = c.scratch := by
  obtain ⟨hlen, cache, hcache, hmem⟩ := hent
  have hok := hc.entry cache hcache ent hmem
  have hbytes : p.length ≤ ent.bytes.length := by rw [hok.bytes]; exact hlen
  have hroom : ids.length ≤ ent.ids.length := by rw [hok.ids]; exact hids
  unfold CACHE_MAX_BYTES at hlen
  unfold CACHE_MAX_IDS at hids
  unfold fillEntry
  rw [copyTo_zero hbytes, Run.ok_bind, copyTo_zero hroom, Run.ok_bind, hcache]
  dsimp only
  rw [store_lt (hc.slot_lt hcache h)]
  refine ⟨_, rfl, ⟨hc.handle, ?_, ?_⟩, rfl⟩
  · intro cache' heq
    cases heq
    obtain ⟨lg, hmask, hsize⟩ := hc.mask cache hcache
    exact ⟨lg, hmask, by rw [List.length_set, hsize]⟩
  · intro cache' heq ent' hmem'
    cases heq
    rcases List.mem_or_eq_of_mem_set hmem' with hold | rfl
    · exact hc.entry cache hcache ent' hold
    · constructor
      · rw [List.length_append, List.length_drop, ← hok.bytes]
        omega
      · rw [List.length_append, List.length_drop, ← hok.ids]
        omega
      · intro _
        dsimp only
        rw [Nat.mod_eq_of_lt (show p.length < 2 ^ 8 by omega), Nat.mod_eq_of_lt (show ids.length < 2 ^ 8 by omega),
          List.take_left, List.take_left]
        exact hp

/-- The cache stays in order, whether the ids are kept or not. -/
theorem keepIds_spec {c : BpCtx} (hc : c.Coherent v) {entry : Option (Nat × CacheEnt)} {p : List UInt8}
    {ids : List Nat} (hent : ∀ h ent, entry = some (h, ent) → EntryOf c p ent) (hp : pretokenIds v p = some ids) :
    ∃ c', keepIds c entry p ids = .ok c' ∧ c'.Coherent v ∧ c'.scratch = c.scratch := by
  unfold keepIds
  cases entry with
  | none => exact ⟨c, rfl, hc, rfl⟩
  | some e =>
    obtain ⟨h, ent⟩ := e
    dsimp only
    split
    · next hids => exact fillEntry_spec hc (hent h ent rfl) hids hp
    · exact ⟨c, rfl, hc, rfl⟩

end Cache

section Pretoken

variable {v : BpVocab}

/-- The byte table has an id for every byte of a pretoken. -/
theorem byteTokens_eq (hv : v.Valid) (p : List UInt8) :
    (p.mapM fun b => index v.byteId b.toNat) = .ok (p.map v.byteToken) :=
  mapM_ok fun b _ => by
    have := b.toNat_lt
    rw [index_getD 0 (by rw [hv.bytes]; omega)]
    rfl

/-- What the cache does not have is merged, emitted and kept. -/
theorem mergePretoken_emits (hv : v.Valid) {c : BpCtx} (hc : c.Coherent v) {p : List UInt8} (hlow : 3 ≤ p.length)
    {entry : Option (Nat × CacheEnt)} (hent : ∀ h ent, entry = some (h, ent) → EntryOf c p ent) (buf es : List Nat) :
    Emits v buf es c.scratch.Granted (pretokenIds v p) (mergePretoken c p (BpSink.holding buf es) entry) := by
  unfold mergePretoken
  by_cases hlong : SHORT_MAX < p.length
  · rw [if_pos hlong, pretokenIds_long hlong]
    exact mergeLong_emits hc p buf es
  · have hids := pretokenIds_short (v := v) hlow (Nat.not_lt.1 hlong)
    obtain rfl := hc.handle
    rw [if_neg hlong, byteTokens_eq hv, Run.ok_bind, mergeShort_eq hv, Run.ok_bind, hids]
    obtain ⟨c', hkeep, hc', hscratch⟩ := keepIds_spec hc hent hids
    rw [hkeep, Run.ok_bind, bpSinkPut_holding, Run.ok_bind]
    exact .emitted _ c' hc' fun hg => by rwa [hscratch]

/-- What `bp_bpe_pretoken` does with a pretoken that may be cached. -/
theorem bpBpePretoken_cached (c : BpCtx) (s : BpSink) {p : List UInt8} (hlow : 3 ≤ p.length) :
    bpBpePretoken (c, s) p = (do
      let entry ← entryOf c p
      match entry.filter fun e => entHit e.2 e.1 p with
      | some (_, ent) => pure (.ok (), (c, ← bpSinkPut s (ent.ids.take ent.nids)))
      | none => mergePretoken c p s entry) := by
  match p with
  | b0 :: b1 :: b2 :: p => rfl

/-- **A pretoken comes to its ids**, on every coherent context. -/
theorem bpBpePretoken_emits (hv : v.Valid) {c : BpCtx} (hc : c.Coherent v) (p : List UInt8) (buf es : List Nat) :
    Emits v buf es c.scratch.Granted (pretokenIds v p) (bpBpePretoken (c, BpSink.holding buf es) p) := by
  have hbyte : ∀ b : UInt8, index c.v.byteId b.toNat = .ok (v.byteToken b) := by
    intro b
    have := b.toNat_lt
    rw [hc.handle, index_getD 0 (by rw [hv.bytes]; omega)]
    rfl
  match p with
  | [] =>
    have h : Emits v buf es c.scratch.Granted (some []) (.ok (.ok (), (c, BpSink.holding buf (es ++ [])))) :=
      .emitted [] c hc id
    rwa [List.append_nil] at h
  | [b] =>
    rw [bpBpePretoken, hbyte, Run.ok_bind, bpSinkPut1_holding]
    exact .emitted [v.byteToken b] c hc id
  | [b0, b1] =>
    rw [bpBpePretoken, hbyte, Run.ok_bind, hbyte, Run.ok_bind, hc.handle, bpPairLookup_eq hv, Run.ok_bind]
    by_cases hempty : v.lookup (v.byteToken b0) (v.byteToken b1) = BPV_PAIR_EMPTY
    · have hnone := lookup_eq_empty_iff.1 hempty
      have hids : pretokenIds v [b0, b1] = some [v.byteToken b0, v.byteToken b1] := by
        simp [pretokenIds, greedy, greedyN, best, hnone]
      rw [if_neg (not_not.2 hempty), bpSinkPut1_holding, Run.ok_bind, bpSinkPut1_holding, List.append_assoc, hids]
      exact .emitted _ c hc id
    · have hrule := rule_of_lookup hempty
      have hids : pretokenIds v [b0, b1] = some [v.lookup (v.byteToken b0) (v.byteToken b1) % 2 ^ 32] := by
        simp [pretokenIds, greedy, greedyN, best, hrule, mergeAt]
      rw [if_pos hempty, bpSinkPut1_holding, hids]
      exact .emitted _ c hc id
  | b0 :: b1 :: b2 :: p =>
    have hlow : 3 ≤ (b0 :: b1 :: b2 :: p).length := by simp
    generalize hp : b0 :: b1 :: b2 :: p = q at hlow ⊢
    obtain ⟨entry, hentry, hent⟩ := entryOf_spec hc q
    rw [bpBpePretoken_cached c _ hlow, hentry, Run.ok_bind]
    cases hfilter : entry.filter fun e => entHit e.2 e.1 q with
    | none => exact mergePretoken_emits hv hc hlow hent buf es
    | some e =>
      obtain ⟨hsome, hit⟩ := Option.filter_eq_some_iff.1 hfilter
      obtain ⟨-, cache, hcache, hmem⟩ := hent e.1 e.2 hsome
      dsimp only
      rw [bpSinkPut_holding, Run.ok_bind, entHit_ids (hc.entry cache hcache e.2 hmem) hlow hit]
      exact .emitted _ c hc id

end Pretoken

end Bytepair
