import Bytepair.Tables.Generate
import Bytepair.Tables.Layout

/-!
# The generator: tables

How `tools/gen_tables.py` lays out its data as the arrays of `bp_uctables.c`. A C array holds numbers of its width.
`tables_read_back`: the lookups of the C code return what was laid out, and the default for everything else.
-/

namespace Bytepair.GenTables
open Support

def BLOCK : Nat := 256
def MAX_CP : Nat := 0x110000

section Layout

/-- The loop of `build_two_level`: the index, the different blocks, and the slot of each. -/
structure Levels where
  index : List Nat
  blocks : List (List UInt8)
  seen : List (List UInt8 × Nat)

def levelRound (s : Levels) (chunk : List UInt8) : Levels :=
  match s.seen.lookup chunk with
  | some slot => { s with index := s.index ++ [slot] }
  | none =>
    let slot := s.blocks.length
    ⟨s.index ++ [slot], s.blocks ++ [chunk], s.seen ++ [(chunk, slot)]⟩

/-- The chunks of 256 entries. -/
def chunks (data : List UInt8) : List (List UInt8) :=
  (List.range ((data.length + BLOCK - 1) / BLOCK)).map fun i => (data.drop (BLOCK * i)).take BLOCK

/-- `build_two_level`. -/
def buildTwoLevel (data : List UInt8) : Except Failure (List Nat × List UInt8) :=
  let s := (chunks data).foldl levelRound ⟨[], [], []⟩
  if 0xFFFF < s.blocks.length then .error (.systemExit "block index does not fit in uint16" [])
  else .ok (s.index, s.blocks.flatten)

/-- `ccc_bytes[cp] = value`. -/
def cccRound (bytes : List UInt8) (item : Nat × Nat) : Except Failure (List UInt8) :=
  if item.1 < bytes.length ∧ item.2 < 256 then .ok (bytes.set item.1 (UInt8.ofNat item.2)) else .error .valueError

/-- The combining classes as a byte for every code point. -/
def cccBytes (ccc : List (Nat × Nat)) : Except Failure (List UInt8) := ccc.foldlM cccRound (List.replicate MAX_CP 0)

/-- The pool of decompositions, and where each is in it. -/
structure Pool where
  pool : List Nat
  offsets : List Nat
  lengths : List Nat

def poolRound (decomp : List (Nat × List Nat)) (s : Pool) (cp : Nat) : Pool :=
  let parts := (decomp.lookup cp).getD []
  ⟨s.pool ++ parts, s.offsets ++ [s.pool.length], s.lengths ++ [parts.length]⟩

/-- `(a << 32) | b`. -/
def pairKey (p : Nat × Nat) : Nat := p.1 <<< 32 ||| p.2

/-- `pairs[(k >> 32, k & 0xFFFFFFFF)]`. -/
def pairVal (pairs : Pairs) (k : Nat) : Except Failure Nat :=
  match pairs.lookup (k >>> 32, k &&& 0xFFFFFFFF) with
  | some c => .ok c
  | none => .error .keyError

/-- An array of C whose entries have `w` bits. -/
def cArray (w : Nat) (values : List Nat) (i : Nat) : Nat := values[i]?.getD 0 % 2 ^ w

/-- An `NFC_QC` range. -/
structure QcRange where
  lo : Nat
  hi : Nat
  value : Nat

/-- The arrays of the file that is written. -/
def layOut (cc ccc : List Nat × List UInt8) (qc : List QcRange) (decompCps : List Nat) (p : Pool)
    (pairKeys pairVals : List Nat) : Tables where
  ccIndex := cArray 16 cc.1
  ccBlocks := cArray 8 (cc.2.map UInt8.toNat)
  cccIndex := cArray 16 ccc.1
  cccBlocks := cArray 8 (ccc.2.map UInt8.toNat)
  qcCount := qc.length
  qcLo := cArray 32 (qc.map QcRange.lo)
  qcHi := cArray 32 (qc.map QcRange.hi)
  qcVal := cArray 8 (qc.map QcRange.value)
  decompCount := decompCps.length
  decompCp := cArray 32 decompCps
  decompOff := cArray 32 p.offsets
  decompLen := cArray 8 p.lengths
  decompPool := cArray 32 p.pool
  composeCount := pairKeys.length
  composeKey := cArray 64 pairKeys
  composeVal := cArray 32 pairVals

/-- `emit_source`. -/
def emitSource (cc ccc : List Nat × List UInt8) (qc : List QcRange) (decomp : List (Nat × List Nat)) (pairs : Pairs) :
    Except Failure Tables := do
  let decompCps := (decomp.map Prod.fst).mergeSort
  let p := decompCps.foldl (poolRound decomp) ⟨[], [], []⟩
  let pairKeys := (pairs.map fun item => pairKey item.1).mergeSort
  let pairVals ← pairKeys.mapM (pairVal pairs)
  pure (layOut cc ccc qc decompCps p pairKeys pairVals)

/-- What is laid out: a class of each code point, the combining classes that are not 0, quick-check ranges in order,
full decompositions and pairs. -/
structure Parse where
  classes : List UInt8
  ccc : List (Nat × Nat)
  qc : List QcRange
  decomp : List (Nat × List Nat)
  pairs : Pairs
  classes_length : classes.length = MAX_CP
  ccc_keys : (ccc.map Prod.fst).Nodup
  ccc_fits : ∀ item ∈ ccc, item.1 < MAX_CP ∧ item.2 < 256
  qc_sorted : qc.Pairwise fun r r' => r.hi < r'.lo
  qc_fits : ∀ r ∈ qc, r.lo ≤ r.hi ∧ r.hi < MAX_CP ∧ r.value < 256
  decomp_keys : (decomp.map Prod.fst).Nodup
  decomp_fits : ∀ item ∈ decomp, item.1 < MAX_CP ∧ item.2.length ≤ MAX_DECOMP ∧ ∀ x ∈ item.2, x < MAX_CP
  pairs_keys : (pairs.map Prod.fst).Nodup
  pairs_fit : ∀ item ∈ pairs, item.1.1 < MAX_CP ∧ item.1.2 < MAX_CP ∧ item.2 < MAX_CP

/-- The tables of it: the last steps of `main`, which comes to them only where few classes differ from those by category. -/
def emitTables (p : Parse) : Except Failure Tables := do
  let cc ← buildTwoLevel p.classes
  let bytes ← cccBytes p.ccc
  let ccc ← buildTwoLevel bytes
  emitSource cc ccc p.qc p.decomp p.pairs

end Layout

section Arrays

theorem cArray_eq {w : Nat} {values : List Nat} {i x : Nat} (h : values[i]? = some x) (hx : x < 2 ^ w) :
    cArray w values i = x := by
  rw [cArray, h, Option.getD_some, Nat.mod_eq_of_lt hx]

/-- Entry `j` of block `i`. -/
theorem getElem?_flatten_blocks {α : Type} {blocks : List (List α)} {n i j : Nat} {b : List α}
    (hlen : ∀ b ∈ blocks, b.length = n) (hb : blocks[i]? = some b) (hj : j < n) :
    blocks.flatten[n * i + j]? = b[j]? := by
  induction blocks generalizing i with
  | nil => cases hb
  | cons b' blocks ih =>
    obtain ⟨hb', hrest⟩ := List.forall_mem_cons.1 hlen
    rw [List.flatten_cons]
    cases i with
    | zero =>
      obtain rfl := Option.some.inj hb
      rw [Nat.mul_zero, Nat.zero_add, List.getElem?_append_left (by omega)]
    | succ i =>
      rw [List.getElem?_append_right (by rw [hb', Nat.mul_succ]; omega), hb', Nat.mul_succ,
        show n * i + n + j - n = n * i + j by omega]
      exact ih hrest hb

end Arrays

section Levels

/-- The blocks cover the chunks that were read. -/
structure LevelsOk (done : List (List UInt8)) (s : Levels) : Prop where
  seen : ∀ (chunk : List UInt8) (slot : Nat), s.seen.lookup chunk = some slot → s.blocks[slot]? = some chunk
  count : s.index.length = done.length
  index : ∀ (i : Nat) (chunk : List UInt8), done[i]? = some chunk → ∃ slot : Nat, s.index[i]? = some slot ∧ s.blocks[slot]? = some chunk
  blocks : ∀ b ∈ s.blocks, b ∈ done
  few : s.blocks.length ≤ done.length

theorem LevelsOk.round {done : List (List UInt8)} {s : Levels} (h : LevelsOk done s) (chunk : List UInt8) :
    LevelsOk (done ++ [chunk]) (levelRound s chunk) := by
  have hlast : ∀ {i : Nat} {c : List UInt8}, (done ++ [chunk])[i]? = some c →
      done[i]? = some c ∨ i = done.length ∧ c = chunk := by
    intro i c hc
    rw [List.getElem?_append] at hc
    split at hc
    · exact .inl hc
    · obtain ⟨hlt, rfl⟩ := List.getElem?_eq_some_iff.1 hc
      rw [List.length_singleton] at hlt
      exact .inr ⟨by omega, List.getElem_singleton ..⟩
  unfold levelRound
  split
  · next slot hslot =>
    constructor
    · exact h.seen
    · rw [List.length_append, List.length_append, h.count]
      rfl
    · intro i c hc
      rcases hlast hc with hc | ⟨rfl, rfl⟩
      · obtain ⟨slot', hi, hb⟩ := h.index i c hc
        refine ⟨slot', ?_, hb⟩
        dsimp only
        rwa [List.getElem?_append_left (List.getElem?_eq_some_iff.1 hi).1]
      · refine ⟨slot, ?_, h.seen _ _ hslot⟩
        dsimp only
        rw [← h.count, List.getElem?_concat_length]
    · exact fun b hb => List.mem_append_left _ (h.blocks b hb)
    · rw [List.length_append]
      exact Nat.le_add_right_of_le h.few
  · next hnone =>
    have hnew : (s.blocks ++ [chunk])[s.blocks.length]? = some chunk := List.getElem?_concat_length
    have hold : ∀ {slot : Nat} {c : List UInt8}, s.blocks[slot]? = some c → (s.blocks ++ [chunk])[slot]? = some c := by
      intro slot c hc
      rwa [List.getElem?_append_left (List.getElem?_eq_some_iff.1 hc).1]
    constructor
    · intro c slot hc
      dsimp only at hc ⊢
      rw [List.lookup_append] at hc
      rcases Option.or_eq_some_iff.1 hc with hc | ⟨-, hc⟩
      · exact hold (h.seen c slot hc)
      · obtain ⟨rfl, rfl⟩ : c = chunk ∧ slot = s.blocks.length := by
          rw [List.lookup_cons] at hc
          split at hc
          · next heq => exact ⟨eq_of_beq heq, (Option.some.inj hc).symm⟩
          · cases hc
        exact hnew
    · rw [List.length_append, List.length_append, h.count]
      rfl
    · intro i c hc
      rcases hlast hc with hc | ⟨rfl, rfl⟩
      · obtain ⟨slot', hi, hb⟩ := h.index i c hc
        refine ⟨slot', ?_, hold hb⟩
        dsimp only
        rwa [List.getElem?_append_left (List.getElem?_eq_some_iff.1 hi).1]
      · refine ⟨s.blocks.length, ?_, hnew⟩
        dsimp only
        rw [← h.count, List.getElem?_concat_length]
    · intro b hb
      rcases List.mem_append.1 hb with hb | hb
      · exact List.mem_append_left _ (h.blocks b hb)
      · exact List.mem_append_right _ hb
    · rw [List.length_append, List.length_append]
      exact Nat.add_le_add_right h.few 1

theorem LevelsOk.fold {chunks done : List (List UInt8)} {s : Levels} (h : LevelsOk done s) :
    LevelsOk (done ++ chunks) (chunks.foldl levelRound s) := by
  induction chunks generalizing done s with
  | nil => rwa [List.append_nil]
  | cons chunk chunks ih =>
    rw [List.foldl_cons, List.append_cons]
    exact ih (h.round chunk)

theorem length_chunks {data : List UInt8} (h : data.length = MAX_CP) : (chunks data).length = 4352 := by
  rw [chunks, List.length_map, List.length_range, h]
  rfl

theorem getElem?_chunks {data : List UInt8} (h : data.length = MAX_CP) {i : Nat} (hi : i < 4352) :
    (chunks data)[i]? = some ((data.drop (BLOCK * i)).take BLOCK) := by
  have hcount : (data.length + BLOCK - 1) / BLOCK = 4352 := by
    rw [h]
    rfl
  rw [chunks, hcount, List.getElem?_map, List.getElem?_range hi]
  rfl

/-- The address of a code point in the blocks. -/
theorem block_address (slot cp : Nat) : slot <<< 8 ||| cp &&& 0xFF = BLOCK * slot + cp % BLOCK := by
  have hmod : cp &&& 0xFF = cp % BLOCK := Nat.and_two_pow_sub_one_eq_mod cp 8
  have hlt : cp % BLOCK < 2 ^ 8 := Nat.mod_lt _ (by decide)
  rw [hmod, ← Nat.shiftLeft_add_eq_or_of_lt hlt, Nat.shiftLeft_eq, Nat.mul_comm]
  rfl

/-- **Two levels**: data for every code point is laid out, and what is read back is the data. -/
theorem buildTwoLevel_spec {data : List UInt8} (h : data.length = MAX_CP) :
    ∃ index blocks, buildTwoLevel data = .ok (index, blocks) ∧ ∀ cp (hcp : cp < data.length),
      cArray 8 (blocks.map UInt8.toNat) (cArray 16 index (cp >>> 8) <<< 8 ||| cp &&& 0xFF) = data[cp].toNat := by
  have hempty : LevelsOk [] ⟨[], [], []⟩ := by
    constructor
    · intro chunk slot hslot
      cases hslot
    · rfl
    · intro i chunk hi
      cases hi
    · exact fun b hb => absurd hb List.not_mem_nil
    · exact Nat.le_refl 0
  have hok := @LevelsOk.fold (chunks data) _ _ hempty
  rw [List.nil_append] at hok
  have hlen := length_chunks h
  have hfew := hok.few
  unfold buildTwoLevel
  generalize (chunks data).foldl levelRound ⟨[], [], []⟩ = s at hok hfew
  dsimp only
  rw [if_neg (by omega)]
  refine ⟨s.index, s.blocks.flatten, rfl, fun cp hcp => ?_⟩
  have hdiv : cp >>> 8 = cp / 256 := Nat.shiftRight_eq_div_pow cp 8
  have hchunk : cp >>> 8 < 4352 := by
    rw [h] at hcp
    unfold MAX_CP at hcp
    omega
  obtain ⟨slot, hindex, hblock⟩ := hok.index _ _ (getElem?_chunks h hchunk)
  have hslot : slot < 2 ^ 16 := by
    have := (List.getElem?_eq_some_iff.1 hblock).1
    omega
  have hfull : ∀ b ∈ s.blocks, b.length = BLOCK := by
    intro b hb
    obtain ⟨i, hi⟩ := List.mem_iff_getElem?.1 (hok.blocks b hb)
    have hi' := (List.getElem?_eq_some_iff.1 hi).1
    rw [hlen] at hi'
    rw [getElem?_chunks h hi'] at hi
    rw [← Option.some.inj hi, List.length_take, List.length_drop, h]
    unfold BLOCK MAX_CP
    omega
  have hmod : cp % BLOCK < BLOCK := Nat.mod_lt _ (by decide)
  have hread : s.blocks.flatten[BLOCK * slot + cp % BLOCK]? = some data[cp] := by
    rw [getElem?_flatten_blocks hfull hblock hmod, List.getElem?_take_of_lt hmod, List.getElem?_drop, hdiv,
      show BLOCK * (cp / 256) + cp % BLOCK = cp from Nat.div_add_mod cp 256, List.getElem?_eq_getElem hcp]
  rw [cArray_eq hindex hslot, block_address]
  apply cArray_eq
  · rw [List.getElem?_map, hread]
    rfl
  · exact UInt8.toNat_lt _

end Levels

section Classes

theorem foldlM_ccc {items : List (Nat × Nat)} {bytes : List UInt8} (hkeys : (items.map Prod.fst).Nodup)
    (hfits : ∀ item ∈ items, item.1 < bytes.length ∧ item.2 < 256) :
    ∃ bytes', items.foldlM cccRound bytes = .ok bytes' ∧ bytes'.length = bytes.length ∧
      ∀ cp < bytes.length, bytes'[cp]? = (items.lookup cp).elim bytes[cp]? fun value => some (UInt8.ofNat value) := by
  induction items generalizing bytes with
  | nil => exact ⟨bytes, rfl, rfl, fun cp _ => rfl⟩
  | cons item items ih =>
    obtain ⟨k, value⟩ := item
    obtain ⟨hfit, hrest⟩ := List.forall_mem_cons.1 hfits
    rw [List.map_cons, List.nodup_cons] at hkeys
    obtain ⟨hnew, hkeys⟩ := hkeys
    have hset : (bytes.set k (UInt8.ofNat value)).length = bytes.length := List.length_set
    obtain ⟨bytes', hrun, hlen, hread⟩ := ih hkeys (hset ▸ hrest)
    simp only [hset] at hlen hread
    refine ⟨bytes', ?_, hlen, fun cp hcp => ?_⟩
    · rw [List.foldlM_cons, cccRound, if_pos hfit]
      exact hrun
    · rw [hread cp hcp, List.lookup_cons]
      rcases eq_or_ne cp k with rfl | hne
      · have hnone : items.lookup cp = none := lookup_eq_none.2 hnew
        rw [hnone, beq_self_eq_true]
        exact List.getElem?_set_self hcp
      · rw [beq_false_of_ne hne]
        dsimp only
        rw [List.getElem?_set_ne hne.symm]

/-- The combining class of every code point. -/
theorem cccBytes_spec (p : Parse) : ∃ bytes, cccBytes p.ccc = .ok bytes ∧ bytes.length = MAX_CP ∧
    ∀ cp (hcp : cp < bytes.length), bytes[cp].toNat = (p.ccc.lookup cp).getD 0 := by
  have hlen : (List.replicate MAX_CP (0 : UInt8)).length = MAX_CP := List.length_replicate
  obtain ⟨bytes, hrun, hbytes, hread⟩ := foldlM_ccc p.ccc_keys (hlen.symm ▸ p.ccc_fits)
  rw [hlen] at hbytes hread
  refine ⟨bytes, hrun, hbytes, fun cp hcp => ?_⟩
  have hget := hread cp (by rwa [hbytes] at hcp)
  rw [List.getElem?_eq_getElem hcp] at hget
  cases hvalue : p.ccc.lookup cp with
  | none =>
    rw [hvalue, Option.elim_none, List.getElem?_replicate, if_pos (by rwa [hbytes] at hcp)] at hget
    rw [Option.some.inj hget]
    rfl
  | some value =>
    have hfit := (p.ccc_fits (cp, value) (mem_of_lookup hvalue)).2
    rw [hvalue, Option.elim_some] at hget
    rw [Option.some.inj hget, UInt8.toNat_ofNat_of_lt' hfit]
    rfl

end Classes

section Pools

/-- The decompositions that were read are in the pool. -/
structure PoolOk (decomp : List (Nat × List Nat)) (done : List Nat) (s : Pool) : Prop where
  offsets : s.offsets.length = done.length
  lengths : s.lengths.length = done.length
  size : s.pool.length ≤ MAX_DECOMP * done.length
  entry : ∀ (i cp : Nat), done[i]? = some cp → ∃ off : Nat, s.offsets[i]? = some off ∧
    s.lengths[i]? = some ((decomp.lookup cp).getD []).length ∧
    (s.pool.drop off).take ((decomp.lookup cp).getD []).length = (decomp.lookup cp).getD [] ∧
    off + ((decomp.lookup cp).getD []).length ≤ s.pool.length

theorem PoolOk.round {decomp : List (Nat × List Nat)} {done : List Nat} {s : Pool} (h : PoolOk decomp done s) {cp : Nat}
    (hlen : ((decomp.lookup cp).getD []).length ≤ MAX_DECOMP) : PoolOk decomp (done ++ [cp]) (poolRound decomp s cp) := by
  unfold poolRound
  constructor
  · rw [List.length_append, List.length_append, h.offsets]
    rfl
  · rw [List.length_append, List.length_append, h.lengths]
    rfl
  · have hsize := h.size
    rw [List.length_append, List.length_append, List.length_singleton, Nat.mul_succ]
    omega
  · intro i x hx
    dsimp only
    rw [List.getElem?_append] at hx
    split at hx
    · next hi =>
      obtain ⟨off, hoff, hl, htake, hin⟩ := h.entry i x hx
      refine ⟨off, ?_, ?_, ?_, ?_⟩
      · rwa [List.getElem?_append_left (by rw [h.offsets]; exact hi)]
      · rwa [List.getElem?_append_left (by rw [h.lengths]; exact hi)]
      · rw [List.drop_append_of_le_length (by omega), List.take_append_of_le_length, htake]
        rw [List.length_drop]
        omega
      · rw [List.length_append]
        omega
    · next hi =>
      obtain ⟨hlt, rfl⟩ := List.getElem?_eq_some_iff.1 hx
      rw [List.length_singleton] at hlt
      obtain rfl : i = done.length := by omega
      rw [List.getElem_singleton]
      refine ⟨s.pool.length, ?_, ?_, ?_, ?_⟩
      · rw [← h.offsets, List.getElem?_concat_length]
      · rw [← h.lengths, List.getElem?_concat_length]
      · rw [List.drop_left, List.take_length]
      · rw [List.length_append]

theorem PoolOk.fold {decomp : List (Nat × List Nat)} {cps done : List Nat} {s : Pool} (h : PoolOk decomp done s)
    (hlen : ∀ cp ∈ cps, ((decomp.lookup cp).getD []).length ≤ MAX_DECOMP) :
    PoolOk decomp (done ++ cps) (cps.foldl (poolRound decomp) s) := by
  induction cps generalizing done s with
  | nil => rwa [List.append_nil]
  | cons cp cps ih =>
    obtain ⟨hcp, hcps⟩ := List.forall_mem_cons.1 hlen
    rw [List.foldl_cons, List.append_cons]
    exact ih (h.round hcp) hcps

theorem sorted_keys {keys : List Nat} (h : keys.Nodup) : keys.mergeSort.Pairwise (· < ·) := by
  have hle : keys.mergeSort.Pairwise (· ≤ ·) := by
    have := @List.pairwise_mergeSort _ (fun a b : Nat => decide (a ≤ b)) (by simp; omega) (by simp; omega) keys
    simpa using this
  have hne : keys.mergeSort.Nodup := (List.mergeSort_perm keys _).nodup_iff.2 h
  exact (hle.and hne).imp fun hab => Nat.lt_of_le_of_ne hab.1 hab.2

/-- The entries of an array that holds an increasing list. -/
theorem cArray_mono {w : Nat} {keys : List Nat} (h : keys.Pairwise (· < ·)) (hfit : ∀ k ∈ keys, k < 2 ^ w) (i j : Nat)
    (hij : i < j) (hj : j < keys.length) : cArray w keys i < cArray w keys j := by
  have hi : i < keys.length := Nat.lt_trans hij hj
  rw [cArray_eq (List.getElem?_eq_getElem hi) (hfit _ (List.getElem_mem hi)),
    cArray_eq (List.getElem?_eq_getElem hj) (hfit _ (List.getElem_mem hj))]
  exact List.pairwise_iff_getElem.1 h i j hi hj hij

/-- The search in an array that holds an increasing list. -/
theorem search_cArray {w : Nat} {keys : List Nat} (h : keys.Pairwise (· < ·)) (hfit : ∀ k ∈ keys, k < 2 ^ w) (k : Nat) :
    (∃ i, keys[i]? = some k ∧ search (fun mid => k < cArray w keys mid) (fun mid => cArray w keys mid < k)
      keys.length 0 keys.length = some i) ∨
    (k ∉ keys ∧ search (fun mid => k < cArray w keys mid) (fun mid => cArray w keys mid < k)
      keys.length 0 keys.length = none) := by
  by_cases hk : k ∈ keys
  · obtain ⟨i, hi⟩ := List.mem_iff_getElem?.1 hk
    have hlt := (List.getElem?_eq_some_iff.1 hi).1
    exact .inl ⟨i, hi, search_key (cArray_mono h hfit) hlt (cArray_eq hi (hfit k hk))⟩
  · refine .inr ⟨hk, search_no_key fun i hi heq => hk ?_⟩
    rw [cArray_eq (List.getElem?_eq_getElem hi) (hfit _ (List.getElem_mem hi))] at heq
    exact heq ▸ List.getElem_mem hi

end Pools

section ReadBack

theorem pairKey_split {a b : Nat} (hb : b < 2 ^ 32) : pairKey (a, b) >>> 32 = a ∧ pairKey (a, b) &&& 0xFFFFFFFF = b := by
  have hand : ∀ n, n &&& 0xFFFFFFFF = n % 2 ^ 32 := fun n => Nat.and_two_pow_sub_one_eq_mod n 32
  have hkey : pairKey (a, b) = a * 2 ^ 32 + b := by
    rw [pairKey, ← Nat.shiftLeft_add_eq_or_of_lt hb, Nat.shiftLeft_eq]
  rw [hand, hkey, Nat.shiftRight_eq_div_pow]
  omega

theorem pairKey_inj {p q : Nat × Nat} (hp : p.2 < 2 ^ 32) (hq : q.2 < 2 ^ 32) (h : pairKey p = pairKey q) : p = q := by
  obtain ⟨hp₁, hp₂⟩ := @pairKey_split p.1 p.2 hp
  obtain ⟨hq₁, hq₂⟩ := @pairKey_split q.1 q.2 hq
  rw [h] at hp₁ hp₂
  exact Prod.ext (hp₁.symm.trans hq₁) (hp₂.symm.trans hq₂)

theorem pairKey_lt {p : Nat × Nat} (h₁ : p.1 < 2 ^ 32) (h₂ : p.2 < 2 ^ 32) : pairKey p < 2 ^ 64 := by
  rw [pairKey, ← Nat.shiftLeft_add_eq_or_of_lt h₂, Nat.shiftLeft_eq]
  omega

/-- What the lookups of the C code are to return. -/
structure ReadsBack (p : Parse) (T : Tables) : Prop where
  charClass : ∀ cp, T.bpCharClass cp = (p.classes[cp]?.map UInt8.toNat).getD 0
  ccc : ∀ cp, T.bpCcc cp = (p.ccc.lookup cp).getD 0
  qc : ∀ r ∈ p.qc, ∀ cp, r.lo ≤ cp → cp ≤ r.hi → T.bpNfcQc cp = r.value
  yes : ∀ cp, (∀ r ∈ p.qc, ¬(r.lo ≤ cp ∧ cp ≤ r.hi)) → T.bpNfcQc cp = 1
  decomp : ∀ cp, T.bpDecomp cp = (p.decomp.lookup cp).getD []
  compose : ∀ a b, a < 2 ^ 32 → b < 2 ^ 32 → T.bpCompose a b = (p.pairs.lookup (a, b)).getD 0

/-- The lookup in two levels that hold data for every code point. -/
theorem two_levels {data : List UInt8} (h : data.length = MAX_CP) {index : List Nat} {blocks : List UInt8}
    (hread : ∀ cp (hcp : cp < data.length),
      cArray 8 (blocks.map UInt8.toNat) (cArray 16 index (cp >>> 8) <<< 8 ||| cp &&& 0xFF) = data[cp].toNat) (cp : Nat) :
    (if 0x10FFFF < cp then 0
      else cArray 8 (blocks.map UInt8.toNat) (cArray 16 index (cp >>> 8) <<< 8 ||| cp &&& 0xFF)) =
      (data[cp]?.map UInt8.toNat).getD 0 := by
  have hmax : data.length = 0x110000 := h
  split
  · rw [List.getElem?_eq_none (by omega)]
    rfl
  · have hcp : cp < data.length := by omega
    rw [hread cp hcp, List.getElem?_eq_getElem hcp]
    rfl

theorem qc_read {qc : List QcRange} (hfits : ∀ r ∈ qc, r.lo ≤ r.hi ∧ r.hi < MAX_CP ∧ r.value < 256) {i : Nat} {r : QcRange} (hi : qc[i]? = some r) :
    cArray 32 (qc.map QcRange.lo) i = r.lo ∧ cArray 32 (qc.map QcRange.hi) i = r.hi ∧
      cArray 8 (qc.map QcRange.value) i = r.value := by
  obtain ⟨hle, hmax, hval⟩ := hfits r (List.mem_of_getElem? hi)
  unfold MAX_CP at hmax
  have hmap : ∀ f : QcRange → Nat, (qc.map f)[i]? = some (f r) := by
    intro f
    rw [List.getElem?_map, hi]
    rfl
  exact ⟨cArray_eq (hmap _) (by omega), cArray_eq (hmap _) (by omega), cArray_eq (hmap _) hval⟩

/-- The search over the ranges. -/
theorem search_qc {qc : List QcRange} (hsorted : qc.Pairwise fun r r' => r.hi < r'.lo)
    (hfits : ∀ r ∈ qc, r.lo ≤ r.hi ∧ r.hi < MAX_CP ∧ r.value < 256) {i : Nat} {r : QcRange} (hi : qc[i]? = some r)
    {cp : Nat} (hlo : r.lo ≤ cp) (hhi : cp ≤ r.hi) :
    search (fun mid => cp < cArray 32 (qc.map QcRange.lo) mid) (fun mid => cArray 32 (qc.map QcRange.hi) mid < cp)
      qc.length 0 qc.length = some i := by
  have hlt := (List.getElem?_eq_some_iff.1 hi).1
  have hread : ∀ j (hj : j < qc.length), cArray 32 (qc.map QcRange.lo) j = qc[j].lo ∧
      cArray 32 (qc.map QcRange.hi) j = qc[j].hi := by
    intro j hj
    obtain ⟨h₁, h₂, -⟩ := qc_read hfits (List.getElem?_eq_getElem hj)
    exact ⟨h₁, h₂⟩
  obtain rfl : qc[i] = r := (List.getElem?_eq_some_iff.1 hi).2
  apply search_find (by omega) (Nat.zero_le i) hlt
  · rw [(hread i hlt).1, (hread i hlt).2]
    simp only [decide_eq_false_iff_not]
    omega
  · intro j hij hj
    have := List.pairwise_iff_getElem.1 hsorted i j hlt hj hij
    rw [(hread j hj).1, decide_eq_true_eq]
    omega
  · intro j _ hji
    have hj : j < qc.length := Nat.lt_trans hji hlt
    have := List.pairwise_iff_getElem.1 hsorted j i hj hlt hji
    have := (hfits qc[j] (List.getElem_mem hj)).1
    rw [(hread j hj).1, (hread j hj).2]
    simp only [decide_eq_false_iff_not, decide_eq_true_eq]
    omega

/-- No range is found for a code point that is in none. -/
theorem search_no_qc {qc : List QcRange} (hfits : ∀ r ∈ qc, r.lo ≤ r.hi ∧ r.hi < MAX_CP ∧ r.value < 256) {cp : Nat}
    (hno : ∀ r ∈ qc, ¬(r.lo ≤ cp ∧ cp ≤ r.hi)) :
    search (fun mid => cp < cArray 32 (qc.map QcRange.lo) mid) (fun mid => cArray 32 (qc.map QcRange.hi) mid < cp)
      qc.length 0 qc.length = none := by
  apply search_miss
  intro j _ hj
  obtain ⟨h₁, h₂, -⟩ := qc_read hfits (List.getElem?_eq_getElem hj)
  have := hno qc[j] (List.getElem_mem hj)
  rw [h₁, h₂]
  simp only [decide_eq_true_eq]
  omega

/-- The entry of the pool for a key. -/
theorem pool_entry {pool : List Nat} {off : Nat} {parts : List Nat} (htake : (pool.drop off).take parts.length = parts)
    (hfit : ∀ x ∈ parts, x < 2 ^ 32) :
    ((List.range parts.length).map fun i => cArray 32 pool (off + i)) = parts := by
  apply List.ext_getElem
  · rw [List.length_map, List.length_range]
  · intro i hi hi'
    rw [List.getElem_map, List.getElem_range]
    apply cArray_eq
    · have hget := congrArg (fun xs => xs[i]?) htake
      rwa [List.getElem?_take_of_lt hi', List.getElem?_drop, List.getElem?_eq_getElem hi'] at hget
    · exact hfit _ (List.getElem_mem hi')

/-- The keys of the pairs as they are searched. -/
def sortedPairKeys (p : Parse) : List Nat := (p.pairs.map fun item => pairKey item.1).mergeSort

/-- The composite under a key. -/
def composite (p : Parse) (k : Nat) : Nat := (p.pairs.lookup (k >>> 32, k &&& 0xFFFFFFFF)).getD 0

theorem pair_words (p : Parse) {item : (Nat × Nat) × Nat} (h : item ∈ p.pairs) :
    item.1.1 < 2 ^ 32 ∧ item.1.2 < 2 ^ 32 ∧ item.2 < 2 ^ 32 := by
  obtain ⟨ha, hb, hc⟩ := p.pairs_fit item h
  unfold MAX_CP at ha hb hc
  omega

theorem mem_sortedPairKeys {p : Parse} {k : Nat} : k ∈ sortedPairKeys p ↔ ∃ item ∈ p.pairs, pairKey item.1 = k := by
  rw [sortedPairKeys, List.mem_mergeSort, List.mem_map]

theorem sortedPairKeys_sorted (p : Parse) : (sortedPairKeys p).Pairwise (· < ·) := by
  apply sorted_keys
  have hmap : (p.pairs.map fun item => pairKey item.1) = (p.pairs.map Prod.fst).map pairKey := by
    rw [List.map_map]
    rfl
  rw [hmap]
  apply p.pairs_keys.map_on
  intro x hx y hy hxy
  obtain ⟨i, hi, rfl⟩ := List.mem_map.1 hx
  obtain ⟨j, hj, rfl⟩ := List.mem_map.1 hy
  exact pairKey_inj (pair_words p hi).2.1 (pair_words p hj).2.1 hxy

theorem pairVal_eq (p : Parse) {k : Nat} (h : k ∈ sortedPairKeys p) : pairVal p.pairs k = .ok (composite p k) := by
  obtain ⟨⟨⟨a, b⟩, c⟩, hitem, rfl⟩ := mem_sortedPairKeys.1 h
  obtain ⟨h₁, h₂⟩ := @pairKey_split a b (pair_words p hitem).2.1
  rw [pairVal, composite, h₁, h₂, lookup_of_mem p.pairs_keys hitem]
  rfl

/-- The lookup of a pair. -/
theorem compose_read (p : Parse) {T : Tables} (hcount : T.composeCount = (sortedPairKeys p).length)
    (hkey : T.composeKey = cArray 64 (sortedPairKeys p))
    (hval : T.composeVal = cArray 32 ((sortedPairKeys p).map (composite p))) {a b : Nat} (ha : a < 2 ^ 32)
    (hb : b < 2 ^ 32) : T.bpCompose a b = (p.pairs.lookup (a, b)).getD 0 := by
  have hfit : ∀ k ∈ sortedPairKeys p, k < 2 ^ 64 := by
    intro k hk
    obtain ⟨item, hitem, rfl⟩ := mem_sortedPairKeys.1 hk
    exact pairKey_lt (pair_words p hitem).1 (pair_words p hitem).2.1
  unfold Tables.bpCompose
  dsimp only
  rw [hcount, hkey, hval]
  rcases search_cArray (sortedPairKeys_sorted p) hfit (pairKey (a, b)) with ⟨i, hi, hfound⟩ | ⟨hno, hmiss⟩
  · rw [show a <<< 32 ||| b = pairKey (a, b) from rfl, hfound]
    dsimp only
    obtain ⟨⟨⟨a', b'⟩, c⟩, hitem, heq⟩ := mem_sortedPairKeys.1 (List.mem_of_getElem? hi)
    obtain ⟨rfl, rfl⟩ := Prod.mk.inj (pairKey_inj (pair_words p hitem).2.1 hb heq)
    obtain ⟨h₁, h₂⟩ := @pairKey_split a' b' hb
    have hc := lookup_of_mem p.pairs_keys hitem
    rw [hc]
    apply cArray_eq
    · rw [List.getElem?_map, hi, Option.map_some, composite, h₁, h₂, hc]
    · exact (pair_words p hitem).2.2
  · rw [show a <<< 32 ||| b = pairKey (a, b) from rfl, hmiss]
    have hnone : p.pairs.lookup (a, b) = none := by
      rw [lookup_eq_none]
      intro hmem
      obtain ⟨item, hitem, hkey⟩ := List.mem_map.1 hmem
      exact hno (mem_sortedPairKeys.2 ⟨item, hitem, by rw [hkey]⟩)
    rw [hnone]
    rfl

/-- The keys of the decompositions as they are searched. -/
def sortedCps (p : Parse) : List Nat := (p.decomp.map Prod.fst).mergeSort

theorem mem_sortedCps {p : Parse} {cp : Nat} : cp ∈ sortedCps p ↔ cp ∈ p.decomp.map Prod.fst := List.mem_mergeSort

theorem decomp_short (p : Parse) (cp : Nat) : ((p.decomp.lookup cp).getD []).length ≤ MAX_DECOMP ∧
    ∀ x ∈ (p.decomp.lookup cp).getD [], x < MAX_CP := by
  cases hcp : p.decomp.lookup cp with
  | none => exact ⟨Nat.zero_le _, fun x hx => absurd hx List.not_mem_nil⟩
  | some parts => exact (p.decomp_fits (cp, parts) (mem_of_lookup hcp)).2

/-- There are no more keys than code points. -/
theorem length_sortedCps (p : Parse) : (sortedCps p).length ≤ MAX_CP := by
  have hsub : p.decomp.map Prod.fst ⊆ List.range MAX_CP := by
    intro cp hcp
    obtain ⟨item, hitem, rfl⟩ := List.mem_map.1 hcp
    exact List.mem_range.2 (p.decomp_fits item hitem).1
  have hle := List.Nodup.length_le_of_subset p.decomp_keys hsub
  rwa [List.length_range, ← List.length_mergeSort] at hle

/-- The lookup of a decomposition. -/
theorem decomp_read (p : Parse) {T : Tables} {s : Pool} (hs : PoolOk p.decomp (sortedCps p) s)
    (hcount : T.decompCount = (sortedCps p).length) (hkey : T.decompCp = cArray 32 (sortedCps p))
    (hoff : T.decompOff = cArray 32 s.offsets) (hlen : T.decompLen = cArray 8 s.lengths)
    (hpool : T.decompPool = cArray 32 s.pool) (cp : Nat) : T.bpDecomp cp = (p.decomp.lookup cp).getD [] := by
  have hfit : ∀ k ∈ sortedCps p, k < 2 ^ 32 := by
    intro k hk
    obtain ⟨item, hitem, rfl⟩ := List.mem_map.1 (mem_sortedCps.1 hk)
    have := (p.decomp_fits item hitem).1
    unfold MAX_CP at this
    omega
  unfold Tables.bpDecomp
  rw [hcount, hkey, hoff, hlen, hpool]
  rcases search_cArray (sorted_keys p.decomp_keys) hfit cp with ⟨i, hi, hfound⟩ | ⟨hno, hmiss⟩
  · rw [sortedCps, hfound]
    dsimp only
    obtain ⟨off, hoffset, hlength, htake, hin⟩ := hs.entry i cp hi
    obtain ⟨hshort, hparts⟩ := decomp_short p cp
    have hsize := hs.size
    have hcps := length_sortedCps p
    unfold MAX_DECOMP MAX_CP at *
    rw [cArray_eq hoffset (by omega), cArray_eq hlength (by omega)]
    apply pool_entry htake
    intro x hx
    have := hparts x hx
    omega
  · rw [sortedCps, hmiss, lookup_eq_none.2 (fun hmem => hno (mem_sortedCps.2 hmem))]
    rfl

/-- What `emit_source` writes. -/
theorem emitSource_eq (p : Parse) (cc ccc : List Nat × List UInt8) : emitSource cc ccc p.qc p.decomp p.pairs =
    .ok (layOut cc ccc p.qc (sortedCps p) ((sortedCps p).foldl (poolRound p.decomp) ⟨[], [], []⟩) (sortedPairKeys p)
      ((sortedPairKeys p).map (composite p))) := by
  have hvals : (sortedPairKeys p).mapM (pairVal p.pairs) = .ok ((sortedPairKeys p).map (composite p)) :=
    mapM_ok fun k hk => pairVal_eq p hk
  show ((sortedPairKeys p).mapM (pairVal p.pairs) >>= fun pairVals => pure (layOut _ _ _ _ _ _ pairVals)) = _
  rw [hvals]
  rfl

/-- **The tables read back.** What is laid out is emitted, and the lookups of the C code return it, or the default. -/
theorem tables_read_back (p : Parse) : ∃ T, emitTables p = .ok T ∧ ReadsBack p T := by
  obtain ⟨ccIndex, ccBlocks, hcc, hclass⟩ := buildTwoLevel_spec p.classes_length
  obtain ⟨bytes, hbytes, hlen, hvalue⟩ := cccBytes_spec p
  obtain ⟨cccIndex, cccBlocks, hccc, hcombining⟩ := buildTwoLevel_spec hlen
  have hempty : PoolOk p.decomp [] ⟨[], [], []⟩ := by
    constructor
    · rfl
    · rfl
    · exact Nat.le_refl 0
    · intro i cp hi
      cases hi
  have hpool := @PoolOk.fold _ (sortedCps p) _ _ hempty fun cp _ => (decomp_short p cp).1
  rw [List.nil_append] at hpool
  have hrun : emitTables p = emitSource (ccIndex, ccBlocks) (cccIndex, cccBlocks) p.qc p.decomp p.pairs := by
    rw [emitTables, hcc, ok_bind, hbytes, ok_bind, hccc, ok_bind]
  rw [emitSource_eq] at hrun
  refine ⟨_, hrun, ?_⟩
  constructor
  · exact two_levels p.classes_length hclass
  · intro cp
    apply (two_levels hlen hcombining cp).trans
    rcases Nat.lt_or_ge cp bytes.length with hcp | hcp
    · rw [List.getElem?_eq_getElem hcp, Option.map_some, Option.getD_some, hvalue cp hcp]
    · rw [List.getElem?_eq_none hcp, lookup_eq_none.2]
      · rfl
      · intro hmem
        obtain ⟨item, hitem, rfl⟩ := List.mem_map.1 hmem
        have := (p.ccc_fits item hitem).1
        omega
  · intro r hr cp hlo hhi
    obtain ⟨i, hi⟩ := List.mem_iff_getElem?.1 hr
    unfold Tables.bpNfcQc layOut
    dsimp only
    rw [search_qc p.qc_sorted p.qc_fits hi hlo hhi]
    exact (qc_read p.qc_fits hi).2.2
  · intro cp hno
    unfold Tables.bpNfcQc layOut
    dsimp only
    rw [search_no_qc p.qc_fits hno]
  · exact decomp_read p hpool rfl rfl rfl rfl rfl
  · exact fun a b ha hb => compose_read p rfl rfl rfl ha hb

end ReadBack

end Bytepair.GenTables
