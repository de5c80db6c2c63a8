import Bytepair.Cli.Commands
import Bytepair.Support.Threads

/-!
# The bench

Whatever the number of its threads and the order of their rounds, `bytepair bench` counts every document of the text
once, and the documents are the text, split behind line breaks.
-/

namespace Bytepair.Cli
open Support Support.Numeral Support.Threads

section Split

/-- The documents of a text: the text, in pieces that end in the first line break behind 8 KiB, but for the last. -/
structure Documents (x : List UInt8) (docs : List (List UInt8)) : Prop where
  flatten : docs.flatten = x
  nonempty : [] ∉ docs
  broken : ∀ doc ∈ docs.dropLast, 8192 < doc.length ∧ doc.getLast? = some 0x0A
  first : ∀ doc ∈ docs, 0x0A ∉ doc.dropLast.drop 8192

/-- Where documents begin, and where the last one ends. -/
def offsets (docs : List (List UInt8)) : List Nat := docs.scanl (fun n doc => n + doc.length) 0

theorem foldl_length (docs : List (List UInt8)) (n : Nat) :
    docs.foldl (fun n doc => n + doc.length) n = n + docs.flatten.length := by
  induction docs generalizing n with
  | nil => rfl
  | cons doc docs ih => rw [List.foldl_cons, ih, List.flatten_cons, List.length_append, Nat.add_assoc]

theorem offsets_concat (docs : List (List UInt8)) (doc : List UInt8) :
    offsets (docs ++ [doc]) = offsets docs ++ [(docs ++ [doc]).flatten.length] := by
  unfold offsets
  rw [List.scanl_append, foldl_length, List.scanl_cons, List.scanl_nil, List.tail_cons, List.flatten_append,
    List.flatten_singleton, List.length_append, Nat.zero_add]

theorem length_offsets (docs : List (List UInt8)) : (offsets docs).length = docs.length + 1 := List.length_scanl

/-- The state of the loop behind so many bytes: documents that are split off, and the bytes of the one to come. -/
structure Splitting (x : List UInt8) (i : Nat) (docs : List (List UInt8)) (cur : List UInt8) : Prop where
  taken : docs.flatten ++ cur = x.take i
  broken : ∀ doc ∈ docs, 8192 < doc.length ∧ doc.getLast? = some 0x0A
  first : ∀ doc ∈ docs, 0x0A ∉ doc.dropLast.drop 8192
  unbroken : 0x0A ∉ cur.drop 8192

theorem length_flatten_le {docs : List (List UInt8)} {n : Nat} (h : ∀ doc ∈ docs, n ≤ doc.length) :
    docs.length * n ≤ docs.flatten.length := by
  induction docs with
  | nil => exact Nat.le_of_eq (Nat.zero_mul n)
  | cons doc docs ih =>
    have hdoc := h doc List.mem_cons_self
    have hdocs := ih fun d hd => h d (List.mem_cons_of_mem _ hd)
    rw [List.length_cons, Nat.succ_mul, List.flatten_cons, List.length_append]
    omega

variable {x : List UInt8} {docs : List (List UInt8)} {cur : List UInt8} {i : Nat}

/-- There is room for one more offset. -/
theorem Splitting.room (h : Splitting x i docs cur) : docs.length + 1 < x.length / 4096 + 2 := by
  have hdocs := length_flatten_le (n := 8193) fun doc hdoc => (h.broken doc hdoc).1
  have hlen := congrArg List.length h.taken
  rw [List.length_append, List.length_take] at hlen
  omega

theorem Splitting.round (h : Splitting x i docs cur) (hi : i < x.length) :
    ∃ docs' cur', splitRound (x.length / 4096 + 2) (x ++ [0]) (offsets docs, docs.flatten.length) i =
        .ok (offsets docs', docs'.flatten.length) ∧ Splitting x (i + 1) docs' cur' := by
  have hlen := congrArg List.length h.taken
  rw [List.length_append, List.length_take, Nat.min_eq_left (Nat.le_of_lt hi)] at hlen
  have htake : docs.flatten ++ (cur ++ [x[i]]) = x.take (i + 1) := by
    rw [← List.append_assoc, h.taken, List.take_append_getElem hi]
  unfold splitRound
  have hbyte : (x ++ [0])[i]? = some x[i] := by rw [List.getElem?_append_left hi, List.getElem?_eq_getElem hi]
  rw [index_of_some hbyte, Run.ok_bind]
  split
  · next hbreak =>
    have hdoc : (docs ++ [cur ++ [x[i]]]).flatten.length = i + 1 := by
      rw [List.flatten_append, List.flatten_singleton, List.length_append, List.length_append, List.length_singleton]
      omega
    simp only [Bool.and_eq_true, decide_eq_true_eq] at hbreak
    refine ⟨docs ++ [cur ++ [x[i]]], [], ?_, ?_, ?_, ?_, List.not_mem_nil⟩
    · rw [append_lt (by rw [length_offsets]; exact h.room), offsets_concat, hdoc]
      rfl
    · rw [List.append_nil, List.flatten_append, List.flatten_singleton, htake]
    · intro doc hmem
      rcases List.mem_append.1 hmem with hmem | hmem
      · exact h.broken doc hmem
      · rw [List.mem_singleton.1 hmem]
        refine ⟨?_, ?_⟩
        · rw [List.length_append, List.length_singleton]
          omega
        · rw [List.getLast?_append, List.getLast?_singleton, hbreak.1]
          rfl
    · intro doc hmem
      rcases List.mem_append.1 hmem with hmem | hmem
      · exact h.first doc hmem
      · rw [List.mem_singleton.1 hmem, List.dropLast_concat]
        exact h.unbroken
  · next hbreak =>
    simp only [Bool.and_eq_true, decide_eq_true_eq, not_and] at hbreak
    refine ⟨docs, cur ++ [x[i]], rfl, htake, h.broken, h.first, ?_⟩
    intro hmem
    by_cases hlong : 8192 ≤ cur.length
    · rw [List.drop_append_of_le_length hlong] at hmem
      rcases List.mem_append.1 hmem with hmem | hmem
      · exact h.unbroken hmem
      · exact hbreak (List.mem_singleton.1 hmem).symm (by omega)
    · rw [List.drop_of_length_le (by rw [List.length_append, List.length_singleton]; omega)] at hmem
      exact absurd hmem List.not_mem_nil

/-- **The text is split into documents.** -/
theorem splitDocs_spec (x : List UInt8) : ∃ docs, splitDocs (x ++ [0]) x.length = .ok (offsets docs) ∧ Documents x docs := by
  obtain ⟨⟨off, last⟩, hfold, docs, cur, hstate, hsplit⟩ := foldlM_rule
    (fun done s => ∃ docs cur, s = (offsets docs, docs.flatten.length) ∧ Splitting x done.length docs cur)
    (List.range x.length) [] ([0], 0)
    ⟨[], [], rfl, rfl, fun doc h => absurd h List.not_mem_nil, fun doc h => absurd h List.not_mem_nil, List.not_mem_nil⟩ (by
      rintro pre i post s hpre ⟨docs, cur, rfl, hsplit⟩
      rw [List.nil_append, List.range_eq_range'] at hpre
      obtain ⟨rfl, hlt⟩ := range'_split hpre
      rw [Nat.zero_add]
      obtain ⟨docs', cur', hround, hsplit'⟩ := hsplit.round hlt
      refine ⟨_, hround, docs', cur', rfl, ?_⟩
      rw [List.length_append, List.length_singleton]
      exact hsplit')
  cases hstate
  rw [List.nil_append, List.length_range] at hsplit
  have htaken := hsplit.taken
  rw [List.take_length] at htaken
  have hnonempty : [] ∉ docs := fun hmem => absurd (hsplit.broken [] hmem).1 (by decide)
  unfold splitDocs
  dsimp only
  rw [append_lt (show ([] : List Nat).length < x.length / 4096 + 2 from Nat.succ_pos _), Run.ok_bind,
    List.nil_append, hfold, Run.ok_bind]
  dsimp only
  split
  · next hlast =>
    -- what is left is the last document
    have hcur : cur ≠ [] := by
      rintro rfl
      rw [List.append_nil] at htaken
      rw [htaken] at hlast
      exact Nat.lt_irrefl _ hlast
    have hflatten : (docs ++ [cur]).flatten = x := by rw [List.flatten_append, List.flatten_singleton, htaken]
    refine ⟨docs ++ [cur], ?_, hflatten, ?_, ?_, ?_⟩
    · rw [append_lt (by rw [length_offsets]; exact hsplit.room), offsets_concat, hflatten]
    · intro hmem
      rcases List.mem_append.1 hmem with hmem | hmem
      · exact hnonempty hmem
      · exact hcur (List.mem_singleton.1 hmem).symm
    · rw [List.dropLast_concat]
      exact hsplit.broken
    · intro doc hmem
      rcases List.mem_append.1 hmem with hmem | hmem
      · exact hsplit.first doc hmem
      · rw [List.mem_singleton.1 hmem]
        exact fun hmem => hsplit.unbroken (((List.dropLast_sublist cur).drop 8192).subset hmem)
  · next hlast =>
    have hcur : cur = [] := by
      have hlen := congrArg List.length htaken
      rw [List.length_append] at hlen
      exact List.length_eq_zero_iff.1 (by omega)
    rw [hcur, List.append_nil] at htaken
    exact ⟨docs, rfl, htaken, hnonempty, fun doc hdoc => hsplit.broken doc (List.dropLast_subset _ hdoc), hsplit.first⟩

end Split

section Workers

variable {host : Host} {map : List UInt8} {v : BpVocab} {g : Prop}

/-- How many ids a document comes to. -/
def idCount (v : BpVocab) (flags : Nat) (doc : List UInt8) : Nat := ((encodeIds shipped v doc flags).getD []).length

/-- What a bench is to count. -/
def idTotal (v : BpVocab) (flags : Nat) (docs : List (List UInt8)) : Nat := (docs.map (idCount v flags)).sum

/-- How many ids document `d` comes to. -/
def docCount (v : BpVocab) (flags : Nat) (docs : List (List UInt8)) (d : Nat) : Nat := idCount v flags (docs[d]?.getD [])

theorem sum_docCount (v : BpVocab) (flags : Nat) (docs : List (List UInt8)) :
    ((List.range docs.length).map (docCount v flags docs)).sum = idTotal v flags docs := by
  have hmap : (List.range docs.length).map (docCount v flags docs) = docs.map (idCount v flags) := by
    apply List.ext_getElem
    · rw [List.length_map, List.length_map, List.length_range]
    · intro d _ hd
      rw [List.length_map] at hd
      rw [List.getElem_map, List.getElem_map, List.getElem_range, docCount, List.getElem?_eq_getElem hd, Option.getD_some]
  rw [hmap, idTotal]

/-- A document is where its offsets are. -/
theorem slice_offsets {docs : List (List UInt8)} {d : Nat} (hd : d < docs.length) (rest : List UInt8) :
    ∃ start stop, index (offsets docs) d = .ok start ∧ index (offsets docs) (d + 1) = .ok stop ∧
      slice (docs.flatten ++ rest) start (stop - start) = .ok docs[d] := by
  have hoff : ∀ i ≤ docs.length, index (offsets docs) i = .ok (docs.take i).flatten.length := by
    intro i hi
    unfold offsets
    rw [index_of_some]
    rw [List.getElem?_scanl, if_pos hi, foldl_length, Nat.zero_add]
  have hsplit : docs.flatten ++ rest = (docs.take d).flatten ++ (docs[d] ++ ((docs.drop (d + 1)).flatten ++ rest)) := by
    conv_lhs => rw [← List.take_append_drop d docs, List.drop_eq_getElem_cons hd]
    rw [List.flatten_append, List.flatten_cons, List.append_assoc, List.append_assoc]
  refine ⟨_, _, hoff d (Nat.le_of_lt hd), hoff (d + 1) hd, ?_⟩
  rw [← List.take_append_getElem hd, List.flatten_append, List.flatten_singleton, List.length_append, Nat.add_sub_cancel_left,
    hsplit, slice_of_le (by rw [List.length_append, List.length_append]; omega), List.drop_left, List.take_left]

/-- A worker on its way: the context is in order, and what was counted and what is left are its share. -/
structure Counting (v : BpVocab) (g : Prop) (flags : Nat) (docs : List (List UInt8)) (first step : Nat) (j : BenchJob) :
    Prop where
  strides : j.step = step
  ready : Ready v g j.c
  counted : j.tokens + share (docCount v flags docs) docs.length step j.d = share (docCount v flags docs) docs.length step first

variable {docs : List (List UInt8)} {rest : List UInt8} {flags first step : Nat}

theorem Counting.round (h : Opens host map v) (hstep : 0 < step) {j : BenchJob} (hj : Counting v g flags docs first step j) :
    (∃ j', benchRound shipped (docs.flatten ++ rest) (offsets docs) docs.length flags j = .ok (.next j') ∧
        Counting v g flags docs first step j' ∧ docs.length - j'.d < docs.length - j.d) ∨
      ∃ r, benchRound shipped (docs.flatten ++ rest) (offsets docs) docs.length flags j = .ok (.done r) ∧
        (r = some (share (docCount v flags docs) docs.length step first) ∨ (r = none ∧ ¬g)) := by
  have hcounted := hj.counted
  unfold benchRound
  split
  · next hd =>
    obtain ⟨start, stop, hstart, hstop, hslice⟩ := slice_offsets hd rest
    rw [hstart, Run.ok_bind, hstop, Run.ok_bind, hslice, Run.ok_bind]
    unfold bpCount
    rcases encode_cases h hj.ready docs[j.d] [] flags with ⟨ids, c, hids, hc, hrun⟩ | ⟨c, out, hno, hrun⟩
    · rw [hrun]
      have hdoc : docCount v flags docs j.d = ids.length := by
        rw [docCount, List.getElem?_eq_getElem hd, Option.getD_some, idCount, hids, Option.getD_some]
      rw [share_lt hstep hd, hdoc] at hcounted
      refine .inl ⟨_, rfl, ⟨hj.strides, hc, ?_⟩, ?_⟩
      · dsimp only
        rw [hj.strides]
        omega
      · dsimp only
        rw [hj.strides]
        omega
    · rw [hrun]
      exact .inr ⟨none, rfl, .inr ⟨rfl, hno⟩⟩
  · next hd =>
    rw [share_ge (Nat.le_of_not_lt hd), Nat.add_zero] at hcounted
    exact .inr ⟨some j.tokens, rfl, .inl (congrArg some hcounted)⟩

/-- **A worker counts its share**, unless memory is refused. -/
theorem worker_counts (h : Opens host map v) (docs : List (List UInt8)) (rest : List UInt8) (flags first : Nat) (hstep : 0 < step)
    {c : BpCtx} (hc : Ready v g c) :
    ∃ r, loop (benchRound shipped (docs.flatten ++ rest) (offsets docs) docs.length flags) (docs.length + 1) ⟨first, step, 0, c⟩ =
        .ok r ∧ (r = some (share (docCount v flags docs) docs.length step first) ∨ (r = none ∧ ¬g)) := by
  apply loop_rule (Counting v g flags docs first step) (fun j => docs.length - j.d)
  · intro j hj
    exact hj.round h hstep
  · exact ⟨rfl, hc, Nat.zero_add _⟩
  · exact Nat.lt_succ_of_le (Nat.sub_le _ _)

end Workers

section Threads

variable {host : Host} {map : List UInt8} {v : BpVocab} {g : Prop} {docs : List (List UInt8)} {rest : List UInt8} {flags : Nat}

/-- A worker at its start; one whose context is refused has failed. -/
def worker (v : BpVocab) (env : Option (List UInt8)) (step first : Nat) (m : Answers) : Thread BenchJob (Option Nat) :=
  match bpCtxNew v BP_CTX_DEFAULT_CACHE env m with
  | none => .ended none
  | some c => .running ⟨first, step, 0, c⟩

/-- The workers of a round at their start, one for each allocator. -/
def workers (v : BpVocab) (env : Option (List UInt8)) (allocs : List Answers) : List (Thread BenchJob (Option Nat)) :=
  allocs.mapIdx (worker v env allocs.length)

/-- What the workers of a round may end with: the counts of all documents, or some have failed. -/
def Counted (v : BpVocab) (g : Prop) (flags : Nat) (docs : List (List UInt8)) (rs : List (Option Nat)) : Prop :=
  (∃ counts : List Nat, rs = counts.map some ∧ counts.sum = idTotal v flags docs) ∨ (none ∈ rs ∧ ¬g)

/-- Shares that come to the whole. -/
theorem counted_of_shares {k : Nat} (hk : 0 < k) {r : Nat → Option Nat}
    (hr : ∀ t, r t = some (share (docCount v flags docs) docs.length k t) ∨ (r t = none ∧ ¬g)) :
    Counted v g flags docs ((List.range k).map r) := by
  by_cases hg : ∃ t ∈ List.range k, r t = none
  · obtain ⟨t, ht, hnone⟩ := hg
    refine .inr ⟨List.mem_map.2 ⟨t, ht, hnone⟩, ?_⟩
    rcases hr t with hsome | ⟨-, hno⟩
    · rw [hnone] at hsome
      cases hsome
    · exact hno
  · refine .inl ⟨(List.range k).map (share (docCount v flags docs) docs.length k), ?_, ?_⟩
    · rw [List.map_map]
      apply List.map_congr_left
      intro t ht
      rcases hr t with hsome | ⟨hnone, -⟩
      · exact hsome
      · exact absurd ⟨t, ht, hnone⟩ hg
    · rw [sum_share _ _ hk, sum_docCount]

/-- A worker owes its share, or a failure where memory is refused. -/
theorem worker_owes (h : Opens host map v) (docs : List (List UInt8)) (rest : List UInt8) (flags : Nat) {step : Nat}
    (hstep : 0 < step) (env : Option (List UInt8)) (first : Nat) {m : Answers} (hm : g → Granted m) :
    ∃ r, Owes (benchRound shipped (docs.flatten ++ rest) (offsets docs) docs.length flags) r (docs.length + 1)
        (worker v env step first m) ∧
      (r = some (share (docCount v flags docs) docs.length step first) ∨ (r = none ∧ ¬g)) := by
  unfold worker
  cases hnew : bpCtxNew v BP_CTX_DEFAULT_CACHE env m with
  | none =>
    refine ⟨none, rfl, .inr ⟨rfl, fun hg => ?_⟩⟩
    obtain ⟨c, hc, -⟩ := bpCtxNew_granted (v := v) (show -1 ≤ BP_CTX_DEFAULT_CACHE by decide) (by decide) env
    rw [funext (hm hg), hc] at hnew
    cases hnew
  | some c => exact worker_counts h docs rest flags first hstep (bpCtxNew_ready (by decide) (by decide) hnew hm)

/-- What the workers owe, each for itself. -/
theorem workers_owe (h : Opens host map v) (docs : List (List UInt8)) (rest : List UInt8) (flags : Nat)
    (env : Option (List UInt8)) {allocs : List Answers} (hne : allocs ≠ []) :
    ∃ rs, List.Forall₂ (fun t r => Owes (benchRound shipped (docs.flatten ++ rest) (offsets docs) docs.length flags) r
      (docs.length + 1) t) (workers v env allocs) rs ∧ Counted v (∀ m ∈ allocs, Granted m) flags docs rs := by
  have hpos := List.length_pos_of_ne_nil hne
  have halone : ∀ t, ∃ r, (∀ m, allocs[t]? = some m →
      Owes (benchRound shipped (docs.flatten ++ rest) (offsets docs) docs.length flags) r (docs.length + 1)
        (worker v env allocs.length t m)) ∧
      (r = some (share (docCount v flags docs) docs.length allocs.length t) ∨ (r = none ∧ ¬∀ m ∈ allocs, Granted m)) := by
    intro t
    cases hm : allocs[t]? with
    | none => exact ⟨_, fun m hm => absurd hm (by simp), .inl rfl⟩
    | some m =>
      obtain ⟨r, howes, hr⟩ := @worker_owes host map v (∀ m ∈ allocs, Granted m) h docs rest flags allocs.length hpos env t m
        fun hg => hg m (List.mem_of_getElem? hm)
      exact ⟨r, fun m' hm' => by cases hm'; exact howes, hr⟩
  choose r howes hr using halone
  refine ⟨(List.range allocs.length).map r, ?_, counted_of_shares hpos hr⟩
  rw [List.forall₂_iff_get]
  refine ⟨by rw [workers, List.length_mapIdx, List.length_map, List.length_range], fun t ht _ => ?_⟩
  rw [workers, List.length_mapIdx] at ht
  rw [List.get_eq_getElem, List.get_eq_getElem, List.getElem_map, List.getElem_range]
  unfold workers
  rw [List.getElem_mapIdx]
  exact howes t allocs[t] (List.getElem?_eq_getElem ht)

/-- **The workers of a bench, in whatever order they take their rounds**: the documents are the text, no order goes on
for ever or gets stuck, and the workers that have all ended have counted every document once, unless one was refused
memory. -/
theorem bench_any_order (h : Opens host map v) (x : List UInt8) (env : Option (List UInt8)) {allocs : List Answers}
    (hne : allocs ≠ []) (flags : Nat) :
    ∃ docs, splitDocs (x ++ [0]) x.length = .ok (offsets docs) ∧ Documents x docs ∧
      ∀ n ts, Rounds (benchRound shipped (x ++ [0]) (offsets docs) docs.length flags) n (workers v env allocs) ts →
        n ≤ allocs.length * (docs.length + 1) ∧
        (∀ j, .running j ∈ ts → ∃ us, Step (benchRound shipped (x ++ [0]) (offsets docs) docs.length flags) ts us) ∧
        ∀ rs, ts = rs.map .ended → Counted v (∀ m ∈ allocs, Granted m) flags docs rs := by
  obtain ⟨docs, hsplit, hdocs⟩ := splitDocs_spec x
  refine ⟨docs, hsplit, hdocs, fun n ts hr => ?_⟩
  obtain ⟨rs, howe, hcounted⟩ := workers_owe h docs [0] flags env hne
  rw [hdocs.flatten] at howe
  refine ⟨?_, fun j hj => hr.goes_on howe hj, ?_⟩
  · have hbounded := hr.bounded howe
    rwa [workers, List.length_mapIdx] at hbounded
  · rintro rs' rfl
    rw [hr.results howe]
    exact hcounted

theorem bench_any_order_toy : ∃ docs : List (List UInt8),
    splitDocs [0x61, 0x62, 0x0A, 0] 3 = .ok (offsets docs) ∧ Documents [0x61, 0x62, 0x0A] docs ∧
      ∀ n ts, Rounds (benchRound shipped [0x61, 0x62, 0x0A, 0] (offsets docs) docs.length 0) n
          (workers Convert.toy.vocab none [fun _ => true, fun _ => false]) ts →
        n ≤ 2 * (docs.length + 1) ∧
        (∀ j, .running j ∈ ts → ∃ us, Step (benchRound shipped [0x61, 0x62, 0x0A, 0] (offsets docs) docs.length 0) ts us) ∧
        ∀ rs, ts = rs.map .ended →
          Counted Convert.toy.vocab (∀ m ∈ [fun _ => true, fun _ => false], Granted m) 0 docs rs :=
  bench_any_order Convert.toy_opens [0x61, 0x62, 0x0A] none (List.cons_ne_nil _ _) 0

end Threads

section Command

variable {host : Host} {map : List UInt8} {v : BpVocab} {w : World} {flags : Nat}

/-- Where another thread is refused, the workers before it are left to what is gone. -/
theorem createThreads_faults {w : World} {threads round t : Nat} (hfirst : w.spawned (round * threads) = true)
    (ht : t < threads) (hno : w.spawned (round * threads + t) = false) : createThreads w threads round = .error .outOfBounds := by
  unfold createThreads
  cases hfind : (List.range threads).find? fun t => !w.spawned (round * threads + t) with
  | none =>
    have hall := List.find?_eq_none.1 hfind t (List.mem_range.2 ht)
    rw [hno] at hall
    exact absurd rfl hall
  | some first =>
    cases first with
    | zero =>
      have hrefused := List.find?_some hfind
      rw [Nat.add_zero, hfirst] at hrefused
      cases hrefused
    | succ first => rfl

/-- What `bench` leaves of a text that comes to so many ids. -/
def benchExit (w : World) (x : List UInt8) (ndocs threads tokens : Nat) : Exit :=
  ⟨0, printed x.length ++ ascii " bytes, " ++ printed ndocs ++ ascii " docs, " ++ printed threads ++ ascii " thread(s): " ++
    w.speed tokens ++ ascii " (" ++ printed tokens ++ ascii " tokens, best of 3)\n", []⟩

end Command

end Bytepair.Cli
