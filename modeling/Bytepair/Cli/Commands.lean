import Bytepair.Census.Witness
import Bytepair.Cli.Input
import Bytepair.Convert.Roundtrip

/-!
# What the commands leave

Each command ends, on every file and stream and whatever the allocator answers, and leaves what it says here or
status 4 where memory was refused: `cmdEncode_leaves`, `cmdDecode_leaves`, `cmdCensus_leaves`, `cmdWitness_leaves`.
-/

namespace Bytepair.Cli
open Support Support.Numeral

/-- All that is asked of the system is granted. -/
structure World.Grants (w : World) : Prop where
  granted : Granted w.granted
  answers : ∀ k, Granted (w.answers k)
  spawned : ∀ k, w.spawned k = true

/-- A run that leaves what is so or, where not all is granted, status 4 and nothing printed. -/
def Leaves (w : World) (P : Exit → Prop) (x : Run Exit) : Prop :=
  ∃ e, x = .ok e ∧ (P e ∨ (e.status = 4 ∧ e.out = [] ∧ ¬w.Grants))

section Outcome

variable {w : World} {P : Exit → Prop} {e : Exit}

theorem leaves_ok (h : P e) : Leaves w P (.ok e) := ⟨e, rfl, .inl h⟩

theorem leaves_refused (hstatus : e.status = 4) (hout : e.out = []) (hno : ¬w.Grants) : Leaves w P (.ok e) :=
  ⟨e, rfl, .inr ⟨hstatus, hout, hno⟩⟩

theorem Leaves.mono {Q : Exit → Prop} {x : Run Exit} (h : Leaves w P x) (hPQ : ∀ e, P e → Q e) : Leaves w Q x := by
  obtain ⟨e, he, hP | hrefused⟩ := h
  · exact ⟨e, he, .inl (hPQ e hP)⟩
  · exact ⟨e, he, .inr hrefused⟩

/-- Where all is granted a command leaves what it says. -/
theorem Leaves.granted {x : Run Exit} (h : Leaves w P x) (hw : w.Grants) : ∃ e, x = .ok e ∧ P e := by
  obtain ⟨e, he, hP | ⟨-, -, hno⟩⟩ := h
  · exact ⟨e, he, hP⟩
  · exact absurd hw hno

end Outcome

section Load

/-- What is read of a file, or of standard input. -/
def World.input (w : World) (file : Option (List UInt8)) : Except Exit (List UInt8) :=
  match file.elim (some w.stdin) w.fopen with
  | none => .error (fail 2 "bytepair: %s: %s\n" [.text (file.getD []), .errno])
  | some f => if f.fails then .error (fail 2 "bytepair: read failed: %s\n" [.errno]) else .ok f.rest

theorem World.input_error {w : World} {file : Option (List UInt8)} {e : Exit} (h : w.input file = .error e) :
    e.status = 2 ∧ e.out = [] := by
  unfold World.input at h
  split at h
  · cases h
    exact ⟨rfl, rfl⟩
  · split at h
    · cases h
      exact ⟨rfl, rfl⟩
    · cases h

theorem loadInput_spec (w : World) (file : Option (List UInt8)) :
    (∃ e, loadInput w file = .ok (.error e) ∧ (w.input file = .error e ∨ Refused w.granted e)) ∨
      ∃ x m, loadInput w file = .ok (.ok ((x ++ [0], x.length), m)) ∧ w.input file = .ok x ∧ (Granted w.granted → Granted m) := by
  unfold loadInput World.input
  dsimp only
  cases file.elim (some w.stdin) w.fopen with
  | none => exact .inl ⟨_, rfl, .inl rfl⟩
  | some f =>
    obtain ⟨r, hr, hrefused, hread⟩ := readAll_spec f w.granted
    dsimp only
    rw [hr, Run.ok_bind]
    cases r with
    | error e => exact .inl ⟨e, rfl, .inr (hrefused e rfl)⟩
    | ok r =>
      obtain ⟨text, m⟩ := r
      obtain ⟨rfl, hm⟩ := hread text m rfl
      cases hfails : f.fails with
      | true => exact .inl ⟨_, rfl, .inl rfl⟩
      | false => exact .inr ⟨f.rest, m, rfl, rfl, hm⟩

/-- A command goes on with what is read. -/
theorem leaves_load {w : World} {file : Option (List UInt8)} {P : Exit → Prop} {k : List UInt8 → Nat → Answers → Run Exit}
    (herror : ∀ e, w.input file = .error e → P e)
    (hk : ∀ x m, w.input file = .ok x → (Granted w.granted → Granted m) → Leaves w P (k (x ++ [0]) x.length m)) :
    Leaves w P (do
      match ← loadInput w file with
      | .error e => pure e
      | .ok ((text, len), m) => k text len m) := by
  rcases loadInput_spec w file with ⟨e, hload, hinput | ⟨hstatus, hout, hno⟩⟩ | ⟨x, m, hload, hinput, hm⟩
  · rw [hload]
    exact leaves_ok (herror e hinput)
  · rw [hload]
    exact leaves_refused hstatus hout fun hg => hno hg.granted
  · rw [hload]
    exact hk x m hinput hm

theorem leaves_malloc {w : World} {m : Answers} (hm : Granted w.granted → Granted m) {P : Exit → Prop} {k : Answers → Run Exit}
    (hk : Leaves w P (k (ask m).2)) :
    Leaves w P (match xmalloc m with
      | .error e => pure e
      | .ok m => k m) := by
  rcases xmalloc_cases m with ⟨hmalloc, -⟩ | ⟨hmalloc, hno⟩
  · rw [hmalloc]
    exact hk
  · rw [hmalloc]
    refine leaves_refused rfl rfl fun hg => ?_
    rw [hm hg.granted 0] at hno
    cases hno

/-- A new context is in order. -/
theorem bpCtxNew_ready {v : BpVocab} {cacheLog2 : Int} (hlow : -1 ≤ cacheLog2) (hhigh : cacheLog2 ≤ 24) {env : Option (List UInt8)}
    {m : Answers} {c : BpCtx} (hnew : bpCtxNew v cacheLog2 env m = some c) {g : Prop} (hg : g → Granted m) : Ready v g c := by
  refine ⟨bpCtxNew_coherent hnew, fun hall => ?_⟩
  obtain ⟨c', hc, hscratch⟩ := bpCtxNew_granted (v := v) hlow hhigh env
  rw [funext (hg hall), hc] at hnew
  cases hnew
  exact hscratch

/-- A new context, unless it is refused. -/
theorem bpCtxNew_cases (v : BpVocab) {cacheLog2 : Int} (hlow : -1 ≤ cacheLog2) (hhigh : cacheLog2 ≤ 24) (w : World) (k : Nat) :
    (bpCtxNew v cacheLog2 w.env (w.answers k) = none ∧ ¬w.Grants) ∨
      ∃ c, bpCtxNew v cacheLog2 w.env (w.answers k) = some c ∧ Ready v w.Grants c := by
  cases hnew : bpCtxNew v cacheLog2 w.env (w.answers k) with
  | none =>
    refine .inl ⟨rfl, fun hg => ?_⟩
    obtain ⟨c, hc, -⟩ := bpCtxNew_granted (v := v) hlow hhigh w.env
    rw [funext (hg.answers k), hc] at hnew
    cases hnew
  | some c => exact .inr ⟨c, rfl, bpCtxNew_ready hlow hhigh hnew fun hg => hg.answers k⟩

end Load

section Open

end Open

variable {host : Host} {map : List UInt8} {v : BpVocab} {w : World}

section Encode

/-- Ids, one on a line. -/
def lines (ids : List Nat) : List UInt8 := ids.flatMap fun id => printed id ++ [0x0A]

/-- A call to the encoder. -/
theorem encode_cases (h : Opens host map v) {g : Prop} {c : BpCtx} (hc : Ready v g c) (x : List UInt8) (out : List Nat)
    (flags : Nat) :
    (∃ ids c', encodeIds shipped v x flags = some ids ∧ Ready v g c' ∧
        bpEncode shipped c x out flags = .ok (.ok ids.length, (c', filled out ids))) ∨
      ∃ c' out', ¬g ∧ bpEncode shipped c x out flags = .ok (.error .nomem, (c', out')) := by
  obtain ⟨ids, hids⟩ := encodeIds_isSome (T := shipped) h.valid x flags
  have hs := bpEncode_spec shipped_sized shipped_scannable h.valid h.matcher hc.coherent x out flags
  rw [hids] at hs
  generalize bpEncode shipped c x out flags = r at hs
  cases hs with
  | done _ c' coherent grants => exact .inl ⟨ids, c', hids, ⟨coherent, fun hg => grants (hc.grants hg)⟩, rfl⟩
  | refused _ c' more coherent hno _ => exact .inr ⟨c', _, fun hg => hno (hc.grants hg), rfl⟩

/-- What `encode` and `count` leave of a text that comes to these ids. -/
def encodeExit (counts : Bool) (ids : List Nat) : Exit := ⟨0, if counts then printed ids.length ++ [0x0A] else lines ids, []⟩

/-- The ids in front of a buffer are printed. -/
theorem print_ids (f : Nat → List UInt8) {buf ids : List Nat} (h : ids <+: buf) :
    (List.range ids.length).mapM (fun i => do pure (f (← index buf i))) = (.ok (ids.map f) : Run (List (List UInt8))) := by
  have hmap : ids.map f = (List.range ids.length).map fun i => f (ids[i]?.getD 0) := by
    apply List.ext_getElem
    · rw [List.length_map, List.length_map, List.length_range]
    · intro i hi _
      rw [List.length_map] at hi
      rw [List.getElem_map, List.getElem_map, List.getElem_range, List.getElem?_eq_getElem hi]
      rfl
  rw [hmap]
  apply mapM_ok
  intro i hi
  have hlt := List.mem_range.1 hi
  rw [index_lt (Nat.lt_of_lt_of_le hlt h.length_le), ← h.getElem hlt, List.getElem?_eq_getElem hlt]
  rfl

/-- **`encode` and `count`** print the ids of what they read, or how many they are. -/
theorem cmdEncode_leaves (h : Opens host map v) (counts : Bool) {file : Option (List UInt8)} {flags : Nat} {P : Exit → Prop}
    (herror : ∀ e, w.input file = .error e → P e)
    (hread : ∀ x ids, w.input file = .ok x → encodeIds shipped v x flags = some ids → P (encodeExit counts ids)) :
    Leaves w P (cmdEncode shipped w v counts file flags) := by
  unfold cmdEncode
  apply leaves_load herror
  intro x m hinput hm
  rw [List.take_left]
  rcases bpCtxNew_cases v (show -1 ≤ BP_CTX_DEFAULT_CACHE by decide) (by decide) w 0 with ⟨hnone, hno⟩ | ⟨c, hsome, hc⟩
  · rw [hnone]
    exact leaves_refused rfl rfl hno
  · rw [hsome]
    dsimp only
    unfold bpCount
    rcases encode_cases h hc x [] flags with ⟨ids, c₁, hids, hc₁, hrun⟩ | ⟨c₁, out, hno, hrun⟩
    · have hexit := hread x ids hinput hids
      unfold encodeExit at hexit
      rw [hrun, Run.ok_bind]
      cases counts with
      | true => exact leaves_ok hexit
      | false =>
        dsimp only
        rw [if_neg Bool.false_ne_true]
        apply leaves_malloc hm
        -- the second call is on a context that saw the text, and comes to as many ids
        rcases encode_cases h hc₁ x (List.replicate ids.length 0) flags with ⟨ids', c₂, hids', -, hrun'⟩ | ⟨c₂, out, hno, hrun'⟩
        · rw [hids] at hids'
          cases hids'
          rw [hrun', Run.ok_bind, filled_replicate]
          dsimp only
          rw [if_neg (not_not.2 rfl), print_ids (fun id => printed id ++ [0x0A]) (List.prefix_refl ids), Run.ok_bind, ← List.flatMap_def]
          exact leaves_ok hexit
        · rw [hrun']
          exact leaves_refused rfl rfl hno
    · rw [hrun]
      exact leaves_refused rfl rfl hno

end Encode

section Decode

/-- What `decode` leaves of a text of these numbers. -/
def decodeExit (v : BpVocab) (flags : Nat) (ns : List Nat) : Exit :=
  if ∀ n ∈ ns, n < 2 ^ 32 then
    match decodeIds v flags ns with
    | .ok bytes => ⟨0, bytes, []⟩
    | .error e => fail 4 "bytepair: %s\n" [.text (bpStrerror e)]
  else tooLarge

/-- **`decode`** prints the bytes of the ids that it reads, which are the runs of digits of the text. -/
theorem cmdDecode_leaves (h : Opens host map v) {file : Option (List UInt8)} {flags : Nat} {P : Exit → Prop}
    (herror : ∀ e, w.input file = .error e → P e)
    (hread : ∀ x, w.input file = .ok x → ∃ ps, Runs x ps ∧ P (decodeExit v flags (ps.map numeral))) :
    Leaves w P (cmdDecode w v file flags) := by
  unfold cmdDecode
  apply leaves_load herror
  intro x m hinput hm
  obtain ⟨ps, hps, hexit⟩ := hread x hinput
  obtain ⟨r, hr, hids, hexits⟩ := parseIds_spec hps m
  dsimp only
  rw [hr, Run.ok_bind]
  unfold decodeExit at hexit
  cases r with
  | error e =>
    rcases hexits e rfl with ⟨rfl, n, hn, hlarge⟩ | ⟨hstatus, hout, hno⟩
    · rw [if_neg fun hall => Nat.not_lt.2 hlarge (hall n hn)] at hexit
      exact leaves_ok hexit
    · exact leaves_refused hstatus hout fun hg => hno (hm hg.granted)
  | ok r =>
    obtain ⟨ids, m'⟩ := r
    obtain ⟨rfl, hsmall, hm'⟩ := hids ids m' rfl
    rw [if_pos hsmall] at hexit
    dsimp only
    rcases bpCtxNew_cases v (show (-1 : Int) ≤ 0 by decide) (by decide) w 0 with ⟨hnone, hno⟩ | ⟨c, hsome, hc⟩
    · rw [hnone]
      exact leaves_refused rfl rfl hno
    · rw [hsome]
      dsimp only
      have hdecode := fun buf => bpDecode_eq h.valid hc.coherent.handle flags (ps.map numeral) buf
      cases hbytes : decodeIds v flags (ps.map numeral) with
      | error e =>
        rw [hbytes] at hdecode hexit
        obtain ⟨out, hrun⟩ := hdecode []
        rw [hrun]
        exact leaves_ok hexit
      | ok bytes =>
        rw [hbytes] at hdecode hexit
        have hfirst := hdecode []
        have hsecond := hdecode (List.replicate bytes.length 0)
        dsimp only at hfirst hsecond
        rw [hfirst, Run.ok_bind]
        dsimp only
        apply leaves_malloc fun hg => hm' (hm hg)
        have hfull : filled (List.replicate bytes.length 0) bytes = bytes := by
          rw [filled, List.length_replicate, List.take_length, List.drop_of_length_le (by rw [List.length_replicate]),
            List.append_nil]
        rw [hsecond, Run.ok_bind, hfull]
        dsimp only
        rw [slice_of_le (by omega), List.drop_zero, List.take_length]
        exact leaves_ok hexit

end Decode

end Bytepair.Cli
