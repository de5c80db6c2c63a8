import Bytepair.Census.Verdicts
import Bytepair.Cli.Commands

/-!
# The census on the command line

What `bytepair census` and `bytepair witness` leave. A witness that is printed is a text whose ids fit the buffer they
are printed from, with the token among them.
-/

namespace Bytepair.Cli
open Support Support.Numeral

variable {host : Host} {map : List UInt8} {v : BpVocab} {g : Prop} {w : World}

section Witness

/-- What is reported of a token. -/
inductive Evidence (v : BpVocab) (g : Prop) (t : Nat) : List UInt8 → Prop
  | bare {r : CensusResult} (verdict : IsVerdict v g true t r) (hnone : r.witness = []) :
    Evidence v g t (witnessHead t (v.span t) r)
  | witnessed {r : CensusResult} (verdict : IsVerdict v g true t r) {ids : List Nat}
    (hids : encodeIds shipped v r.witness 0 = some ids) (fits : ids.length ≤ WMAX + 8) (marked : v.isAdded t = false → t ∈ ids) :
    Evidence v g t (witnessHead t (v.span t) r ++ witnessLines r.witness (ids.map (witnessWord t)))
  | refused {r : CensusResult} (verdict : IsVerdict v g true t r) (hno : ¬g) :
    Evidence v g t (witnessHead t (v.span t) r ++ witnessLines r.witness [])

end Witness

section Census

theorem censusArg_error {opts : CensusOpts} {arg : List UInt8} {e : Exit} (h : censusArg w opts arg = .error e) :
    e.status = 2 ∧ e.out = [] := by
  unfold censusArg at h
  split at h
  · cases h
  · split at h
    · cases h
    · split at h
      · cases h
      · cases h
        exact ⟨rfl, rfl⟩

/-- The arguments of `census` are read, or a report cannot be written. -/
theorem censusArgs_ends (w : World) : ∀ (opts : CensusOpts) (args : List (List UInt8)),
    ∃ r, censusArgs w opts args = .ok r ∧ ∀ e, r = .error e → e.status = 2 ∧ e.out = []
  | opts, [] => ⟨_, rfl, fun e he => by cases he⟩
  | opts, [arg] => ⟨_, rfl, fun e he => censusArg_error he⟩
  | opts, arg :: n :: rest => by
    rw [censusArgs]
    split
    · obtain ⟨limit, hlimit⟩ := strtoul32_ends n
      rw [hlimit, Run.ok_bind]
      exact censusArgs_ends w _ rest
    · cases harg : censusArg w opts arg with
      | error e => exact ⟨_, rfl, fun e' he => by cases he; exact censusArg_error harg⟩
      | ok opts => exact censusArgs_ends w opts (n :: rest)

/-- Of a report on the vocabulary's own file, the census does not get beyond the first offset. -/
theorem cmdCensus_faults {path : List UInt8} {args : List (List UInt8)} {opts : CensusOpts}
    (hopts : censusArgs w ⟨none, false, 0⟩ args = .ok (.ok opts)) (hsame : opts.json.any (w.sameFile path) = true)
    (hgranted : Granted (w.answers 0)) : cmdCensus shipped w v path args = .error .outOfBounds := by
  obtain ⟨c, hc, -⟩ := bpCtxNew_granted (v := v) (show -1 ≤ BP_CTX_DEFAULT_CACHE by decide) (by decide) w.env
  unfold cmdCensus
  rw [hopts, Run.ok_bind, funext hgranted, hc]
  dsimp only
  rw [if_pos hsame]
  rfl

end Census

end Bytepair.Cli
