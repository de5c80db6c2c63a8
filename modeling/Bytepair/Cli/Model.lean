import Bytepair.Census.Report
import Bytepair.Support.Numeral

/-!
# The command line

`src/cli/main.c`, with `bp_census_witness` and the summary of `bp_census_run` that it prints. A process finds a `World`:
files, streams, an allocator, clocks. What it leaves is an `Exit`: its status, and what it wrote to standard
output and to standard error. The C library's functions are modelled as they are documented.
-/

namespace Bytepair.Cli
open Support Support.Numeral

section World

/-- A stream as `fread` finds it: the bytes to come, how many more than one each call finds at most, and whether
reading fails behind them. -/
structure Stream where
  rest : List UInt8
  chunks : Nat → Nat
  fails : Bool

/-- `fread(p, 1, room, f)`. -/
def Stream.fread (f : Stream) (room : Nat) : List UInt8 × Stream :=
  let n := min room (f.chunks 0 + 1)
  (f.rest.take n, { f with rest := f.rest.drop n, chunks := fun k => f.chunks (k + 1) })

/-- `ferror`. -/
def Stream.ferror (f : Stream) : Bool := f.fails && f.rest.isEmpty

/-- The answers of an allocator to the calls to come. -/
abbrev Answers := Nat → Bool

/-- What a process finds. `speed` and `openTime` stand for the formatted measurements, `fastest` for which of the
three rounds of a bench was the fastest, `answers` for the allocator of each context, and `sameFile` for two paths of one
file. -/
structure World where
  image : List UInt8 → Option (List UInt8)
  fopen : List UInt8 → Option Stream
  writable : List UInt8 → Bool
  sameFile : List UInt8 → List UInt8 → Bool
  stdin : Stream
  host : Host
  env : Option (List UInt8)
  granted : Answers
  answers : Nat → Answers
  spawned : Nat → Bool
  fastest : Fin 3
  openTime : List UInt8
  speed : Nat → List UInt8

/-- What fills a format string. -/
inductive Arg where
  | text (s : List UInt8)
  | int (i : Nat)
  | errno

/-- A message on standard error. -/
structure Message where
  template : String
  args : List Arg

structure Exit where
  status : Nat
  out : List UInt8
  err : List Message

def fail (status : Nat) (template : String) (args : List Arg) : Exit := ⟨status, [], [⟨template, args⟩]⟩

/-- `%u`, `%zu` and `%lld` of a number. -/
def printed (n : Nat) : List UInt8 := decimal n

end World

section Library

/-- `isspace` of the C locale. -/
def isSpace (b : UInt8) : Bool := b = 0x20 || (0x09 ≤ b && b ≤ 0x0D)

/-- How many bytes of white space there are. -/
def skipSpace : List UInt8 → Run Nat
  | [] => .error .outOfBounds
  | b :: bs => if isSpace b then (· + 1) <$> skipSpace bs else .ok 0

/-- The digits from here on: their number behind `n`, and how many they are. -/
def takeDigits (n : Nat) : List UInt8 → Run (Nat × Nat)
  | [] => .error .outOfBounds
  | b :: bs =>
    if isDigit b then (fun r => (r.1, r.2 + 1)) <$> takeDigits (10 * n + (b.toNat - 0x30)) bs else .ok (n, 0)

/-- A number at the head of a string: whether it is negated, what it is, and the bytes it takes. -/
def scanNumber (s : List UInt8) : Run (Option (Bool × Nat × Nat)) := do
  let space ← skipSpace s
  let sign ← index s space
  let start := if sign = 0x2B || sign = 0x2D then space + 1 else space
  let (n, digits) ← takeDigits 0 (s.drop start)
  pure (if digits = 0 then none else some (sign = 0x2D, n, start + digits))

/-- `strtoull(s, &next, 10)`: its value, and how far `next` is from `s`. -/
def strtoull (s : List UInt8) : Run (Nat × Nat) := do
  match ← scanNumber s with
  | none => pure (0, 0)
  | some (negated, n, used) =>
    if 2 ^ 64 ≤ n then pure (2 ^ 64 - 1, used)
    else pure (if negated then (2 ^ 64 - n) % 2 ^ 64 else n, used)

/-- `(uint32_t)strtoul(arg, NULL, 10)`. -/
def strtoul32 (arg : List UInt8) : Run Nat := do pure ((← strtoull (arg ++ [0])).1 % 2 ^ 32)

/-- `atoi(arg)`, which is `(int)strtol(arg, NULL, 10)`. -/
def atoi (arg : List UInt8) : Run Int := do
  match ← scanNumber (arg ++ [0]) with
  | none => pure 0
  | some (negated, n, _) => pure ((if negated then max (-(n : Int)) (-2 ^ 63) else min (n : Int) (2 ^ 63 - 1)).bmod (2 ^ 32))

/-- The bytes of a C string in a buffer. -/
def cString (bs : List UInt8) : List UInt8 := bs.takeWhile (· ≠ 0)

end Library

section Memory

/-- A call of `malloc` or `realloc`. -/
def ask (m : Answers) : Bool × Answers := (m 0, fun k => m (k + 1))

def xmalloc (m : Answers) : Except Exit Answers :=
  let (granted, m) := ask m
  if granted then .ok m else .error (fail 4 "bytepair: out of memory\n" [])

/-- The variables of `read_all`; of the buffer, the bytes that were written. -/
structure Reading where
  f : Stream
  buf : List UInt8
  cap : Nat
  m : Answers

/-- Make room for a byte and a NUL. -/
def Reading.grow (r : Reading) : Except Exit Reading :=
  if r.cap ≤ r.buf.length + 1 then
    let (granted, m) := ask r.m
    if granted then .ok { r with cap := r.cap * 2, m } else .error ⟨4, [], []⟩
  else .ok r

/-- A round of the loop of `read_all`. -/
def readRound (r : Reading) : Run (Flow Reading (Except Exit Reading)) :=
  match r.grow with
  | .error e => .ok (.done (.error e))
  | .ok r =>
    let (got, f) := r.f.fread (r.cap - r.buf.length - 1)
    let r := { r with f, buf := r.buf ++ got }
    .ok (if got.length = 0 then .done (.ok r) else .next r)

/-- `read_all`: the buffer with its NUL and the length without it, if reading did not fail. -/
def readAll (f : Stream) (m : Answers) : Run (Except Exit (Option (List UInt8 × Nat) × Answers)) := do
  match xmalloc m with
  | .error e => pure (.error e)
  | .ok m =>
    match ← loop readRound (f.rest.length + 1) ⟨f, [], 1 <<< 20, m⟩ with
    | .error e => pure (.error e)
    | .ok r =>
      if r.f.ferror then pure (.ok (none, r.m))
      else
        let buf ← append r.cap r.buf 0
        pure (.ok (some (buf, r.buf.length), r.m))

/-- `load_input`. -/
def loadInput (w : World) (path : Option (List UInt8)) : Run (Except Exit ((List UInt8 × Nat) × Answers)) := do
  let stream := path.elim (some w.stdin) w.fopen
  match stream with
  | none => pure (.error (fail 2 "bytepair: %s: %s\n" [.text (path.getD []), .errno]))
  | some f =>
    match ← readAll f w.granted with
    | .error e => pure (.error e)
    | .ok (none, _) => pure (.error (fail 2 "bytepair: read failed: %s\n" [.errno]))
    | .ok (some text, m) => pure (.ok (text, m))

end Memory

/-- `bp_strerror`. -/
def bpStrerror : Err → List UInt8
  | .io => ascii "file open, stat, or mmap failed"
  | .format => ascii "not a valid .bpv vocabulary file"
  | .range => ascii "token id out of range"
  | .nomem => ascii "out of memory"
  | .arg => ascii "invalid argument"

/-- `open_vocab`. -/
def openVocab (w : World) (path : List UInt8) : Run (Except Exit BpVocab) := do
  let opened ← match w.image path with
    | none => pure (.error .io)
    | some map => bpVocabOpen w.host map
  match opened with
  | .error e => pure (.error (fail 3 "bytepair: %s: %s\n" [.text path, .text (bpStrerror e)]))
  | .ok v => pure (.ok v)

/-- `print_sanitized`. -/
def sanitized (s : List UInt8) : List UInt8 :=
  (cString s).flatMap fun b =>
    if b < 0x20 || b = 0x7F then
      ascii "\\x" ++ [(b.toNat / 16).digitChar.toUpper, (b.toNat % 16).digitChar.toUpper].map fun ch => UInt8.ofNat ch.toNat
    else [b]

variable (T : Tables)

section Encode

/-- `bytepair encode` and `bytepair count`. -/
def cmdEncode (w : World) (v : BpVocab) (counts : Bool) (file : Option (List UInt8)) (flags : Nat) : Run Exit := do
  match ← loadInput w file with
  | .error e => pure e
  | .ok ((text, len), m) =>
    match bpCtxNew v BP_CTX_DEFAULT_CACHE w.env (w.answers 0) with
    | none => pure ⟨4, [], []⟩
    | some c =>
      match ← bpCount T c (text.take len) flags with
      | (.error e, _) => pure (fail 4 "bytepair: %s\n" [.text (bpStrerror e)])
      | (.ok n, (c, _)) =>
        if counts then pure ⟨0, printed n ++ [0x0A], []⟩
        else
          match xmalloc m with
          | .error e => pure e
          | .ok _ =>
            match ← bpEncode T c (text.take len) (List.replicate n 0) flags with
            | (.error e, _) => pure (fail 4 "bytepair: %s\n" [.text (bpStrerror e)])
            | (.ok n₂, (_, ids)) =>
              if n₂ ≠ n then pure (fail 4 "bytepair: %s\n" [.text (bpStrerror .arg)])
              else
                let lines ← (List.range n).mapM fun i => do pure (printed (← index ids i) ++ [0x0A])
                pure ⟨0, lines.flatten, []⟩

end Encode

section Decode

/-- The variables of the loop over the text of ids. -/
structure Parsing where
  pos : Nat
  ids : List Nat
  cap : Nat
  m : Answers

/-- `ids[n++] = val`, with room made for it. -/
def Parsing.push (p : Parsing) (val pos : Nat) : Run (Except Exit Parsing) := do
  let (granted, m) := if p.ids.length = p.cap then ask p.m else (true, p.m)
  let cap := if p.ids.length = p.cap then p.cap * 2 else p.cap
  if granted then
    let ids ← append cap p.ids val
    pure (.ok ⟨pos, ids, cap, m⟩)
  else pure (.error ⟨4, [], []⟩)

/-- A round of that loop. -/
def parseRound (text : List UInt8) (len : Nat) (p : Parsing) : Run (Flow Parsing (Except Exit (List Nat × Answers))) := do
  if p.pos < len then
    let (val, used) ← strtoull (text.drop p.pos)
    if used = 0 then pure (.next { p with pos := p.pos + 1 })
    else if 0xFFFFFFFF < val then pure (.done (.error (fail 4 "bytepair: %s\n" [.text (bpStrerror .range)])))
    else
      match ← p.push val (p.pos + used) with
      | .error e => pure (.done (.error e))
      | .ok p => pure (.next p)
  else pure (.done (.ok (p.ids, p.m)))

/-- The ids in a text. -/
def parseIds (text : List UInt8) (len : Nat) (m : Answers) : Run (Except Exit (List Nat × Answers)) := do
  match xmalloc m with
  | .error e => pure (.error e)
  | .ok m => loop (parseRound text len) (len + 1) ⟨0, [], 1024, m⟩

/-- `bytepair decode`. -/
def cmdDecode (w : World) (v : BpVocab) (file : Option (List UInt8)) (flags : Nat) : Run Exit := do
  match ← loadInput w file with
  | .error e => pure e
  | .ok ((text, len), m) =>
    match ← parseIds text len m with
    | .error e => pure e
    | .ok (ids, m) =>
      match bpCtxNew v 0 w.env (w.answers 0) with
      | none => pure ⟨4, [], []⟩
      | some c =>
        match ← bpDecode c ids [] flags with
        | (.error e, _) => pure (fail 4 "bytepair: %s\n" [.text (bpStrerror e)])
        | (.ok outLen, _) =>
          match xmalloc m with
          | .error e => pure e
          | .ok _ =>
            let (_, out) ← bpDecode c ids (List.replicate outLen 0) flags
            pure ⟨0, ← slice out 0 outLen, []⟩

end Decode

section Bench

/-- A round of the loop that splits the text: the offsets so far, and the last of them. -/
def splitRound (cap : Nat) (text : List UInt8) (s : List Nat × Nat) (i : Nat) : Run (List Nat × Nat) := do
  let b ← index text i
  if b = 0x0A && 8192 ≤ i - s.2 then pure (← append cap s.1 (i + 1), i + 1) else pure s

/-- The offsets of the documents. -/
def splitDocs (text : List UInt8) (len : Nat) : Run (List Nat) := do
  let cap := len / 4096 + 2
  let off ← append cap [] 0
  let (off, last) ← (List.range len).foldlM (splitRound cap text) (off, 0)
  if last < len then append cap off len else pure off

/-- `bench_job`, with the variables of its worker; `c` is the worker's context. -/
structure BenchJob where
  d : Nat
  step : Nat
  tokens : Nat
  c : BpCtx

/-- A round of `bench_worker`, which ends with what was counted, or with a failure. -/
def benchRound (text : List UInt8) (off : List Nat) (ndocs flags : Nat) (j : BenchJob) :
    Run (Flow BenchJob (Option Nat)) := do
  if j.d < ndocs then
    let start ← index off j.d
    let doc ← slice text start ((← index off (j.d + 1)) - start)
    match ← bpCount T j.c doc flags with
    | (.error _, _) => pure (.done none)
    | (.ok n, (c, _)) => pure (.next ⟨j.d + j.step, j.step, j.tokens + n, c⟩)
  else pure (.done (some j.tokens))

/-- `bench_worker`. -/
def benchWorker (v : BpVocab) (env : Option (List UInt8)) (answers : Answers) (text : List UInt8) (off : List Nat)
    (ndocs first step flags : Nat) : Run (Option Nat) :=
  match bpCtxNew v BP_CTX_DEFAULT_CACHE env answers with
  | none => .ok none
  | some c => loop (benchRound T text off ndocs flags) (ndocs + 1) ⟨first, step, 0, c⟩

/-- The threads of a round are made one after another; the first that is refused ends the command. The workers that were made
before it are not joined: they go on while the frame with their jobs is left and the vocabulary is unmapped, and what they
read may be gone. -/
def createThreads (w : World) (threads round : Nat) : Run Bool :=
  match (List.range threads).find? fun t => !w.spawned (round * threads + t) with
  | none => .ok true
  | some 0 => .ok false
  | some (_ + 1) => .error .outOfBounds

/-- A round of `cmd_bench`: what its threads count in all, or the exit that ends it. -/
def benchThreads (w : World) (v : BpVocab) (text : List UInt8) (off : List Nat) (ndocs threads flags round : Nat) :
    Run (Except Exit Nat) := do
  if ← createThreads w threads round then
    let counts ← (List.range threads).mapM fun t =>
      benchWorker T v w.env (w.answers (round * threads + t)) text off ndocs t threads flags
    match counts.mapM id with
    | none => pure (.error (fail 4 "bytepair: bench worker failed\n" []))
    | some counts => pure (.ok counts.sum)
  else pure (.error ⟨4, [], []⟩)

/-- The rounds of `cmd_bench`. -/
def benchRounds (w : World) (v : BpVocab) (text : List UInt8) (off : List Nat) (ndocs threads flags : Nat) :
    List Nat → Run (Except Exit (List Nat))
  | [] => .ok (.ok [])
  | round :: rounds => do
    match ← benchThreads T w v text off ndocs threads flags round with
    | .error e => pure (.error e)
    | .ok sum => pure ((← benchRounds w v text off ndocs threads flags rounds).map (sum :: ·))

/-- `cmd_bench`. -/
def cmdBench (w : World) (v : BpVocab) (file : List UInt8) (threads : Int) (flags : Nat) : Run Exit := do
  match ← loadInput w (some file) with
  | .error e => pure e
  | .ok ((text, len), m) =>
    if len = 0 then pure (fail 2 "bytepair: bench: empty input\n" [])
    else
      match xmalloc m with
      | .error e => pure e
      | .ok _ =>
        let off ← splitDocs text len
        let ndocs := off.length - 1
        let threads := min threads.toNat 256
        match ← benchRounds T w v text off ndocs threads flags [0, 1, 2] with
        | .error e => pure e
        | .ok sums =>
          let tokens ← index sums w.fastest
          pure ⟨0, printed len ++ ascii " bytes, " ++ printed ndocs ++ ascii " docs, " ++ printed threads ++
            ascii " thread(s): " ++ w.speed tokens ++ ascii " (" ++ printed tokens ++ ascii " tokens, best of 3)\n", []⟩

end Bench

section Census

/-- `%8ld`. -/
def padded (n : Nat) : List UInt8 := List.replicate (8 - (printed n).length) 0x20 ++ printed n

/-- A line of the summary. -/
def summaryLine (label : String) (n : Nat) : List UInt8 := ascii label ++ padded n ++ [0x0A]

/-- What `bp_census_run` writes to `out`. -/
def censusSummary (n : Nat) (deep : Bool) (found : Census) : List UInt8 :=
  let verdicts verdict := found.rows.countP fun row => row.result.verdict = verdict
  let reasons reason := found.rows.countP fun row => row.result.verdict = .impossible && row.result.reason = reason
  ascii "census of " ++ printed n ++ ascii " tokens (" ++ (if deep then ascii "deep" else ascii "quick") ++
    ascii " search):\n" ++ summaryLine "  added        " (verdicts .added) ++ summaryLine "  self         " (verdicts .self) ++
    summaryLine "  context      " (verdicts .context) ++ summaryLine "  impossible   " (verdicts .impossible) ++
    summaryLine "    merge-order     " (reasons .mergeOrder) ++ summaryLine "    invalid-utf8    " (reasons .invalidUtf8) ++
    summaryLine "    pretoken-shape  " (reasons .pretokenShape) ++ summaryLine "    contraction     " (reasons .contraction) ++
    summaryLine "    nfc-excluded    " (reasons .nfcExcluded) ++ summaryLine "  unresolved   " (verdicts .unresolved) ++
    ascii "  witnesses re-verified: " ++ printed found.reverified ++ ascii ", failures: " ++ printed found.failed ++ [0x0A]

/-- What the arguments of `census` ask for; `json` is the file a report is written to. -/
structure CensusOpts where
  json : Option (List UInt8)
  deep : Bool
  limit : Nat

/-- An argument of `census` that is not a limit. -/
def censusArg (w : World) (opts : CensusOpts) (arg : List UInt8) : Except Exit CensusOpts :=
  if arg = ascii "--deep" then .ok { opts with deep := true }
  else if opts.json.isSome then .ok opts
  else if w.writable arg then .ok { opts with json := some arg }
  else .error (fail 2 "bytepair: %s: cannot open for writing\n" [.text arg])

/-- The loop over the arguments of `census`. -/
def censusArgs (w : World) (opts : CensusOpts) : List (List UInt8) → Run (Except Exit CensusOpts)
  | [] => .ok (.ok opts)
  | [arg] => .ok (censusArg w opts arg)
  | arg :: n :: rest =>
    if arg = ascii "--limit" then do censusArgs w { opts with limit := ← strtoul32 n } rest
    else
      match censusArg w opts arg with
      | .error e => .ok (.error e)
      | .ok opts => censusArgs w opts (n :: rest)

/-- `bytepair census`, on the vocabulary of `path`. A report that is written to the vocabulary's own file leaves nothing of
what is mapped, and the first offset that is read is gone. -/
def cmdCensus (w : World) (v : BpVocab) (path : List UInt8) (args : List (List UInt8)) : Run Exit := do
  match ← censusArgs w ⟨none, false, 0⟩ args with
  | .error e => pure e
  | .ok opts =>
    match bpCtxNew v BP_CTX_DEFAULT_CACHE w.env (w.answers 0) with
    | none => pure ⟨4, [], []⟩
    | some c =>
      if opts.json.any (w.sameFile path) then throw .outOfBounds
      let ((found, bad), _) ← bpCensusRun T v c opts.deep opts.limit
      pure ⟨if bad ≠ 0 then 4 else 0, censusSummary (censusCount v opts.limit) opts.deep found, []⟩

/-- The characters of a text as bytes. -/
def charBytes (s : List Char) : List UInt8 := s.map fun ch => UInt8.ofNat ch.toNat

/-- The first line on a token. -/
def witnessHead (t : Nat) (tb : List UInt8) (r : CensusResult) : List UInt8 :=
  ascii "id " ++ printed t ++ ascii "  bytes " ++ charBytes (putHex tb) ++ ascii "  verdict " ++
    charBytes (verdictName r.verdict) ++
    (if r.verdict = .impossible then ascii " (" ++ charBytes (reasonName r.reason) ++ ascii ")" else []) ++ [0x0A]

/-- An id of a witness; the token itself is marked. -/
def witnessWord (t id : Nat) : List UInt8 := ascii " " ++ printed id ++ (if id = t then ascii "*" else [])

/-- The lines on a witness. -/
def witnessLines (witness : List UInt8) (words : List (List UInt8)) : List UInt8 :=
  ascii "witness bytes " ++ charBytes (putHex witness) ++ ascii "\nencodes to:" ++ words.flatten ++ [0x0A]

/-- `bp_census_witness`: what it writes, if the id is one. -/
def bpCensusWitness (v : BpVocab) (c : BpCtx) (t : Nat) : Run (Option (List UInt8)) := do
  if v.hdr.vocabCount ≤ t then pure none
  else
    let (r, c) ← censusToken T v c t true
    let tb ← tokenSpan v t
    if r.witness.length ≠ 0 then
      match ← bpEncode T c r.witness (List.replicate (WMAX + 8) 0) 0 with
      | (.error _, _) => pure (some (witnessHead t tb r ++ witnessLines r.witness []))
      | (.ok n, (_, ids)) =>
        let words ← (List.range n).mapM fun i => do pure (witnessWord t (← index ids i))
        pure (some (witnessHead t tb r ++ witnessLines r.witness words))
    else pure (some (witnessHead t tb r))

/-- `bytepair witness`. -/
def cmdWitness (w : World) (v : BpVocab) (file : List UInt8) : Run Exit :=
  match bpCtxNew v BP_CTX_DEFAULT_CACHE w.env (w.answers 0) with
  | none => .ok ⟨4, [], []⟩
  | some c => do
    let t ← strtoul32 file
    match ← bpCensusWitness T v c t with
    | none => pure (fail 4 "witness: id %u out of range\n" [.int t])
    | some out => pure ⟨0, out, []⟩

end Census

section Main

/-- `parse_flags`: the flags, and the arguments that are none. -/
def parseFlags (args : List (List UInt8)) : Nat × List (List UInt8) :=
  args.foldl (fun (flags, rest) arg =>
    if arg = ascii "--raw" then (flags ||| BP_RAW, rest)
    else if arg = ascii "--scalar" then (flags ||| BP_FORCE_SCALAR, rest)
    else if arg = ascii "--skip-special" then (flags ||| BP_SKIP_SPECIAL, rest)
    else (flags, rest ++ [arg])) (0, [])

def usage : Exit := fail 1
  "usage: bytepair [--raw] [--scalar] [--skip-special] <command> ...\n  encode <vocab.bpv> [file]         ids to stdout, one per line\n  count  <vocab.bpv> [file]         token count to stdout\n  decode <vocab.bpv> [file]         ids (whitespace-separated) to text\n  bench  <vocab.bpv> <file> [N]     throughput with N threads (default 1)\n  census <vocab.bpv> [json] [--deep] [--limit N]\n                                    vocabulary reachability census\n  witness <vocab.bpv> <id>          one token's verdict and witness\n  info   <vocab.bpv>                vocabulary summary\n"
  []

def commands : List (List UInt8) :=
  [ascii "info", ascii "encode", ascii "count", ascii "decode", ascii "bench", ascii "census", ascii "witness"]

/-- `bytepair info`. -/
def cmdInfo (w : World) (v : BpVocab) : Exit :=
  ⟨0, ascii "name: " ++ sanitized v.metaName ++ ascii "\nvocab: " ++ printed v.hdr.vocabCount ++ ascii "\nversion: 0.1.0\nopen: " ++
    w.openTime ++ ascii " ms\n", []⟩

/-- A command on the open vocabulary of `path`; `args` are the arguments behind it. -/
def runCommand (w : World) (v : BpVocab) (cmd path : List UInt8) (args : List (List UInt8)) (flags : Nat) : Run Exit :=
  if cmd = ascii "info" then .ok (cmdInfo w v)
  else if cmd = ascii "encode" then cmdEncode T w v false args.head? flags
  else if cmd = ascii "count" then cmdEncode T w v true args.head? flags
  else if cmd = ascii "decode" then cmdDecode w v args.head? flags
  else if cmd = ascii "bench" then
    match args with
    | [] => .ok usage
    | file :: rest => do
      let threads ← rest.head?.elim (.ok 1) atoi
      cmdBench T w v file (if threads < 1 then 1 else threads) flags
  else if cmd = ascii "census" then cmdCensus T w v path args
  else
    match args with
    | [] => .ok usage
    | id :: _ => cmdWitness T w v id

/-- `main`; `args` are the arguments behind the name of the program. -/
def main (w : World) (args : List (List UInt8)) : Run Exit :=
  match parseFlags args with
  | (flags, cmd :: path :: args) =>
    if cmd ∈ commands then do
      match ← openVocab w path with
      | .error e => pure e
      | .ok v => runCommand T w v cmd path args flags
    else .ok usage
  | _ => .ok usage

end Main

end Bytepair.Cli
