import Bytepair.Support.Run
import Bytepair.Support.Search
import Bytepair.Support.Dict
import Bytepair.Support.Canonical
import Bytepair.Support.Composition
import Bytepair.Support.InPlace
import Bytepair.Support.Expansion
import Bytepair.Support.Regex
import Bytepair.Support.Greedy
import Bytepair.Support.Literal
import Bytepair.Support.BinaryHeap
import Bytepair.Support.Probing
import Bytepair.Support.Json
import Bytepair.Support.Numeral
import Bytepair.Support.Threads
import Bytepair.Support.Scatter
import Bytepair.Support.Steady
import Bytepair.Utf8
import Bytepair.Util
import Bytepair.Characters
import Bytepair.Tables.Layout
import Bytepair.Tables.Data
import Bytepair.Tables.Shipped
import Bytepair.Tables.Generate
import Bytepair.Tables.Emit
import Bytepair.Tables.Facts
import Bytepair.Nfc.Model
import Bytepair.Nfc.Refine
import Bytepair.Nfc.Coherent
import Bytepair.Nfc.Normal
import Bytepair.Nfc.Shipped
import Bytepair.Nfc.Reference
import Bytepair.Scan.Avx2
import Bytepair.Scan.Model
import Bytepair.Scan.Split
import Bytepair.Scan.Refine
import Bytepair.Scan.Shipped
import Bytepair.Probe.Model
import Bytepair.Probe.Engine
import Bytepair.Probe.Exact
import Bytepair.Probe.Generator
import Bytepair.Probe.Generated
import Bytepair.Vocab.Model
import Bytepair.Vocab.Valid
import Bytepair.Vocab.Matcher
import Bytepair.Vocab.Open
import Bytepair.Vocab.Lookup
import Bytepair.Vocab.Truncated
import Bytepair.Bpe.Model
import Bytepair.Bpe.Short
import Bytepair.Bpe.Chain
import Bytepair.Bpe.Long
import Bytepair.Bpe.Potential
import Bytepair.Bpe.Pretoken
import Bytepair.Bpe.Closed
import Bytepair.Bpe.Wrap
import Bytepair.Encode.Model
import Bytepair.Encode.Decode
import Bytepair.Encode.Match
import Bytepair.Encode.Refine
import Bytepair.Encode.Calls
import Bytepair.Encode.Known
import Bytepair.Encode.Opened
import Bytepair.Encode.Spans
import Bytepair.Encode.Merges
import Bytepair.Encode.Origin
import Bytepair.Encode.Long
import Bytepair.Encode.Cut
import Bytepair.Encode.Buffers
import Bytepair.Encode.Laws
import Bytepair.Encode.Used
import Bytepair.Convert.Model
import Bytepair.Convert.Layout
import Bytepair.Convert.Contents
import Bytepair.Convert.Sample
import Bytepair.Convert.Checks
import Bytepair.Convert.Table
import Bytepair.Convert.Built
import Bytepair.Convert.Faithful
import Bytepair.Convert.Verify
import Bytepair.Convert.Accepted
import Bytepair.Convert.Textbook
import Bytepair.Convert.Roundtrip
import Bytepair.Convert.Boundaries
import Bytepair.Convert.Framed
import Bytepair.Convert.Verified
import Bytepair.Convert.Selfcheck
import Bytepair.Convert.Trusted
import Bytepair.Census.Prover
import Bytepair.Census.Model
import Bytepair.Census.Fragments
import Bytepair.Census.Witness
import Bytepair.Census.Steady
import Bytepair.Census.Run
import Bytepair.Census.Verdicts
import Bytepair.Census.Boundary
import Bytepair.Census.Align
import Bytepair.Census.Language
import Bytepair.Census.Carried
import Bytepair.Census.Segments
import Bytepair.Census.Sound
import Bytepair.Census.Text
import Bytepair.Census.Report
import Bytepair.Dump.Model
import Bytepair.Dump.Checks
import Bytepair.Dump.Inspected
import Bytepair.Dump.Converted
import Bytepair.Dump.Sound
import Bytepair.Cli.Model
import Bytepair.Cli.Input
import Bytepair.Cli.Commands
import Bytepair.Cli.Bench
import Bytepair.Cli.Evidence
import Bytepair.Cli.Outcome
import Bytepair.Cli.Pipeline
