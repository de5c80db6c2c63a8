import Bytepair.Tables.Layout
import Bytepair.Tables.Data

/-!
# The shipped tables

`src/tables/bp_uctables.c` as it is in the repository: character classes of Unicode
16.0.0, normalization data of Unicode 9.0.0.
-/

namespace Bytepair

/-- The arrays of `bp_uctables.c` and their `BP_*_COUNT`s. -/
def shipped : Tables where
  ccIndex := Tables.bpCcIndex
  ccBlocks := Tables.bpCcBlocks
  cccIndex := Tables.bpCccIndex
  cccBlocks := Tables.bpCccBlocks
  qcCount := 116
  qcLo := Tables.bpQcLo
  qcHi := Tables.bpQcHi
  qcVal := Tables.bpQcVal
  decompCount := 2060
  decompCp := Tables.bpDecompCp
  decompOff := Tables.bpDecompOff
  decompLen := Tables.bpDecompLen
  decompPool := Tables.bpDecompPool
  composeCount := 940
  composeKey := Tables.bpComposeKey
  composeVal := Tables.bpComposeVal

example : shipped.bpDecomp 0x1E69 = [0x73, 0x323, 0x307] := by decide +kernel

example : shipped.bpCompose 0x1E63 0x307 = 0x1E69 := by decide +kernel

end Bytepair
