import Mathlib.Algebra.Group.Nat.Defs

/-!
# The shipped Unicode arrays

The constant arrays of `src/tables/bp_uctables.c`, entry for entry. An array is a list of
rows; a row spells its entries in order as one hexadecimal numeral with a fixed number of
digits an entry, and the last row is filled up with zeros. `cell` reads an entry of the
array `pack` makes of the rows.
-/

namespace Bytepair.Tables

/-- The rows, of `bits` bits each, as one number; the first row is the most significant. -/
def pack (bits : Nat) : List Nat → Nat → Nat
  | [], acc => acc
  | r :: rs, acc => pack bits rs (acc <<< bits ||| r)

/-- Entry `i` of packed rows whose entries have `width` bits and whose last entry,
filling included, is number `last`. -/
def cell (width last data i : Nat) : Nat :=
  data >>> (width * (last - i)) % 2 ^ width

/-- `bp_cc_index[4352]`, 256 entries of 2 digits a row. -/
def bpCcIndexRows : List Nat := [
  0x000102030405060708090A0B0C0D0E0F1001111213011415161718191A1B011C1D1E1F1F201F1F211F1F1F1F2223241F2526271F010101010101010101010101010101010101010101010101011B01010101010101010101010101010101010101010101010101010101010101010101010101010101010101010101010101010101010101010101010101010101010101010101010101010101010101010101010101012801292A2B2C2D2E010101010101010101010101010101010101010101010101010101010101010101010101010101010101012F1F1F1F1F1F1F1F1F1F1F1F1F1F1F1F1F1F1F1F1F1F1F1F1F1F1F1F1F1F1F1F1F1F01303101323334,
  0x35363738393A013B3C3D3E3F404142434445464748494A4B4C4D4E4F505152530101015455561F1F1F1F1F1F1F1F1F57010101015801010101010101010101010101015901015A1F1F1F1F1F1F1F1F1F1F1F1F1F1F1F1F1F1F1F1F1F1F1F1F1F1F5B1F1F1F1F1F1F01015C5D1F5E5F600101010101010101010101010101010101010101010101610101010162631F1F1F1F1F1F1F1F1F1F1F1F1F1F1F1F1F1F1F1F1F1F1F1F1F1F1F1F1F1F1F1F1F640165661F1F1F1F1F1F1F1F1F671F1F1F1F1F1F1F1F1F1F1F1F1F1F1F681F1F1F1F1F696A6B6C6D6E1F1F1F1F1F1F1F6F7071721F73741F7576771F1F78797A1F1F7B1F1F1F1F1F1F1F1F1F681F1F1F1F,
  0x010101010101010101010101010101010101010101010101010101010101010101010101010101010101010101010101010101010101010101010101010101010101010101010101010101010101010101010101010101010101010101010101010101010101010101010101010101010101010101010101010101010101010101010101010101010101010101010101010101010101010101010101010101010101010101017C010101010101010101010101010101017D7E0101010101010101010101010101010101010101017F01010101010101010101010101010101010101010101010101010101800101811F1F1F1F1F1F1F1F1F0101821F1F1F1F1F,
  0x0101010101010101010101010101010101010183010101010101010101010101010101841F1F1F1F1F1F1F1F1F1F1F1F1F1F1F1F1F1F1F1F1F1F1F1F1F1F1F1F1F1F1F1F1F1F1F1F1F1F1F1F1F1F1F1F1F1F1F1F1F1F1F1F1F1F1F1F1F1F1F1F1F1F1F1F1F1F1F1F1F1F1F1F1F1F1F1F1F1F1F1F1F1F1F1F1F1F1F1F1F1F1F1F1F1F1F1F1F1F1F1F1F1F1F1F1F1F1F1F1F1F1F1F1F1F1F1F1F1F1F1F1F1F1F1F1F1F1F1F1F1F1F1F1F1F1F1F1F1F1F1F1F1F1F1F1F1F1F1F1F1F1F1F1F1F1F1F1F1F1F1F1F1F1F1F1F1F1F1F1F1F1F1F1F1F1F1F1F1F1F1F1F1F1F1F1F1F1F1F1F1F1F1F1F1F1F1F1F1F1F1F1F1F1F1F1F1F1F1F1F1F1F1F1F1F1F1F1F1F1F1F,
  0x1F1F1F1F1F1F1F1F1F1F1F1F1F1F1F1F1F1F1F1F1F1F1F1F1F1F1F1F1F1F1F1F1F1F1F1F1F1F1F1F1F1F1F1F1F1F1F1F1F1F1F1F1F1F1F1F1F1F1F1F1F1F1F1F1F1F1F1F1F1F1F1F1F1F1F1F1F1F1F1F1F1F1F1F1F1F1F1F1F1F1F1F1F1F1F1F1F1F1F1F1F1F1F1F1F1F1F1F1F1F1F1F1F1F1F1F1F1F1F1F1F1F1F1F1F1F1F1F1F1F1F1F1F1F1F1F1F1F1F1F1F1F1F1F1F1F1F1F1F1F1F1F1F1F1F1F1F1F1F1F1F1F1F1F1F1F1F1F1F1F1F1F1F1F1F1F1F1F1F1F1F1F1F1F1F1F1F1F1F1F1F1F1F1F1F1F1F1F1F1F1F1F1F1F1F1F1F1F1F1F1F1F1F1F1F1F1F1F1F1F1F1F1F1F1F1F1F1F1F1F1F1F1F1F1F1F1F1F1F1F1F1F1F1F1F1F1F1F1F1F1F1F1F1F1F1F,
  0x1F1F1F1F1F1F1F1F1F1F1F1F1F1F1F1F1F1F1F1F1F1F1F1F1F1F1F1F1F1F1F1F1F1F1F1F1F1F1F1F1F1F1F1F1F1F1F1F1F1F1F1F1F1F1F1F1F1F1F1F1F1F1F1F1F1F1F1F1F1F1F1F1F1F1F1F1F1F1F1F1F1F1F1F1F1F1F1F1F1F1F1F1F1F1F1F1F1F1F1F1F1F1F1F1F1F1F1F1F1F1F1F1F1F1F1F1F1F1F1F1F1F1F1F1F1F1F1F1F1F1F1F1F1F1F1F1F1F1F1F1F1F1F1F1F1F1F1F1F1F1F1F1F1F1F1F1F1F1F1F1F1F1F1F1F1F1F1F1F1F1F1F1F1F1F1F1F1F1F1F1F1F1F1F1F1F1F1F1F1F1F1F1F1F1F1F1F1F1F1F1F1F1F1F1F1F1F1F1F1F1F1F1F1F1F1F1F1F1F1F1F1F1F1F1F1F1F1F1F1F1F1F1F1F1F1F1F1F1F1F1F1F1F1F1F1F1F1F1F1F1F1F1F1F1F1F,
  0x1F1F1F1F1F1F1F1F1F1F1F1F1F1F1F1F1F1F1F1F1F1F1F1F1F1F1F1F1F1F1F1F1F1F1F1F1F1F1F1F1F1F1F1F1F1F1F1F1F1F1F1F1F1F1F1F1F1F1F1F1F1F1F1F1F1F1F1F1F1F1F1F1F1F1F1F1F1F1F1F1F1F1F1F1F1F1F1F1F1F1F1F1F1F1F1F1F1F1F1F1F1F1F1F1F1F1F1F1F1F1F1F1F1F1F1F1F1F1F1F1F1F1F1F1F1F1F1F1F1F1F1F1F1F1F1F1F1F1F1F1F1F1F1F1F1F1F1F1F1F1F1F1F1F1F1F1F1F1F1F1F1F1F1F1F1F1F1F1F1F1F1F1F1F1F1F1F1F1F1F1F1F1F1F1F1F1F1F1F1F1F1F1F1F1F1F1F1F1F1F1F1F1F1F1F1F1F1F1F1F1F1F1F1F1F1F1F1F1F1F1F1F1F1F1F1F1F1F1F1F1F1F1F1F1F1F1F1F1F1F1F1F1F1F1F1F1F1F1F1F1F1F1F1F1F1F,
  0x1F1F1F1F1F1F1F1F1F1F1F1F1F1F1F1F1F1F1F1F1F1F1F1F1F1F1F1F1F1F1F1F1F1F1F1F1F1F1F1F1F1F1F1F1F1F1F1F1F1F1F1F1F1F1F1F1F1F1F1F1F1F1F1F1F1F1F1F1F1F1F1F1F1F1F1F1F1F1F1F1F1F1F1F1F1F1F1F1F1F1F1F1F1F1F1F1F1F1F1F1F1F1F1F1F1F1F1F1F1F1F1F1F1F1F1F1F1F1F1F1F1F1F1F1F1F1F1F1F1F1F1F1F1F1F1F1F1F1F1F1F1F1F1F1F1F1F1F1F1F1F1F1F1F1F1F1F1F1F1F1F1F1F1F1F1F1F1F1F1F1F1F1F1F1F1F1F1F1F1F1F1F1F1F1F1F1F1F1F1F1F1F1F1F1F1F1F1F1F1F1F1F1F1F1F1F1F1F1F1F1F1F1F1F1F1F1F1F1F1F1F1F1F1F1F1F1F1F1F1F1F1F1F1F1F1F1F1F1F1F1F1F1F1F1F1F1F1F1F1F1F1F1F1F1F1F,
  0x1F1F1F1F1F1F1F1F1F1F1F1F1F1F1F1F1F1F1F1F1F1F1F1F1F1F1F1F1F1F1F1F1F1F1F1F1F1F1F1F1F1F1F1F1F1F1F1F1F1F1F1F1F1F1F1F1F1F1F1F1F1F1F1F1F1F1F1F1F1F1F1F1F1F1F1F1F1F1F1F1F1F1F1F1F1F1F1F1F1F1F1F1F1F1F1F1F1F1F1F1F1F1F1F1F1F1F1F1F1F1F1F1F1F1F1F1F1F1F1F1F1F1F1F1F1F1F1F1F1F1F1F1F1F1F1F1F1F1F1F1F1F1F1F1F1F1F1F1F1F1F1F1F1F1F1F1F1F1F1F1F1F1F1F1F1F1F1F1F1F1F1F1F1F1F1F1F1F1F1F1F1F1F1F1F1F1F1F1F1F1F1F1F1F1F1F1F1F1F1F1F1F1F1F1F1F1F1F1F1F1F1F1F1F1F1F1F1F1F1F1F1F1F1F1F1F1F1F1F1F1F1F1F1F1F1F1F1F1F1F1F1F1F1F1F1F1F1F1F1F1F1F1F1F1F1F,
  0x1F1F1F1F1F1F1F1F1F1F1F1F1F1F1F1F1F1F1F1F1F1F1F1F1F1F1F1F1F1F1F1F1F1F1F1F1F1F1F1F1F1F1F1F1F1F1F1F1F1F1F1F1F1F1F1F1F1F1F1F1F1F1F1F1F1F1F1F1F1F1F1F1F1F1F1F1F1F1F1F1F1F1F1F1F1F1F1F1F1F1F1F1F1F1F1F1F1F1F1F1F1F1F1F1F1F1F1F1F1F1F1F1F1F1F1F1F1F1F1F1F1F1F1F1F1F1F1F1F1F1F1F1F1F1F1F1F1F1F1F1F1F1F1F1F1F1F1F1F1F1F1F1F1F1F1F1F1F1F1F1F1F1F1F1F1F1F1F1F1F1F1F1F1F1F1F1F1F1F1F1F1F1F1F1F1F1F1F1F1F1F1F1F1F1F1F1F1F1F1F1F1F1F1F1F1F1F1F1F1F1F1F1F1F1F1F1F1F1F1F1F1F1F1F1F1F1F1F1F1F1F1F1F1F1F1F1F1F1F1F1F1F1F1F1F1F1F1F1F1F1F1F1F1F1F1F,
  0x1F1F1F1F1F1F1F1F1F1F1F1F1F1F1F1F1F1F1F1F1F1F1F1F1F1F1F1F1F1F1F1F1F1F1F1F1F1F1F1F1F1F1F1F1F1F1F1F1F1F1F1F1F1F1F1F1F1F1F1F1F1F1F1F1F1F1F1F1F1F1F1F1F1F1F1F1F1F1F1F1F1F1F1F1F1F1F1F1F1F1F1F1F1F1F1F1F1F1F1F1F1F1F1F1F1F1F1F1F1F1F1F1F1F1F1F1F1F1F1F1F1F1F1F1F1F1F1F1F1F1F1F1F1F1F1F1F1F1F1F1F1F1F1F1F1F1F1F1F1F1F1F1F1F1F1F1F1F1F1F1F1F1F1F1F1F1F1F1F1F1F1F1F1F1F1F1F1F1F1F1F1F1F1F1F1F1F1F1F1F1F1F1F1F1F1F1F1F1F1F1F1F1F1F1F1F1F1F1F1F1F1F1F1F1F1F1F1F1F1F1F1F1F1F1F1F1F1F1F1F1F1F1F1F1F1F1F1F1F1F1F1F1F1F1F1F1F1F1F1F1F1F1F1F1F1F,
  0x1F1F1F1F1F1F1F1F1F1F1F1F1F1F1F1F1F1F1F1F1F1F1F1F1F1F1F1F1F1F1F1F1F1F1F1F1F1F1F1F1F1F1F1F1F1F1F1F1F1F1F1F1F1F1F1F1F1F1F1F1F1F1F1F1F1F1F1F1F1F1F1F1F1F1F1F1F1F1F1F1F1F1F1F1F1F1F1F1F1F1F1F1F1F1F1F1F1F1F1F1F1F1F1F1F1F1F1F1F1F1F1F1F1F1F1F1F1F1F1F1F1F1F1F1F1F1F1F1F1F1F1F1F1F1F1F1F1F1F1F1F1F1F1F1F1F1F1F1F1F1F1F1F1F1F1F1F1F1F1F1F1F1F1F1F1F1F1F1F1F1F1F1F1F1F1F1F1F1F1F1F1F1F1F1F1F1F1F1F1F1F1F1F1F1F1F1F1F1F1F1F1F1F1F1F1F1F1F1F1F1F1F1F1F1F1F1F1F1F1F1F1F1F1F1F1F1F1F1F1F1F1F1F1F1F1F1F1F1F1F1F1F1F1F1F1F1F1F1F1F1F1F1F1F1F1F,
  0x1F1F1F1F1F1F1F1F1F1F1F1F1F1F1F1F1F1F1F1F1F1F1F1F1F1F1F1F1F1F1F1F1F1F1F1F1F1F1F1F1F1F1F1F1F1F1F1F1F1F1F1F1F1F1F1F1F1F1F1F1F1F1F1F1F1F1F1F1F1F1F1F1F1F1F1F1F1F1F1F1F1F1F1F1F1F1F1F1F1F1F1F1F1F1F1F1F1F1F1F1F1F1F1F1F1F1F1F1F1F1F1F1F1F1F1F1F1F1F1F1F1F1F1F1F1F1F1F1F1F1F1F1F1F1F1F1F1F1F1F1F1F1F1F1F1F1F1F1F1F1F1F1F1F1F1F1F1F1F1F1F1F1F1F1F1F1F1F1F1F1F1F1F1F1F1F1F1F1F1F1F1F1F1F1F1F1F1F1F1F1F1F1F1F1F1F1F1F1F1F1F1F1F1F1F1F1F1F1F1F1F1F1F1F1F1F1F1F1F1F1F1F1F1F1F1F1F1F1F1F1F1F1F1F1F1F1F1F1F1F1F1F1F1F1F1F1F1F1F1F1F1F1F1F1F1F,
  0x1F1F1F1F1F1F1F1F1F1F1F1F1F1F1F1F1F1F1F1F1F1F1F1F1F1F1F1F1F1F1F1F1F1F1F1F1F1F1F1F1F1F1F1F1F1F1F1F1F1F1F1F1F1F1F1F1F1F1F1F1F1F1F1F1F1F1F1F1F1F1F1F1F1F1F1F1F1F1F1F1F1F1F1F1F1F1F1F1F1F1F1F1F1F1F1F1F1F1F1F1F1F1F1F1F1F1F1F1F1F1F1F1F1F1F1F1F1F1F1F1F1F1F1F1F1F1F1F1F1F1F1F1F1F1F1F1F1F1F1F1F1F1F1F1F1F1F1F1F1F1F1F1F1F1F1F1F1F1F1F1F1F1F1F1F1F1F1F1F1F1F1F1F1F1F1F1F1F1F1F1F1F1F1F1F1F1F1F1F1F1F1F1F1F1F1F1F1F1F1F1F1F1F1F1F1F1F1F1F1F1F1F1F1F1F1F1F1F1F1F1F1F1F1F1F1F1F1F1F1F1F1F1F1F1F1F1F1F1F1F1F1F1F1F1F1F1F1F1F1F1F1F1F1F1F1F,
  0x1F1F1F1F1F1F1F1F1F1F1F1F1F1F1F1F1F1F1F1F1F1F1F1F1F1F1F1F1F1F1F1F1F1F1F1F1F1F1F1F1F1F1F1F1F1F1F1F1F1F1F1F1F1F1F1F1F1F1F1F1F1F1F1F1F1F1F1F1F1F1F1F1F1F1F1F1F1F1F1F1F1F1F1F1F1F1F1F1F1F1F1F1F1F1F1F1F1F1F1F1F1F1F1F1F1F1F1F1F1F1F1F1F1F1F1F1F1F1F1F1F1F1F1F1F1F1F1F1F1F1F1F1F1F1F1F1F1F1F1F1F1F1F1F1F1F1F1F1F1F1F1F1F1F1F1F1F1F1F1F1F1F1F1F1F1F1F1F1F1F1F1F1F1F1F1F1F1F1F1F1F1F1F1F1F1F1F1F1F1F1F1F1F1F1F1F1F1F1F1F1F1F1F1F1F1F1F1F1F1F1F1F1F1F1F1F1F1F1F1F1F1F1F1F1F1F1F1F1F1F1F1F1F1F1F1F1F1F1F1F1F1F1F1F1F1F1F1F1F1F1F1F1F1F1F1F,
  0x1F1F1F1F1F1F1F1F1F1F1F1F1F1F1F1F1F1F1F1F1F1F1F1F1F1F1F1F1F1F1F1F1F1F1F1F1F1F1F1F1F1F1F1F1F1F1F1F1F1F1F1F1F1F1F1F1F1F1F1F1F1F1F1F1F1F1F1F1F1F1F1F1F1F1F1F1F1F1F1F1F1F1F1F1F1F1F1F1F1F1F1F1F1F1F1F1F1F1F1F1F1F1F1F1F1F1F1F1F1F1F1F1F1F1F1F1F1F1F1F1F1F1F1F1F1F1F1F1F1F1F1F1F1F1F1F1F1F1F1F1F1F1F1F1F1F1F1F1F1F1F1F1F1F1F1F1F1F1F1F1F1F1F1F1F1F1F1F1F1F1F1F1F1F1F1F1F1F1F1F1F1F1F1F1F1F1F1F1F1F1F1F1F1F1F1F1F1F1F1F1F1F1F1F1F1F1F1F1F1F1F1F1F1F1F1F1F1F1F1F1F1F1F1F1F1F1F1F1F1F1F1F1F1F1F1F1F1F1F1F1F1F1F1F1F1F1F1F1F1F1F1F1F1F1F1F,
  0x1F1F1F1F1F1F1F1F1F1F1F1F1F1F1F1F1F1F1F1F1F1F1F1F1F1F1F1F1F1F1F1F1F1F1F1F1F1F1F1F1F1F1F1F1F1F1F1F1F1F1F1F1F1F1F1F1F1F1F1F1F1F1F1F1F1F1F1F1F1F1F1F1F1F1F1F1F1F1F1F1F1F1F1F1F1F1F1F1F1F1F1F1F1F1F1F1F1F1F1F1F1F1F1F1F1F1F1F1F1F1F1F1F1F1F1F1F1F1F1F1F1F1F1F1F1F1F1F1F1F1F1F1F1F1F1F1F1F1F1F1F1F1F1F1F1F1F1F1F1F1F1F1F1F1F1F1F1F1F1F1F1F1F1F1F1F1F1F1F1F1F1F1F1F1F1F1F1F1F1F1F1F1F1F1F1F1F1F1F1F1F1F1F1F1F1F1F1F1F1F1F1F1F1F1F1F1F1F1F1F1F1F1F1F1F1F1F1F1F1F1F1F1F1F1F1F1F1F1F1F1F1F1F1F1F1F1F1F1F1F1F1F1F1F1F1F1F1F1F1F1F1F1F1F1F1F]

def bpCcIndex (i : Nat) : Nat := cell 8 4351 (pack 2048 bpCcIndexRows 0) i

/-- `bp_cc_blocks[34048]`, 256 entries of 1 digit a row. -/
def bpCcBlocksRows : List Nat := [
  0x0000000004C44C00000000000000000040000000000000002222222222000000011111111111111111111111111000000111111111111111111111111110000000000400000000000000000000000000400000000010000000220100021022201111111111111111111111101111111111111111111111111111111011111111,
  0x1111111111111111111111111111111111111111111111111111111111111111111111111111111111111111111111111111111111111111111111111111111111111111111111111111111111111111111111111111111111111111111111111111111111111111111111111111111111111111111111111111111111111111,
  0x1111111111111111111111111111111111111111111111111111111111111111111111111111111111111111111111111111111111111111111111111111111111111111111111111111111111111111111111111111111111111111111111111100001111111111110000000000000011111000000010100000000000000000,
  0x0000000000000000000000000000000000000000000000000000000000000000000000000000000000000000000000000000000000000000111110110011110100000010111010111111111111111111110111111111111111111111111111111111111111111111111111111111111111111111111111111111110111111111,
  0x1111111111111111111111111111111111111111111111111111111111111111111111111111111111111111111111111111111111111111111111111111111111000000001111111111111111111111111111111111111111111111111111111111111111111111111111111111111111111111111111111111111111111111,
  0x1111111111111111111111111111111111111111111111110111111111111111111111111111111111111110010000001111111111111111111111111111111111111111100000000000000000000000000000000000000000000000000000000000000000000000111111111111111111111111111000011110000000000000,
  0x0000000000000000000000000000000011111111111111111111111111111111111111111110000000000000000000002222222222000011011111111111111111111111111111111111111111111111111111111111111111111111111111111111111111111111111101000000000000000110000000112222222222111001,
  0x0000000000000000101111111111111111111111111111110000000000000000000000000000011111111111111111111111111111111111111111111111111111111111111111111111111111111111111111000000000001000000000000002222222222111111111111111111111111111111111000000000110000100000,
  0x1111111111111111111111000010000000001000100000000000000000000000111111111111111111111111100000001111111111100000111111111111111111111111011111100000000000000000111111111111111111111111111111111111111111000000000000000000000000000000000000000000000000000000,
  0x0000111111111111111111111111111111111111111111111111111111000100000000000000000010000000111111111100002222222222011111111111111110000111111110011001111111111111111111111011111110100011110001000000000000000010000000000000110111000022222222221100222222001000,
  0x0000011111100001100111111111111111111111101111111011011011000000000000000000000000000000011110100000002222222222001110000000000000000111111111011101111111111111111111111011111110110111110001000000000000000000100000000000000011000022222222220000000001000000,
  0x0000011111111001100111111111111111111111101111111011011111000100000000000000000000000000000011011100002222222222012222220000000000010111111000111011110001101011000110001110001111111111110000000000000000000000100000000000000000000022222222222220000000000000,
  0x0000011111111011101111111111111111111111101111111111111111000100000000000000000000000000111001001100002222222222000000002222222010000111111110111011111111111111111111111011111111110111110001000000000000000000000000000000011011000022222222220110000000000000,
  0x0000111111111011101111111111111111111111111111111111111111100100000000000000001000001110222222211100002222222222222222222011111100000111111111111111111000111111111111111111111111011111111101001111111000000000000000000000000000000022222222220000000000000000,
  0x0111111111111111111111111111111111111111111111111011000000000000111111100000000022222222220000000000000000000000000000000000000001101011111011111111111111111111111101011111111110110000000001001111101000000000222222222200111100000000000000000000000000000000,
  0x1000000000000000000000000000000022222222222222222222000000000000111111110111111111111111111111111111111111111000000000000000000000000000111110000000000000000000000000000000000000000000000000000000000000000000000000000000000000000000000000000000000000000000,
  0x1111111111111111111111111111111111111111111000000000000000000001222222222200000011111100001111000100011000000011100001111111111111000000000000102222222222000000111111111111111111111111111111111111110100000100111111111111111111111111111111111111111111101111,
  0x1111111111111111111111111111111111111111111111111111111111111111111111111011110011111110101111001111111111111111111111111111111111111111101111001111111111111111111111111111111110111100111111101011110011111111111111101111111111111111111111111111111111111111,
  0x1111111111111111101111001111111111111111111111111111111111111111111111111111111111111111111000000000000002222222222222222222200011111111111111110000000000000000111111111111111111111111111111111111111111111111111111111111111111111111111111111111110011111100,
  0x0111111111111111111111111111111111111111111111111111111111111111111111111111111111111111111111111111111111111111111111111111111111111111111111111111111111111111111111111111111111111111111111111111111111111111111111111111111111111111111111111111111111111111,
  0x1111111111111111111111111111111111111111111111111111111111111111111111111111111111111111111111111111111111111001111111111111111141111111111111111111111111100000111111111111111111111111111111111111111111111111111111111111111111111111111000222111111110000000,
  0x1111111111111111110000000000000111111111111111111100000000000000111111111111111111000000000000001111111111111011100000000000000011111111111111111111111111111111111111111111111111110000000000000000000000000000000000010000100022222222220000002222222222000000,
  0x0000000000000000222222222200000011111111111111111111111111111111111111111111111111111111111111111111111111111111111111111000000011111001111111111111111111111111111111111010000011111111111111111111111111111111111111111111111111111111111111111111110000000000,
  0x1111111111111111111111111111111000000000000000000000000000000000000000222222222211111111111111111111111111111100111110000000000011111111111111111111111111111111111111111111000011111111111111111111111111000000222222222220000000000000000000000000000000000000,
  0x1111111111111111111111100000000011111111111111111111111111111111111111111111111111111000000000000000000000000000000000000000000022222222220000002222222222000000000000010000000000000000000000000000000000000000000000000000000000000000000000000000000000000000,
  0x0000011111111111111111111111111111111111111111111111000000000000000001111111100022222222220000000000000000000000000000000000000000011111111111111111111111111111100000000000001122222222221111111111111111111111111111111111111111111100000000000000000000000000,
  0x1111111111111111111111111111111111110000000000000000000000000000222222222200011122222222221111111111111111111111111111111111110011111111111000001111111111111111111111111111111111111111111001110000000000000000000000000000000000000000011110111111011000100000,
  0x1111111111111111111111111111111111111111111111111111111111111111111111111111111111111111111111111111111111111111111111111111111111111111111111111111111111111111111111111111111111111111111111110000000000000000000000000000000000000000000000000000000000000000,
  0x1111111111111111111111001111110011111111111111111111111111111111111111001111110011111111010101011111111111111111111111111111110011111111111111111111111111111111111111111111111111111011111110100011101111111000111100111111000011111111111110000011101111111000,
  0x4444444444400000000000000000000000000000440000040000000000000000000000000000000000000000000000040000000000000000210022222200000122222222220000001111111111111000000000000000000000000000000000000000000000000000000000000000000000000000000000000000000000000000,
  0x0010000100111111111101000111110000001010101111011111111111001111000001111100001022222222222222222222222222222222222222222222222222211222220000000000000000000000000000000000000000000000000000000000000000000000000000000000000000000000000000000000000000000000,
  0x0000000000000000000000000000000000000000000000000000000000000000000000000000000000000000000000000000000000000000000000000000000000000000000000000000000000000000000000000000000000000000000000000000000000000000000000000000000000000000000000000000000000000000,
  0x0000000000000000000000000000000000000000000000000000000000000000000000000000000000000000000000002222222222222222222222222222222222222222222222222222222222220000000000000000000000000000000000000000000000000000000000000000000000000000002222222222222222222222,
  0x0000000000000000000000000000000000000000000000000000000000000000000000000000000000000000000000000000000000000000000000222222222222222222222222222222000000000000000000000000000000000000000000000000000000000000000000000000000000000000000000000000000000000000,
  0x1111111111111111111111111111111111111111111111111111111111111111111111111111111111111111111111111111111111111111111111111111111111111111111111111111111111111111111111111111111111111111111111111111111111111111111111111111111111111000000111100011000000000200,
  0x1111111111111111111111111111111111111101000001001111111111111111111111111111111111111111111111111111111100000001000000000000000011111111111111111111111000000000111111101111111011111110111111101111111011111110111111101111111000000000000000000000000000000000,
  0x0000000000000000000000000000000000000000000000010000000000000000000000000000000000000000000000000000000000000000000000000000000000000000000000000000000000000000000000000000000000000000000000000000000000000000000000000000000000000000000000000000000000000000,
  0x4000011200000000000000000000000002222222220000000111110022211000011111111111111111111111111111111111111111111111111111111111111111111111111111111111111000000111011111111111111111111111111111111111111111111111111111111111111111111111111111111111111111101111,
  0x0000011111111111111111111111111111111111111111110111111111111111111111111111111111111111111111111111111111111111111111111111111111111111111111100022220000000000111111111111111111111111111111110000000000000000000000000000000000000000000000001111111111111111,
  0x0000000000000000000000000000000022222222220000000000000000000000000000002222222202222222222222220000000000000000000000000000000022222222220000000000000000000000000000000000000002222222222222220000000000000000000000000000000000000000000000000000000000000000,
  0x1111111111111111111111111111111111111111111111111111111111111111111111111111111111111111111111111111111111111111111111111111111111111111111110000000000000000000000000000000000000000000000000000000000000000000111111111111111111111111111111111111111111111100,
  0x1111111111111000111111111111111122222222221100000000000000000000111111111111111111111111111111111111111111111110000000000000000111111111111111111111111111111100111111111111111111111111111111111111111111111111111111111111111111111122222222220000000000000000,
  0x0000000000000000000000011111111100111111111111111111111111111111111111111111111111111111111111111111111111111111111111111111111111111111100111111111111111111111111111111111111111111111111111111111111111111100110101111111100000000000000000000011111111111111,
  0x1101110111101111111111111111111111100000000000002222220000000000111111111111111111111111111111111111111111111111111100000000000000111111111111111111111111111111111111111111111111110000000000000000000000000000222222222200000000000000000000000011111100010110,
  0x2222222222111111111111111111111111111100000000001111111111111111111111100000000000000000000000001111111111111111111111111111100000001111111111111111111111111111111111111111111111100000000000000000000000000001222222222200000011111011111111112222222222111110,
  0x1111111111111111111111111111111111111111100000000000000000000000111011111111000022222222220000001111111111111111111111100010001111111111111111111111111111111111111111111111111101000110011111001010000000000000000000000001110011111111111000000011100000000000,
  0x0111111001111110011111100000000011111110111111101111111111111111111111111111111111111111111011111111111111000000111111111111111111111111111111111111111111111111111111111111111111111111111111111111111111111111111111111111111111100000000000002222222222000000,
  0x1111111111111111111111111111111111111111111111111111111111111111111111111111111111111111111111111111111111111111111111111111111111111111111111111111111111111111111100000000000011111111111111111111111000011111111111111111111111111111111111111111111111110000,
  0x1111111111111111111111111111111111111111111111111111111111111111111111111111111111111111111111111111111111111100111111111111111111111111111111111111111111111111111111111111111111111111111111111111111111111111111111111100000000000000000000000000000000000000,
  0x1111111000000000000111110000010111111111101111111111111011111010110110111111111111111111111111111111111111111111111111111111111111111111111111111111111111111111111111111111111111000000000000000000000000000000000111111111111111111111111111111111111111111111,
  0x1111111111111111111111111111111111111111111111111111111111111100000000000000000011111111111111111111111111111111111111111111111111111111111111110011111111111111111111111111111111111111111111111111111100000000000000000000000000000000000000001111111111110000,
  0x0000000000000000000000000000000000000000000000000000000000000000000000000000000000000000000000000000000000000000111110111111111111111111111111111111111111111111111111111111111111111111111111111111111111111111111111111111111111111111111111111111111111111000,
  0x0000000000000000222222222200000001111111111111111111111111100000011111111111111111111111111000000000001111111111111111111111111111111111111111111111111111111111111111111111111111111111111111100011111100111111001111110011100000000000000000000000000000000000,
  0x1111111111110111111111111111111111111110111111111111111111101101111111111111110011111111111111000000000000000000000000000000000011111111111111111111111111111111111111111111111111111111111111111111111111111111111111111111111111111111111111111111111111100000,
  0x0000000222222222222222222222222222222222222222222222000000000000222222222222222222222222222222222222222222222222222222222000000000000000002200000000000000000000000000000000000000000000000000000000000000000000000000000000000000000000000000000000000000000000,
  0x0000000000000000000000000000000000000000000000000000000000000000000000000000000000000000000000000000000000000000000000000000000011111111111111111111111111111000111111111111111111111111111111111111111111111111100000000000000002222222222222222222222222220000,
  0x1111111111111111111111111111111122220000000001111111111111111111121111111120000011111111111111111111111111111111111111000000000011111111111111111111111111111100111111111111111111111111111111111111000011111111022222000000000000000000000000000000000000000000,
  0x1111111111111111111111111111111111111111111111111111111111111111111111111111111111111111111111111111111111111111111111111111111111111111111111111111111111111100222222222200000011111111111111111111111111111111111100001111111111111111111111111111111111110000,
  0x1111111111111111111111111111111111111111000000001111111111111111111111111111111111111111111111111111000000000000111111111110111111111111111011111110110111111111110111111111111111011111110110001111111111111111111111111111111111111111111111111111000000000000,
  0x1111111111111111111111111111111111111111111111111111111000000000111111111111111111111100000000001111111100000000000000000000000011111101111111111111111111111111111111111111111110111111111000000000000000000000000000000000000000000000000000000000000000000000,
  0x1111110010111111111111111111111111111111111111111111110110001001111111111111111111111100222222221111111111111111111111100222222211111111111111111111111111111110000000022222222200000000000000000000000000000000000000000000000011111111111111111110110000022222,
  0x1111111111111111111111222222000011111111111111111111111111000000000000000000000000000000000000000000000000000000000000000000000011111111111111111111111111111111111111111111111111111111000022112222222222222222002222222222222222222222222222222222222222222222,
  0x1000000000000000111101110111111111111111111111111111110000000000222222222000000000000000000000001111111111111111111111111111122011111111111111111111111111111222000000000000000000000000000000001111111101111111111111111111111111111000000222220000000000000000,
  0x1111111111111111111111111111111111111111111111111111110000000000111111111111111111111100222222221111111111111111111000002222222211111111111111111100000000000000000000000222222200000000000000000000000000000000000000000000000000000000000000000000000000000000,
  0x1111111111111111111111111111111111111111111111111111111111111111111111111000000000000000000000000000000000000000000000000000000011111111111111111111111111111111111111111111111111100000000000001111111111111111111111111111111111111111111111111110000000222222,
  0x1111111111111111111111111111111111110000000000002222222222000000222222222211111111111111111111111111110000000001111111111111111111111100000000000000000000000000000000000000000000000000000000000000000000000000000000000000000000000000000000000000000000000000,
  0x0000000000000000000000000000000000000000000000000000000000000000000000000000000000000000000000002222222222222222222222222222222011111111111111111111111111111111111111111100000011000000000000000011100000000000000000000000000000000000000000000000000000000000,
  0x1111111111111111111111111111122222222221000000001111111111111111111111000000000002222000000000000000000000000000111111111111111111000000000000000000000000000000000000000000000011111111111111111111122222220000000000000000000011111111111111111111111000000000,
  0x0001111111111111111111111111111111111111111111111111111100000000000000000000000000222222222222222222222222222222011001000000000000011111111111111111111111111111111111111111111100000000000000000000000000000000111111111111111111111111100000002222222222000000,
  0x0001111111111111111111111111111111111110000000000000002222222222000010010000000011111111111111111111111111111111111000100000000000011111111111111111111111111111111111111111111111100000000000000111100000000000222222222210100002222222222222222222200000000000,
  0x1111111111111111110111111111111111111111111100000000000000000001100000000000000000000000000000000000000000000000000000000000000011111110101111011111111111111101111111111000000011111111111111111111111111111111111111111111111000000000000000002222222222000000,
  0x0000011111111001100111111111111111111111101111111011011111000100000000000000000010000000000001111100000000000000000000000000000011111111110100101111111111111111111111111111111111111101000000000000000000000000010100000000000000000000000000000000000000000000,
  0x1111111111111111111111111111111111111111111111111111100000000000000000011110000022222222220000011100000000000000000000000000000011111111111111111111111111111111111111111111111100000000000000000000110100000000222222222200000000000000000000000000000000000000,
  0x0000000000000000000000000000000000000000000000000000000000000000000000000000000000000000000000000000000000000000000000000000000011111111111111111111111111111111111111111111111000000000000000000000000000000000000000001111000000000000000000000000000000000000,
  0x1111111111111111111111111111111111111111111111110000000000000000000010000000000022222222220000000000000000000000000000000000000011111111111111111111111111111111111111111110000000000000100000002222222222000000222222222222222222220000000000000000000000000000,
  0x1111111111111111111111111110000000000000000000002222222222220000111111100000000000000000000000000000000000000000000000000000000000000000000000000000000000000000000000000000000000000000000000000000000000000000000000000000000000000000000000000000000000000000,
  0x1111111111111111111111111111111111111111111100000000000000000000000000000000000000000000000000000000000000000000000000000000000000000000000000000000000000000000111111111111111111111111111111111111111111111111111111111111111122222222222222222220000000000001,
  0x1111111001001111111101101111111111111111111111110000000000000001010000000000000022222222220000000000000000000000000000000000000000000000000000000000000000000000111111110011111111111111111111111111111111111111100000000000000001010000000000000000000000000000,
  0x1000000000011111111111111111111111111111111111111110000000100000000000000000000010000000000011111111111111111111111111111111111111111111110000000000000000000100000000000000000011111111111111111111111111111111111111111111111111111111111111111111111110000000,
  0x0000000000000000000000000000000000000000000000000000000000000000000000000000000000000000000000000000000000000000000000000000000000000000000000000000000000000000000000000000000000000000000000001111111111111111111111111111111110000000000000002222222222000000,
  0x1111111110111111111111111111111111111111111111100000000000000000100000000000000022222222222222222222222222222000001111111111111111111111111111110000000000000000000000000000000000000000000000000000000000000000000000000000000000000000000000000000000000000000,
  0x1111111011011111111111111111111111111111111111111000000000000000000000100000000022222222220000001111110110111111111111111111111111111111110000000000000010000000222222222200000000000000000000000000000000000000000000000000000000000000000000000000000000000000,
  0x0000000000000000000000000000000000000000000000000000000000000000000000000000000000000000000000000000000000000000000000000000000000000000000000000000000000000000000000000000000000000000000000000000000000000000000000000000000011111111111111111110000000000000,
  0x0010111111111111101111111111111111111111111111111111000000000000000000000000000022222222220000000000000000000000000000000000000000000000000000000000000000000000000000000000000010000000000000002222222222222222222220000000000000000000000000000000000000000000,
  0x1111111111111111111111111111111111111111111111111111111111111111111111111111111111111111111111111111111111111111111111111111111111111111111111111111111111000000000000000000000000000000000000000000000000000000000000000000000000000000000000000000000000000000,
  0x2222222222222222222222222222222222222222222222222222222222222222222222222222222222222222222222222222222222222220000000000000000011111111111111111111111111111111111111111111111111111111111111111111111111111111111111111111111111111111111111111111111111111111,
  0x1111111111111111111111111111111111111111111111111111111111111111111100000000000000000000000000000000000000000000000000000000000000000000000000000000000000000000000000000000000000000000000000000000000000000000000000000000000000000000000000000000000000000000,
  0x0000000000000000000000000000000000000000000000000000000000000000000000000000000000000000000000000000000000000000000000000000000000000000000000001111111111111111111111111111111111111111111111111111111111111111111111111111111111111111111111111000000000000000,
  0x1111111111111111111111111111111111111111111111110000000000000000011111100000000000000000000000001111111111111111111111111111111111111111111111111111111111111111111111111111111111111111111111111111111111111111111111111111111111111111111111111111111111111111,
  0x1111111111111111111111111111111111111111111111111111111111111111111111111111111111111111111111111111111111111111111111111111111111111111111111111111111111111111111111111111111111111111111111111111111111111111111111111111111111111111111111111111111111100000,
  0x1111111111111111111111111111111111111111111111111111111111111111111111100000000000000000000000000000000000000000000000000000000000000000000000000000000000000000000000000000000000000000000000000000000000000000000000000000000000000000000000000000000000000000,
  0x1111111111111111111111111111110000000000000000002222222222000000000000000000000000000000000000000000000000000000000000000000000000000000000000000000000000000000000000000000000000000000000000000000000000000000000000000000000000000000000000000000000000000000,
  0x1111111111111111111111111111111111111111111111111111111110000000111111111111111111111111111111102222222222000000111111111111111111111111111111111111111111111111111111111111111111111111111111102222222222000000111111111111111111111111111111000000000000000000,
  0x1111111111111111111111111111111111111111111111110000000000000000111100000000000022222222220222222201111111111111111111110000011111111111111111110000000000000000000000000000000000000000000000000000000000000000000000000000000000000000000000000000000000000000,
  0x0000000000000000000000000000000000000000000000000000000000000000111111111111111111111111111111111111111111111000222222222200000000000000000000000000000000000000000000000000000000000000000000000000000000000000000000000000000000000000000000000000000000000000,
  0x0000000000000000000000000000000000000000000000000000000000000000111111111111111111111111111111111111111111111111111111111111111122222222222222222222222000000000000000000000000000000000000000000000000000000000000000000000000000000000000000000000000000000000,
  0x1111111111111111111111111111111111111111111111111111111111111111111111111110000010000000000000000000000000000000000000000000000000000000000000000001111111111111000000000000000000000000000000000000000000000000000000000000000011010000000000000000000000000000,
  0x1111111111111111111111111111111111111111111111111111111111111111111111111111111111111111111111111111111111111111111111111111111111111111111111111111111111111111111111111111111111111111111111111111111111111111111111111111111111111111111111111111111100000000,
  0x1111111111111111111111111111111111111111111111111111111111111111111111111111111111111111111111111111111111111111111111111111111111111111111111111111111111111111111111111111111111111111111111111111111111111111111111000000000000000000000000000000000000000001,
  0x1111111110000000000000000000000000000000000000000000000000000000000000000000000000000000000000000000000000000000000000000000000000000000000000000000000000000000000000000000000000000000000000000000000000000000000000000000000000000000000000000000000000000000,
  0x0000000000000000000000000000000000000000000000000000000000000000000000000000000000000000000000000000000000000000000000000000000000000000000000000000000000000000000000000000000000000000000000000000000000000000000000000000000000000000000000001111011111110110,
  0x1111111111111111111111111111111111100000000000000010000000000000000000000000000011100100000000000000111100000000111111111111111111111111111111111111111111111111111111111111111111111111111111111111111111111111111111111111111111111111111111111111111111111111,
  0x1111111111111111111111111111111111111111111111111111111111111111111111111111111111111111111111111111111111111111111111111111111111111111111111111111111111111111111111111111111111111111111111111111111111111111111111111111111111111111111111111111111111110000,
  0x1111111111111111111111111111111111111111111111111111111111111111111111111111111111111111111111111111111111100000111111111111100011111111100000001111111111000000000000000000000000000000000000000000000000000000000000000000000000000000000000000000000000000000,
  0x0000000000000000000000000000000000000000000000000000000000000000000000000000000000000000000000000000000000000000000000000000000000000000000000000000000000000000000000000000000000000000000000000000000000000000000000000000000000000000000000002222222222000000,
  0x0000000000000000000000000000000000000000000000000000000000000000000000000000000000000000000000000000000000000000000000000000000000000000000000000000000000000000000000000000000000000000000000002222222222222222222200000000000022222222222222222222000000000000,
  0x0000000000000000000000000000000000000000000000000000000000000000000000000000000000000000000000002222222222222222222222222000000000000000000000000000000000000000000000000000000000000000000000000000000000000000000000000000000000000000000000000000000000000000,
  0x1111111111111111111111111111111111111111111111111111111111111111111111111111111111111011111111111111111111111111111111111111111111111111111111111111111111111011001001100111101111111111110101111111011111111111111111111111111111111111111111111111111111111111,
  0x1111110111100111111110111111101111111111111111111111111111011110111110100011111110111111111111111111111111111111111111111111111111111111111111111111111111111111111111111111111111111111111111111111111111111111111111111111111111111111111111111111111111111111,
  0x1111111111111111111111111111111111111111111111111111111111111111111111111111111111111111111111111111111111111111111111111111111111111111111111111111111111111111111111001111111111111111111111111011111111111111111111111110111111111111111111111111111111101111,
  0x1111111111111111111110111111111111111111111111111111101111111111111111111111111011111111111111111111111111111110111111111111111111111111101111111111111111111111111111111011111111111111111111111110111111110022222222222222222222222222222222222222222222222222,
  0x1111111111111111111111111111111000000111111000000000000000000000000000000000000000000000000000000000000000000000000000000000000000000000000000000000000000000000000000000000000000000000000000000000000000000000000000000000000000000000000000000000000000000000,
  0x0000000000000000000000000000000000000000000000001111111111111111111111111111111111111111111111111111111111111100000000000000000000000000000000000000000000000000000000000000000000000000000000000000000000000000000000000000000000000000000000000000000000000000,
  0x1111111111111111111111111111111111111111111110000000000111111100222222222200001000000000000000000000000000000000000000000000000000000000000000000000000000000000000000000000000000000000000000000000000000000000000000000000000000000000000000000000000000000000,
  0x0000000000000000000000000000000000000000000000000000000000000000000000000000000000000000000000000000000000000000000000000000000000000000000000001111111111111111111111111111110000000000000000001111111111111111111111111111111111111111111100002222222222000000,
  0x0000000000000000000000000000000000000000000000000000000000000000000000000000000000000000000000000000000000000000000000000000000000000000000000000000000000000000000000000000000000000000000000000000000000000000111111111111111111111111111100002222222222000000,
  0x0000000000000000000000000000000000000000000000000000000000000000000000000000000000000000000000000000000000000000000000000000000000000000000000000000000000000000000000000000000000000000000000000000000000000000111111111111111111111111111111001222222222200000,
  0x0000000000000000000000000000000000000000000000000000000000000000000000000000000000000000000000000000000000000000000000000000000000000000000000000000000000000000000000000000000000000000000000000000000000000000000000000000000011111110111101101111111111111110,
  0x1111111111111111111111111111111111111111111111111111111111111111111111111111111111111111111111111111111111111111111111111111111111111111111111111111111111111111111111111111111111111111111111111111100222222222000000000000000000000000000000000000000000000000,
  0x1111111111111111111111111111111111111111111111111111111111111111111100000001000022222222220000000000000000000000000000000000000000000000000000000000000000000000000000000000000000000000000000000000000000000000000000000000000000000000000000000000000000000000,
  0x0000000000000000000000000000000000000000000000000000000000000000000000000000000000000000000000000000000000000000022222222222222222222222222222222222222222222222222222222222022202222000000000000000000000000000000000000000000000000000000000000000000000000000,
  0x0222222222222222222222222222222222222222222222022222222222222200000000000000000000000000000000000000000000000000000000000000000000000000000000000000000000000000000000000000000000000000000000000000000000000000000000000000000000000000000000000000000000000000,
  0x1111011111111111111111111111111101101001011111111110111101010000001000010101011101101001010101010110100111101111111011110111101011111111110111111111111111110000011101111101111111111111111100000000000000000000000000000000000000000000000000000000000000000000,
  0x2222222222222000000000000000000000000000000000000000000000000000000000000000000000000000000000000000000000000000000000000000000000000000000000000000000000000000000000000000000000000000000000000000000000000000000000000000000000000000000000000000000000000000,
  0x1111111111111111111111111111111111111111111111111111111111111111111111111111111111111111111111111111111111111111111111111111111111111111111111111111111111111111111111111111111111111111111111111111111111111111111111111111111100000000000000000000000000000000,
  0x1111111111111111111111111111111111111111111111111111111111000000111111111111111111111111111111111111111111111111111111111111111111111111111111111111111111111111111111111111111111111111111111111111111111111111111111111111111111111111111111111111111111111111,
  0x1111111111111111111111111111110011111111111111111111111111111111111111111111111111111111111111111111111111111111111111111111111111111111111111111111111111111111111111111111111111111111111111111111111111111111111111111111111111111111111111111111111111111111,
  0x1111111111111111111111111111111111111111111111111111111111111111111111111111111111111111111111111111111111111111111111111111111111111111111111111111111111111111110000000000000011111111111111111111111111111111111111111111111111111111111111111111111111111111,
  0x1111111111111111111111111111111111111111111111111111111111111111111111111111111111111111111111111111111111111111111111111111111111111111111111111111111111111111111111111111111111111111111111111111111111111111111111111111111110000000000000001111111111111111,
  0x1111111111111111111111111111111111111111111111111111111111111111111111111111111111111111111111000000000000000000000000000000000000000000000000000000000000000000000000000000000000000000000000000000000000000000000000000000000000000000000000000000000000000000,
  0x1111111111111111111111111111110000000000000000000000000000000000000000000000000000000000000000000000000000000000000000000000000000000000000000000000000000000000000000000000000000000000000000000000000000000000000000000000000000000000000000000000000000000000,
  0x1111111111111111111111111111111111111111111111111111111111111111111111111110000011111111111111111111111111111111111111111111111111111111111111111111111111111111111111111111111111111111111111111111111111111111111111111111111111111111111111111111111111111111,
  0x1111111111111111111111111111111111111111111111111111111111111111111111111111111111111111111111111111111111111111111111111111111111111111111111111111111111111111111111111111111100000000000000000000000000000000000000000000000000000000000000000000000000000000]

def bpCcBlocks (i : Nat) : Nat := cell 4 34047 (pack 1024 bpCcBlocksRows 0) i

/-- `bp_ccc_index[4352]`, 256 entries of 2 digits a row. -/
def bpCccIndexRows : List Nat := [
  0x0000000102030405060708090A0B0C0D0E00000F000000101112131415160000170000000000000000000000181900001A0000000000000000000000000000000000000000000000000000000000000000000000000000000000000000000000000000000000000000000000000000000000000000000000000000000000000000000000000000000000000000000000000000000000000000000000000000000000000000001B001C1D1E1F000000000000000000000000000000000000000000000000000000000000000000000000000000000000000000000000000000000000000000000000000000000000000000000000000000000000002000002100,
  0x00222324000000000000250000000000262728292A2B2C2D000000002E00000000000000000000000000000000000000000000000000000000000000000000000000000000000000000000000000000000000000000000000000000000000000000000000000000000002F3000000000000000000000000000000000000000000000000000000000000000000000000000000000000000000000000000000000000000000000000000000000000000000000000000000000000000003100000000000000000000000000000000000000003233000000000000000000000000003400000000000000353600000000000000000000000000000000000000000000,
  0x00000000000000000000000000000000000000000000000000000000000000000000000000000000000000000000000000000000000000000000000000000000000000000000000000000000000000000000000000000000000000000000000000000000000000000000000000000000000000000000000000000000000000000000000000000000000000000000000000000000000000000000000000000000000000000000000000000000000000000000000000000000000000000000000000000000000000000000000000000000000000000000000000000000000000000000000000000000000000000000000000000000000000000000000000000000,
  0x00000000000000000000000000000000000000000000000000000000000000000000000000000000000000000000000000000000000000000000000000000000000000000000000000000000000000000000000000000000000000000000000000000000000000000000000000000000000000000000000000000000000000000000000000000000000000000000000000000000000000000000000000000000000000000000000000000000000000000000000000000000000000000000000000000000000000000000000000000000000000000000000000000000000000000000000000000000000000000000000000000000000000000000000000000000,
  0x00000000000000000000000000000000000000000000000000000000000000000000000000000000000000000000000000000000000000000000000000000000000000000000000000000000000000000000000000000000000000000000000000000000000000000000000000000000000000000000000000000000000000000000000000000000000000000000000000000000000000000000000000000000000000000000000000000000000000000000000000000000000000000000000000000000000000000000000000000000000000000000000000000000000000000000000000000000000000000000000000000000000000000000000000000000,
  0x00000000000000000000000000000000000000000000000000000000000000000000000000000000000000000000000000000000000000000000000000000000000000000000000000000000000000000000000000000000000000000000000000000000000000000000000000000000000000000000000000000000000000000000000000000000000000000000000000000000000000000000000000000000000000000000000000000000000000000000000000000000000000000000000000000000000000000000000000000000000000000000000000000000000000000000000000000000000000000000000000000000000000000000000000000000,
  0x00000000000000000000000000000000000000000000000000000000000000000000000000000000000000000000000000000000000000000000000000000000000000000000000000000000000000000000000000000000000000000000000000000000000000000000000000000000000000000000000000000000000000000000000000000000000000000000000000000000000000000000000000000000000000000000000000000000000000000000000000000000000000000000000000000000000000000000000000000000000000000000000000000000000000000000000000000000000000000000000000000000000000000000000000000000,
  0x00000000000000000000000000000000000000000000000000000000000000000000000000000000000000000000000000000000000000000000000000000000000000000000000000000000000000000000000000000000000000000000000000000000000000000000000000000000000000000000000000000000000000000000000000000000000000000000000000000000000000000000000000000000000000000000000000000000000000000000000000000000000000000000000000000000000000000000000000000000000000000000000000000000000000000000000000000000000000000000000000000000000000000000000000000000,
  0x00000000000000000000000000000000000000000000000000000000000000000000000000000000000000000000000000000000000000000000000000000000000000000000000000000000000000000000000000000000000000000000000000000000000000000000000000000000000000000000000000000000000000000000000000000000000000000000000000000000000000000000000000000000000000000000000000000000000000000000000000000000000000000000000000000000000000000000000000000000000000000000000000000000000000000000000000000000000000000000000000000000000000000000000000000000,
  0x00000000000000000000000000000000000000000000000000000000000000000000000000000000000000000000000000000000000000000000000000000000000000000000000000000000000000000000000000000000000000000000000000000000000000000000000000000000000000000000000000000000000000000000000000000000000000000000000000000000000000000000000000000000000000000000000000000000000000000000000000000000000000000000000000000000000000000000000000000000000000000000000000000000000000000000000000000000000000000000000000000000000000000000000000000000,
  0x00000000000000000000000000000000000000000000000000000000000000000000000000000000000000000000000000000000000000000000000000000000000000000000000000000000000000000000000000000000000000000000000000000000000000000000000000000000000000000000000000000000000000000000000000000000000000000000000000000000000000000000000000000000000000000000000000000000000000000000000000000000000000000000000000000000000000000000000000000000000000000000000000000000000000000000000000000000000000000000000000000000000000000000000000000000,
  0x00000000000000000000000000000000000000000000000000000000000000000000000000000000000000000000000000000000000000000000000000000000000000000000000000000000000000000000000000000000000000000000000000000000000000000000000000000000000000000000000000000000000000000000000000000000000000000000000000000000000000000000000000000000000000000000000000000000000000000000000000000000000000000000000000000000000000000000000000000000000000000000000000000000000000000000000000000000000000000000000000000000000000000000000000000000,
  0x00000000000000000000000000000000000000000000000000000000000000000000000000000000000000000000000000000000000000000000000000000000000000000000000000000000000000000000000000000000000000000000000000000000000000000000000000000000000000000000000000000000000000000000000000000000000000000000000000000000000000000000000000000000000000000000000000000000000000000000000000000000000000000000000000000000000000000000000000000000000000000000000000000000000000000000000000000000000000000000000000000000000000000000000000000000,
  0x00000000000000000000000000000000000000000000000000000000000000000000000000000000000000000000000000000000000000000000000000000000000000000000000000000000000000000000000000000000000000000000000000000000000000000000000000000000000000000000000000000000000000000000000000000000000000000000000000000000000000000000000000000000000000000000000000000000000000000000000000000000000000000000000000000000000000000000000000000000000000000000000000000000000000000000000000000000000000000000000000000000000000000000000000000000,
  0x00000000000000000000000000000000000000000000000000000000000000000000000000000000000000000000000000000000000000000000000000000000000000000000000000000000000000000000000000000000000000000000000000000000000000000000000000000000000000000000000000000000000000000000000000000000000000000000000000000000000000000000000000000000000000000000000000000000000000000000000000000000000000000000000000000000000000000000000000000000000000000000000000000000000000000000000000000000000000000000000000000000000000000000000000000000,
  0x00000000000000000000000000000000000000000000000000000000000000000000000000000000000000000000000000000000000000000000000000000000000000000000000000000000000000000000000000000000000000000000000000000000000000000000000000000000000000000000000000000000000000000000000000000000000000000000000000000000000000000000000000000000000000000000000000000000000000000000000000000000000000000000000000000000000000000000000000000000000000000000000000000000000000000000000000000000000000000000000000000000000000000000000000000000,
  0x00000000000000000000000000000000000000000000000000000000000000000000000000000000000000000000000000000000000000000000000000000000000000000000000000000000000000000000000000000000000000000000000000000000000000000000000000000000000000000000000000000000000000000000000000000000000000000000000000000000000000000000000000000000000000000000000000000000000000000000000000000000000000000000000000000000000000000000000000000000000000000000000000000000000000000000000000000000000000000000000000000000000000000000000000000000]

def bpCccIndex (i : Nat) : Nat := cell 8 4351 (pack 2048 bpCccIndexRows 0) i

/-- `bp_ccc_blocks[14080]`, 256 entries of 2 digits a row. -/
def bpCccBlocksRows : List Nat := [
  0x00000000000000000000000000000000000000000000000000000000000000000000000000000000000000000000000000000000000000000000000000000000000000000000000000000000000000000000000000000000000000000000000000000000000000000000000000000000000000000000000000000000000000000000000000000000000000000000000000000000000000000000000000000000000000000000000000000000000000000000000000000000000000000000000000000000000000000000000000000000000000000000000000000000000000000000000000000000000000000000000000000000000000000000000000000000,
  0xE6E6E6E6E6E6E6E6E6E6E6E6E6E6E6E6E6E6E6E6E6E8DCDCDCDCE8D8DCDCDCDCDCCACADCDCDCDCCACADCDCDCDCDCDCDCDCDCDCDC0101010101DCDCDCDCE6E6E6E6E6E6E6E6F0E6DCDCDCE6E6E6DCDC00E6E6E6DCDCDCDCE6E8DCDCE6E9EAEAE9EAEAE9E6E6E6E6E6E6E6E6E6E6E6E6E6000000000000000000000000000000000000000000000000000000000000000000000000000000000000000000000000000000000000000000000000000000000000000000000000000000000000000000000000000000000000000000000000000000000000000000000000000000000000000000000000000000000000000000000000000000000000000000000000,
  0x0000000000000000000000000000000000000000000000000000000000000000000000000000000000000000000000000000000000000000000000000000000000000000000000000000000000000000000000000000000000000000000000000000000000000000000000000000000000000000000000000000000000000000000000E6E6E6E6E6000000000000000000000000000000000000000000000000000000000000000000000000000000000000000000000000000000000000000000000000000000000000000000000000000000000000000000000000000000000000000000000000000000000000000000000000000000000000000000000000,
  0x00000000000000000000000000000000000000000000000000000000000000000000000000000000000000000000000000000000000000000000000000000000000000000000000000000000000000000000000000000000000000000000000000000000000000000000000000000000000000000000000000000000000000000000000000000000000000000000000000DCE6E6E6E6DCE6E6E6DEDCE6E6E6E6E6E6DCDCDCDCDCDCE6E6DCE6E6DEE4E60A0B0C0D0E0F1011121313141516001700181900E6DC00120000000000000000000000000000000000000000000000000000000000000000000000000000000000000000000000000000000000000000,
  0x00000000000000000000000000000000E6E6E6E6E6E6E6E61E1F200000000000000000000000000000000000000000000000000000000000000000000000000000000000000000000000001B1C1D1E1F202122E6E6DCDCE6E6E6E6E6DCE6E6DC00000000000000000000000000000000230000000000000000000000000000000000000000000000000000000000000000000000000000000000000000000000000000000000000000000000000000000000000000000000000000000000000000000000000000000000000000000000000000000000E6E6E6E6E6E6E60000E6E6E6E6DCE60000E6E600DCE6E6DC000000000000000000000000000000000000,
  0x000000000000000000000000000000000024000000000000000000000000000000000000000000000000000000000000E6DCE6E6DCE6E6DCDCDCE6DCDCE6DCE6E6E6DCE6DCE6DCE6DCE6E600000000000000000000000000000000000000000000000000000000000000000000000000000000000000000000000000000000000000000000000000000000000000000000000000000000000000000000000000000000000000000000000000000000000000000000000000000000000000000000000000000000000000000000000000000000000000000000000000000000000000000000000000000000E6E6E6E6E6E6E6DCE6000000000000000000000000,
  0x00000000000000000000000000000000000000000000E6E6E6E600E6E6E6E6E6E6E6E6E600E6E6E600E6E6E6E6E600000000000000000000000000000000000000000000000000000000000000000000000000000000000000DCDCDC000000000000000000000000000000000000000000000000000000000000000000000000000000000000000000000000000000000000000000000000000000000000000000000000000000000000000000000000000000000000000000000000000000000000000000000000000000000000000000000000E6E6E6E6E6E6E6E6E6E6E6E6E6E600DCE6E6DCE6E6DCE6E6E6DCDCDC1B1C1DE6E6E6DCE6E6DCDCE6E6E6E6E6,
  0x000000000000000000000000000000000000000000000000000000000000000000000000000000000000000000000000000000000000000000000000070000000000000000000000000000000009000000E6DCE6E6000000000000000000000000000000000000000000000000000000000000000000000000000000000000000000000000000000000000000000000000000000000000000000000000000000000000000000000000000000000000000000000000000000000000000700000000000000000000000000000000090000000000000000000000000000000000000000000000000000000000000000000000000000000000000000000000000000,
  0x00000000000000000000000000000000000000000000000000000000000000000000000000000000000000000000000000000000000000000000000007000000000000000000000000000000000900000000000000000000000000000000000000000000000000000000000000000000000000000000000000000000000000000000000000000000000000000000000000000000000000000000000000000000000000000000000000000000000000000000000000000000000000000700000000000000000000000000000000090000000000000000000000000000000000000000000000000000000000000000000000000000000000000000000000000000,
  0x00000000000000000000000000000000000000000000000000000000000000000000000000000000000000000000000000000000000000000000000007000000000000000000000000000000000900000000000000000000000000000000000000000000000000000000000000000000000000000000000000000000000000000000000000000000000000000000000000000000000000000000000000000000000000000000000000000000000000000000000000000000000000000000000000000000000000000000000000090000000000000000000000000000000000000000000000000000000000000000000000000000000000000000000000000000,
  0x00000000000000000000000000000000000000000000000000000000000000000000000000000000000000000000000000000000000000000000000000000000000000000000000000000000000900000000000000545B00000000000000000000000000000000000000000000000000000000000000000000000000000000000000000000000000000000000000000000000000000000000000000000000000000000000000000000000000000000000000000000000000000000000700000000000000000000000000000000090000000000000000000000000000000000000000000000000000000000000000000000000000000000000000000000000000,
  0x00000000000000000000000000000000000000000000000000000000000000000000000000000000000000000000000000000000000000000000000000000000000000000000000000000000000900000000000000000000000000000000000000000000000000000000000000000000000000000000000000000000000000000000000000000000000000000000000000000000000000000000000000000000000000000000000000000000000000000000000000000000000000000000000000000000000000000000090000000000000000000000000000000000000000000000000000000000000000000000000000000000000000000000000000000000,
  0x0000000000000000000000000000000000000000000000000000000000000000000000000000000000000000000000000000000000000000676709000000000000000000000000006B6B6B6B000000000000000000000000000000000000000000000000000000000000000000000000000000000000000000000000000000000000000000000000000000000000000000000000000000000000000000000000000000000000000000000000000000000000000000000000767600000000000000000000000000007A7A7A7A00000000000000000000000000000000000000000000000000000000000000000000000000000000000000000000000000000000,
  0x000000000000000000000000000000000000000000000000DCDC000000000000000000000000000000000000000000000000000000DC00DC00D8000000000000000000000000000000000000000000000000000000000000000000000000000000000000000000000000000000000000008182008400000000008282828200008200E6E60900E6E60000000000000000000000000000000000000000000000000000000000000000000000000000000000000000000000000000000000000000000000000000DC000000000000000000000000000000000000000000000000000000000000000000000000000000000000000000000000000000000000000000,
  0x000000000000000000000000000000000000000000000000000000000000000000000000000000000000000000000000000000000000000700090900000000000000000000000000000000000000000000000000000000000000000000000000000000000000000000000000000000000000000000000000000000000000000000000000000000000000000000DC000000000000000000000000000000000000000000000000000000000000000000000000000000000000000000000000000000000000000000000000000000000000000000000000000000000000000000000000000000000000000000000000000000000000000000000000000000000000,
  0x000000000000000000000000000000000000000000000000000000000000000000000000000000000000000000000000000000000000000000000000000000000000000000000000000000000000000000000000000000000000000000E6E6E600000000000000000000000000000000000000000000000000000000000000000000000000000000000000000000000000000000000000000000000000000000000000000000000000000000000000000000000000000000000000000000000000000000000000000000000000000000000000000000000000000000000000000000000000000000000000000000000000000000000000000000000000000000,
  0x0000000000000000000000000000000000000000090000000000000000000000000000000000000000000000000000000000000009000000000000000000000000000000000000000000000000000000000000000000000000000000000000000000000000000000000000000000000000000000000000000000000000000000000000000000000000000000000000000000000000000000000000000000000000000000000000000000000000000000000000000000000000000000000000000000000000000000000000000000000000000900000000000000000000E600000000000000000000000000000000000000000000000000000000000000000000,
  0x00000000000000000000000000000000000000000000000000000000000000000000000000000000000000000000000000000000000000000000000000000000000000000000000000000000000000000000000000000000000000000000000000000000000000000000000000000000000000000000000000000000000000000000000000000000000000000000000000000000000000000000000000000000000000000000000000E40000000000000000000000000000000000000000000000000000000000000000000000000000000000000000000000000000000000000000000000000000000000000000000000000000000000000000000000000000,
  0x000000000000000000000000000000000000000000000000000000000000000000000000000000000000000000000000000000000000000000DEE6DC00000000000000000000000000000000000000000000000000000000000000000000000000000000000000000000000000000000000000000000000000000000000000000000000000000000000000000000000000000000000000000000000000000000000000000000000000000000000000000000000000000000000000000000000000000000000000000000000000000000000000000000000000000000000000000000000000000000000000000000000000000000000000000000000000000000,
  0x0000000000000000000000000000000000000000000000E6DC0000000000000000000000000000000000000000000000000000000000000000000000000000000000000000000000000000000000000000000000000000000000000000000000090000000000000000000000000000000000000000E6E6E6E6E6E6E6E60000DC000000000000000000000000000000000000000000000000000000000000000000000000000000000000000000000000E6E6E6E6E6DCDCDCDCDCDCE6E6DC000000000000000000000000000000000000000000000000000000000000000000000000000000000000000000000000000000000000000000000000000000000000,
  0x0000000000000000000000000000000000000000000000000000000000000000000000000000000000000000000000000000000007000000000000000000000000000000090000000000000000000000000000000000000000000000000000000000000000000000000000E6DCE6E6E6E6E6E6E60000000000000000000000000000000000000000000000000000000000000000000000000000000000000000000000000000000000000909000000000000000000000000000000000000000000000000000000000000000000000000000000000000000000000000000000000000000000000700000000000000000000000909000000000000000000000000,
  0x00000000000000000000000000000000000000000000000000000000000000000000000000000000000000000000000000000000000000070000000000000000000000000000000000000000000000000000000000000000000000000000000000000000000000000000000000000000000000000000000000000000000000000000000000000000000000000000000000000000000000000000000000000000000000000000000000000000000000000000000000000000000000000000000000000000000000000000000000000000E6E6E60001DCDCDCDCDCE6E6DCDCDCDCE6000101010101010100000000DC000000000000E6000000E6E6000000000000,
  0x000000000000000000000000000000000000000000000000000000000000000000000000000000000000000000000000000000000000000000000000000000000000000000000000000000000000000000000000000000000000000000000000000000000000000000000000000000000000000000000000000000000000000000000000000000000000000000000000000000000000000000000000000000000000000000000000000000000000000000000000000000000000000000000000E6E6DCE6E6E6E6E6E6E6DCE6E6EAD6DCCAE6E6E6E6E6E6E6E6E6E6E6E6E6E6E6E6E6E6E6E6E6E6E6E6E6E6E6E6E6E6E6E6E6E6E6E6E60000000000E6E9DCE6DC,
  0x00000000000000000000000000000000000000000000000000000000000000000000000000000000000000000000000000000000000000000000000000000000000000000000000000000000000000000000000000000000000000000000000000000000000000000000000000000000000000000000000000000000000000000000000000000000000000000000000000000000000000000000000000000000000000000000000000000000000000000000000000000000000000000000000000000000000000000000000000000000E6E60101E6E6E6E6010101E6E600000000E60000000101E6DCE60101DCDCDCDCE6000000000000000000000000000000,
  0x0000000000000000000000000000000000000000000000000000000000000000000000000000000000000000000000000000000000000000000000000000000000000000000000000000000000000000000000000000000000000000000000000000000000000000000000000000000000000000000000000000000000000000000000000000000000000000000000000000000000000000000000000000000000000000000000000000000000000000000000000000000000000000000000000000000000000000000000000000000000000000000000000000000000000000000000000000000000000000000000E6E6E60000000000000000000000000000,
  0x0000000000000000000000000000000000000000000000000000000000000000000000000000000000000000000000000000000000000000000000000000000000000000000000000000000000000000000000000000000000000000000000000000000000000000000000000000000000000000000000000000000000000009000000000000000000000000000000000000000000000000000000000000000000000000000000000000000000000000000000000000000000000000000000000000000000000000000000000000000000000000000000000000000000000000E6E6E6E6E6E6E6E6E6E6E6E6E6E6E6E6E6E6E6E6E6E6E6E6E6E6E6E6E6E6E6E6,
  0x000000000000000000000000000000000000000000000000000000000000000000000000000000000000DAE4E8DEE0E000000000000000000000000000000000000000000000000000000000000000000000000000000000000000000000000000000000000000000000000000000000000000000000000000000000000000000000000000000000000000000000000000000000000000000008080000000000000000000000000000000000000000000000000000000000000000000000000000000000000000000000000000000000000000000000000000000000000000000000000000000000000000000000000000000000000000000000000000000000,
  0x000000000000000000000000000000000000000000000000000000000000000000000000000000000000000000000000000000000000000000000000000000000000000000000000000000000000000000000000000000000000000000000000000000000000000000000000000000E600000000E6E6E6E6E6E6E6E6E6E60000000000000000000000000000000000000000000000000000000000000000E6E60000000000000000000000000000000000000000000000000000000000000000000000000000000000000000000000000000000000000000000000000000000000000000000000000000000000000000E6E60000000000000000000000000000,
  0x0000000000000900000000000000000000000000000000000000000000000000000000000000000000000000000000000000000000000000000000000000000000000000000000000000000000000000000000000000000000000000000000000000000000000000000000000000000000000000000000000000000000000000000000000000000000000000000000000000000000000000000000000000000000000000000000000000000000000000000000000000000000000000000000000000000009000000000000000000000000000000000000000000000000000000E6E6E6E6E6E6E6E6E6E6E6E6E6E6E6E6E6E60000000000000000000000000000,
  0x00000000000000000000000000000000000000000000000000000000000000000000000000000000000000DCDCDC000000000000000000000000000000000000000000000000000000000000000000000000000900000000000000000000000000000000000000000000000000000000000000000000000000000000000000000000000000000000000000000000000000000000000000000000000000000000000000000000000000000000000000000000000700000000000000000000000009000000000000000000000000000000000000000000000000000000000000000000000000000000000000000000000000000000000000000000000000000000,
  0x0000000000000000000000000000000000000000000000000000000000000000000000000000000000000000000000000000000000000000000000000000000000000000000000000000000000000000000000000000000000000000000000000000000000000000000000000000000000000000000000000000000000000000000000000000000000000000000000000000000000000000000000000000000000000000000000000000000000000000E600E6E6DC0000E6E60000000000E6E600E60000000000000000000000000000000000000000000000000000000000000000000000000000000000000000000000000000000009000000000000000000,
  0x00000000000000000000000000000000000000000000000000000000000000000000000000000000000000000000000000000000000000000000000000000000000000000000000000000000000000000000000000000000000000000000000000000000000000000000000000000000000000000000000000000000000000000000000000000000000000000000000000000000000000000000000000000000000000000000000000000000000000000000000000000000000000000000000000000000000000000000000000000000000000000000000000000000000000000000000000000000000000000009000000000000000000000000000000000000,
  0x0000000000000000000000000000000000000000000000000000000000001A000000000000000000000000000000000000000000000000000000000000000000000000000000000000000000000000000000000000000000000000000000000000000000000000000000000000000000000000000000000000000000000000000000000000000000000000000000000000000000000000000000000000000000000000000000000000000000000000000000000000000000000000000000000000000000000000000000000000000000000000000000000000000000000000000000000000000000000000000000000000000000000000000000000000000000,
  0x0000000000000000000000000000000000000000000000000000000000000000E6E6E6E6E6E6E6DCDCDCDCDCDCDCE6E600000000000000000000000000000000000000000000000000000000000000000000000000000000000000000000000000000000000000000000000000000000000000000000000000000000000000000000000000000000000000000000000000000000000000000000000000000000000000000000000000000000000000000000000000000000000000000000000000000000000000000000000000000000000000000000000000000000000000000000000000000000000000000000000000000000000000000000000000000000,
  0x00000000000000000000000000000000000000000000000000000000000000000000000000000000000000000000000000000000000000000000000000000000000000000000000000000000000000000000000000000000000000000000000000000000000000000000000000000000000000000000000000000000000000000000000000000000000000000000000000000000000000000000000000000000000000000000000000000000000000000000000000000000000000000000000000000000000000000000000000000000000000000000000000000000000000000000000000000000000000000000000000000000000000000000000000DC0000,
  0x0000000000000000000000000000000000000000000000000000000000000000000000000000000000000000000000000000000000000000000000000000000000000000000000000000000000000000000000000000000000000000000000000000000000000000000000000000000000000000000000000000000000000000000000000000000000000000000000000000000000000000000000000000000000000000000000000000000000000000000000000000000000000000000000000000000000000000000000000000000000000000000000000000000000000000DC00000000000000000000000000000000000000000000000000000000000000,
  0x00000000000000000000000000000000000000000000000000000000000000000000000000000000000000000000000000000000000000000000000000000000000000000000000000000000000000000000000000000000000000000000000000000000000000000000000000000000000000000000E6E6E6E6E600000000000000000000000000000000000000000000000000000000000000000000000000000000000000000000000000000000000000000000000000000000000000000000000000000000000000000000000000000000000000000000000000000000000000000000000000000000000000000000000000000000000000000000000000,
  0x00000000000000000000000000DC00E600000000000000000000000000000000000000000000000000000000000000000000000000000000E601DC0000000009000000000000000000000000000000000000000000000000000000000000000000000000000000000000000000000000000000000000000000000000000000000000000000000000000000000000000000000000000000000000000000000000000000000000000000000000000000000000000000000000000000000000000000000000000000000000000000000000000000000000000000000000000000000000000000E6DC00000000000000000000000000000000000000000000000000,
  0x00000000000000000000000000000000000000000000000000000000000000000000000000000000000000000000000000000000000000000000000000000000000000000000090000000000000000000000000000000000000000000000000000000000000000000000000000000000000000000000000000000000000000090000000000000000000000000000000000000000000000000000000000000000000000000000000000000000000000000000000000000000000907000000000000000000000000000000000000000000000000000000000000000000000000000000000000000000000000000000000000000000000000000000000000000000,
  0xE6E6E600000000000000000000000000000000000000000000000000000000000000000000000000000000000000000000000009090000000000000000000000000000000000000000000000000000000000000000000000000000000000000000000000000000000000000000000000000000070000000000000000000000000000000000000000000000000000000000000000000000000000000000000000000000000000000000000000000000000000000000000000000000000000000009000000000000000000070000000000000000000000000000000000000000000000000000000000000000000000000000000000000000000000000000000000,
  0x00000000000000000000000000000000000000000000000000000000000000000000000000000000000000000000000000000000000907000000000000000000000000000000000000000000000000000000000000000000000000000000000000000000000000000000000000000000000000000000000000000000000000000000000000000000000000000000000000000000000000000000000000000000000000000000000000000000000000000000000000000000000000000000000000000000000000000000000000000000000000000000000000000000000000000000000000000000000709000000000000000000000000000000000000000000,
  0x000000000000000000000000000000000000000000000000000000000000000000000000000000000000000000000000000000000000000000000000070000000000000000000000000000000009000000000000000000000000000000000000000000000000E6E6E6E6E6E6E6000000E6E6E6E6E600000000000000000000000000000000000000000000000000000000000000000000000000000000000000000000000000000000000000000000000000000000000000000000000000000000000000000000000000000000000000000000000000000000000000000000000000000000000000000000000000000000000000000000000000000000000000,
  0x00000000000000000000000000000000000000000000000000000000000000000000000000000000000000000000000000000000000000000000000000000000000009000000070000000000000000000000000000000000000000000000000000000000000000000000000000000000000000000000000000000000000000000000000000000000000000000000000000000000000000000000000000000000000000000000000000000000000000000000000000000000000000000000000000000907000000000000000000000000000000000000000000000000000000000000000000000000000000000000000000000000000000000000000000000000,
  0x00000000000000000000000000000000000000000000000000000000000000000000000000000000000000000000000000000000000000000000000000000000000000000000000000000000000000000000000000000000000000000000000000000000000000000000000000000000000000000000000000000000000000000000000000000000000000000000000000000000000000000000000000000000000000000000000000000000000000000000000000000000000000000000000907000000000000000000000000000000000000000000000000000000000000000000000000000000000000000000000000000000000000000000000000000000,
  0x00000000000000000000000000000000000000000000000000000000000000000000000000000000000000000000000000000000000000000000000000000009000000000000000000000000000000000000000000000000000000000000000000000000000000000000000000000000000000000000000000000000000000000000000000000000000000000000000000000000000000000000000000000000000000000000000000000000000000000000000000000907000000000000000000000000000000000000000000000000000000000000000000000000000000000000000000000000000000000000000000000000000000000000000000000000,
  0x00000000000000000000000000000000000000000000000000000000000000000000000000000000000000090000000000000000000000000000000000000000000000000000000000000000000000000000000000000000000000000000000000000000000000000000000000000000000000000000000000000000000000000000000000000000000000000000000000000000000000000000000000000000000000000000000000000000000000000000000000000000000000000000000000000000000000000000000000000000000000000000000000000000000000000000000000000000000000000000000000000000000000000000000000000000,
  0x00000000000000000000000000000000000000000000000000000000000000000000000000000000000000000000000000000000000000000000000000000009000000000000000000000000000000000000000000000000000000000000000000000000000000000000000000000000000000000000000000000000000000000000000000000000000000000000000000000000000000000000000000000000000000000000000000000000000000000000000000000000000000000000000000000000000000000000000000000000000000000000000000000000000000000000000000000000000000000000000000000000000000000000000000000000,
  0x00000000000000000000000000000000000000000000000000000000000000000000000000000000000000000000000000000000000000000000000000000000000000000000000000000000000000000000000000000000000000000000000000000000000000000000000000000000000000000000000000000000000000000000000000000000000000000000000000000000000000000000000000000000000000000000000000000000000000000000000000000000000000000000000000000000000000000000000000000000000000000000000000000000000000000000000000000000000000000000000001010101010000000000000000000000,
  0x000000000000000000000000000000000000000000000000000000000000000000000000000000000000000000000000E6E6E6E6E6E6E6000000000000000000000000000000000000000000000000000000000000000000000000000000000000000000000000000000000000000000000000000000000000000000000000000000000000000000000000000000000000000000000000000000000000000000000000000000000000000000000000000000000000000000000000000000000000000000000000000000000000000000000000000000000000000000000000000000000000000000000000000000000000000000000000000000000000000000,
  0x00000000000000000000000000000000000000000000000000000000000000000000000000000000000000000000000000000000000000000000000000000000000000000000000000000000000000000000000000000000000000000000000000000000000000000000000000000000000000000000000000000000000000000000000000000000000000000000000000000000000000000000000000000100000000000000000000000000000000000000000000000000000000000000000000000000000000000000000000000000000000000000000000000000000000000000000000000000000000000000000000000000000000000000000000000000,
  0x0000000000000000000000000000000000000000000000000000000000000000000000000000000000000000000000000000000000000000000000000000000000000000000000000000000000000000000000000000000000000000000000000000000000D8D8010101000000E2D8D8D8D8D80000000000000000DCDCDCDCDCDCDCDC0000E6E6E6E6E6DCDC000000000000000000000000000000000000000000000000000000000000E6E6E6E600000000000000000000000000000000000000000000000000000000000000000000000000000000000000000000000000000000000000000000000000000000000000000000000000000000000000000000,
  0x000000000000000000000000000000000000000000000000000000000000000000000000000000000000000000000000000000000000000000000000000000000000E6E6E600000000000000000000000000000000000000000000000000000000000000000000000000000000000000000000000000000000000000000000000000000000000000000000000000000000000000000000000000000000000000000000000000000000000000000000000000000000000000000000000000000000000000000000000000000000000000000000000000000000000000000000000000000000000000000000000000000000000000000000000000000000000000,
  0xE6E6E6E6E6E6E600E6E6E6E6E6E6E6E6E6E6E6E6E6E6E6E6E60000E6E6E6E6E6E6E600E6E600E6E6E6E6E6000000000000000000000000000000000000000000000000000000000000000000000000000000000000000000000000000000000000000000000000000000000000000000000000000000000000000000000000000000000000000000000000000000000000000000000000000000000000000000000000000000000000000000000000000000000000000000000000000000000000000000000000000000000000000000000000000000000000000000000000000000000000000000000000000000000000000000000000000000000000000000,
  0x00000000000000000000000000000000000000000000000000000000000000000000000000000000000000000000000000000000000000000000000000000000000000000000000000000000000000000000000000000000000000000000000000000000000000000000000000000000000000000000000000000000000000000000000000000000000000000000000000000000000000000000000000000000000000000000000000000000000000000000000000000000000000000000000000000000000000000000000000000000DCDCDCDCDCDCDC0000000000000000000000000000000000000000000000000000000000000000000000000000000000,
  0x0000000000000000000000000000000000000000000000000000000000000000000000000000000000000000000000000000000000000000000000000000000000000000E6E6E6E6E6E60700000000000000000000000000000000000000000000000000000000000000000000000000000000000000000000000000000000000000000000000000000000000000000000000000000000000000000000000000000000000000000000000000000000000000000000000000000000000000000000000000000000000000000000000000000000000000000000000000000000000000000000000000000000000000000000000000000000000000000000000000]

def bpCccBlocks (i : Nat) : Nat := cell 8 14079 (pack 2048 bpCccBlocksRows 0) i

/-- `bp_qc_lo[116]`, 58 entries of 6 digits a row. -/
def bpQcLoRows : List Nat := [
  0x00030000030600030F00031100031300031B00032300032D00033000033800034000034200034300034500037400037E00038700065300093C0009580009BE0009D70009DC0009DF000A33000A36000A59000A5E000B3E000B56000B57000B5C000BBE000BD7000C56000CC2000CD5000D3E000D57000DCA000DCF000DDF000F43000F4D000F52000F57000F5C000F69000F73000F75000F78000F81000F93000F9D000FA2000FA7000FAC000FB9,
  0x00102E0011610011A8001B35001F71001F73001F75001F77001F79001F7B001F7D001FBB001FBE001FC9001FCB001FD3001FDB001FE3001FEB001FEE001FF9001FFB001FFD00200000212600212A00232900232A002ADC00309900F90000FA1000FA1200FA1500FA2000FA2200FA2500FA2A00FA7000FB1D00FB1F00FB2A00FB3800FB3E00FB4000FB4300FB460110BA01112701133E0113570114B00114BA0114BD0115AF01D15E01D1BB02F800]

def bpQcLo (i : Nat) : Nat := cell 24 115 (pack 1392 bpQcLoRows 0) i

/-- `bp_qc_hi[116]`, 58 entries of 6 digits a row. -/
def bpQcHiRows : List Nat := [
  0x00030400030C00030F00031100031400031B00032800032E00033100033800034100034200034400034500037400037E00038700065500093C00095F0009BE0009D70009DD0009DF000A33000A36000A5B000A5E000B3E000B56000B57000B5D000BBE000BD7000C56000CC2000CD6000D3E000D57000DCA000DCF000DDF000F43000F4D000F52000F57000F5C000F69000F73000F76000F78000F81000F93000F9D000FA2000FA7000FAC000FB9,
  0x00102E0011750011C2001B35001F71001F73001F75001F77001F79001F7B001F7D001FBB001FBE001FC9001FCB001FD3001FDB001FE3001FEB001FEF001FF9001FFB001FFD00200100212600212B00232900232A002ADC00309A00FA0D00FA1000FA1200FA1E00FA2000FA2200FA2600FA6D00FAD900FB1D00FB1F00FB3600FB3C00FB3E00FB4100FB4400FB4E0110BA01112701133E0113570114B00114BA0114BD0115AF01D16401D1C002FA1D]

def bpQcHi (i : Nat) : Nat := cell 24 115 (pack 1392 bpQcHiRows 0) i

/-- `bp_qc_val[116]`, 116 entries of 1 digit a row. -/
def bpQcValRows : List Nat := [
  0x22222222220202000220220000002220222222222200000000000000002222000000000000000000000000020000000000000000022222222000]

def bpQcVal (i : Nat) : Nat := cell 4 115 (pack 464 bpQcValRows 0) i

/-- `bp_decomp_cp[2060]`, 80 entries of 6 digits a row. -/
def bpDecompCpRows : List Nat := [
  0x0000C00000C10000C20000C30000C40000C50000C70000C80000C90000CA0000CB0000CC0000CD0000CE0000CF0000D10000D20000D30000D40000D50000D60000D90000DA0000DB0000DC0000DD0000E00000E10000E20000E30000E40000E50000E70000E80000E90000EA0000EB0000EC0000ED0000EE0000EF0000F10000F20000F30000F40000F50000F60000F90000FA0000FB0000FC0000FD0000FF00010000010100010200010300010400010500010600010700010800010900010A00010B00010C00010D00010E00010F00011200011300011400011500011600011700011800011900011A00011B00011C,
  0x00011D00011E00011F00012000012100012200012300012400012500012800012900012A00012B00012C00012D00012E00012F00013000013400013500013600013700013900013A00013B00013C00013D00013E00014300014400014500014600014700014800014C00014D00014E00014F00015000015100015400015500015600015700015800015900015A00015B00015C00015D00015E00015F00016000016100016200016300016400016500016800016900016A00016B00016C00016D00016E00016F00017000017100017200017300017400017500017600017700017800017900017A00017B00017C00017D,
  0x00017E0001A00001A10001AF0001B00001CD0001CE0001CF0001D00001D10001D20001D30001D40001D50001D60001D70001D80001D90001DA0001DB0001DC0001DE0001DF0001E00001E10001E20001E30001E60001E70001E80001E90001EA0001EB0001EC0001ED0001EE0001EF0001F00001F40001F50001F80001F90001FA0001FB0001FC0001FD0001FE0001FF00020000020100020200020300020400020500020600020700020800020900020A00020B00020C00020D00020E00020F00021000021100021200021300021400021500021600021700021800021900021A00021B00021E00021F000226000227,
  0x00022800022900022A00022B00022C00022D00022E00022F00023000023100023200023300034000034100034300034400037400037E00038500038600038700038800038900038A00038C00038E00038F0003900003AA0003AB0003AC0003AD0003AE0003AF0003B00003CA0003CB0003CC0003CD0003CE0003D30003D400040000040100040300040700040C00040D00040E00041900043900045000045100045300045700045C00045D00045E0004760004770004C10004C20004D00004D10004D20004D30004D60004D70004DA0004DB0004DC0004DD0004DE0004DF0004E20004E30004E40004E50004E60004E7,
  0x0004EA0004EB0004EC0004ED0004EE0004EF0004F00004F10004F20004F30004F40004F50004F80004F90006220006230006240006250006260006C00006C20006D300092900093100093400095800095900095A00095B00095C00095D00095E00095F0009CB0009CC0009DC0009DD0009DF000A33000A36000A59000A5A000A5B000A5E000B48000B4B000B4C000B5C000B5D000B94000BCA000BCB000BCC000C48000CC0000CC7000CC8000CCA000CCB000D4A000D4B000D4C000DDA000DDC000DDD000DDE000F43000F4D000F52000F57000F5C000F69000F73000F75000F76000F78000F81000F93000F9D000FA2,
  0x000FA7000FAC000FB9001026001B06001B08001B0A001B0C001B0E001B12001B3B001B3D001B40001B41001B43001E00001E01001E02001E03001E04001E05001E06001E07001E08001E09001E0A001E0B001E0C001E0D001E0E001E0F001E10001E11001E12001E13001E14001E15001E16001E17001E18001E19001E1A001E1B001E1C001E1D001E1E001E1F001E20001E21001E22001E23001E24001E25001E26001E27001E28001E29001E2A001E2B001E2C001E2D001E2E001E2F001E30001E31001E32001E33001E34001E35001E36001E37001E38001E39001E3A001E3B001E3C001E3D001E3E001E3F001E40,
  0x001E41001E42001E43001E44001E45001E46001E47001E48001E49001E4A001E4B001E4C001E4D001E4E001E4F001E50001E51001E52001E53001E54001E55001E56001E57001E58001E59001E5A001E5B001E5C001E5D001E5E001E5F001E60001E61001E62001E63001E64001E65001E66001E67001E68001E69001E6A001E6B001E6C001E6D001E6E001E6F001E70001E71001E72001E73001E74001E75001E76001E77001E78001E79001E7A001E7B001E7C001E7D001E7E001E7F001E80001E81001E82001E83001E84001E85001E86001E87001E88001E89001E8A001E8B001E8C001E8D001E8E001E8F001E90,
  0x001E91001E92001E93001E94001E95001E96001E97001E98001E99001E9B001EA0001EA1001EA2001EA3001EA4001EA5001EA6001EA7001EA8001EA9001EAA001EAB001EAC001EAD001EAE001EAF001EB0001EB1001EB2001EB3001EB4001EB5001EB6001EB7001EB8001EB9001EBA001EBB001EBC001EBD001EBE001EBF001EC0001EC1001EC2001EC3001EC4001EC5001EC6001EC7001EC8001EC9001ECA001ECB001ECC001ECD001ECE001ECF001ED0001ED1001ED2001ED3001ED4001ED5001ED6001ED7001ED8001ED9001EDA001EDB001EDC001EDD001EDE001EDF001EE0001EE1001EE2001EE3001EE4001EE5,
  0x001EE6001EE7001EE8001EE9001EEA001EEB001EEC001EED001EEE001EEF001EF0001EF1001EF2001EF3001EF4001EF5001EF6001EF7001EF8001EF9001F00001F01001F02001F03001F04001F05001F06001F07001F08001F09001F0A001F0B001F0C001F0D001F0E001F0F001F10001F11001F12001F13001F14001F15001F18001F19001F1A001F1B001F1C001F1D001F20001F21001F22001F23001F24001F25001F26001F27001F28001F29001F2A001F2B001F2C001F2D001F2E001F2F001F30001F31001F32001F33001F34001F35001F36001F37001F38001F39001F3A001F3B001F3C001F3D001F3E001F3F,
  0x001F40001F41001F42001F43001F44001F45001F48001F49001F4A001F4B001F4C001F4D001F50001F51001F52001F53001F54001F55001F56001F57001F59001F5B001F5D001F5F001F60001F61001F62001F63001F64001F65001F66001F67001F68001F69001F6A001F6B001F6C001F6D001F6E001F6F001F70001F71001F72001F73001F74001F75001F76001F77001F78001F79001F7A001F7B001F7C001F7D001F80001F81001F82001F83001F84001F85001F86001F87001F88001F89001F8A001F8B001F8C001F8D001F8E001F8F001F90001F91001F92001F93001F94001F95001F96001F97001F98001F99,
  0x001F9A001F9B001F9C001F9D001F9E001F9F001FA0001FA1001FA2001FA3001FA4001FA5001FA6001FA7001FA8001FA9001FAA001FAB001FAC001FAD001FAE001FAF001FB0001FB1001FB2001FB3001FB4001FB6001FB7001FB8001FB9001FBA001FBB001FBC001FBE001FC1001FC2001FC3001FC4001FC6001FC7001FC8001FC9001FCA001FCB001FCC001FCD001FCE001FCF001FD0001FD1001FD2001FD3001FD6001FD7001FD8001FD9001FDA001FDB001FDD001FDE001FDF001FE0001FE1001FE2001FE3001FE4001FE5001FE6001FE7001FE8001FE9001FEA001FEB001FEC001FED001FEE001FEF001FF2001FF3,
  0x001FF4001FF6001FF7001FF8001FF9001FFA001FFB001FFC001FFD00200000200100212600212A00212B00219A00219B0021AE0021CD0021CE0021CF00220400220900220C00222400222600224100224400224700224900226000226200226D00226E00226F0022700022710022740022750022780022790022800022810022840022850022880022890022AC0022AD0022AE0022AF0022E00022E10022E20022E30022EA0022EB0022EC0022ED00232900232A002ADC00304C00304E00305000305200305400305600305800305A00305C00305E003060003062003065003067003069003070003071003073003074,
  0x00307600307700307900307A00307C00307D00309400309E0030AC0030AE0030B00030B20030B40030B60030B80030BA0030BC0030BE0030C00030C20030C50030C70030C90030D00030D10030D30030D40030D60030D70030D90030DA0030DC0030DD0030F40030F70030F80030F90030FA0030FE00F90000F90100F90200F90300F90400F90500F90600F90700F90800F90900F90A00F90B00F90C00F90D00F90E00F90F00F91000F91100F91200F91300F91400F91500F91600F91700F91800F91900F91A00F91B00F91C00F91D00F91E00F91F00F92000F92100F92200F92300F92400F92500F92600F92700F928,
  0x00F92900F92A00F92B00F92C00F92D00F92E00F92F00F93000F93100F93200F93300F93400F93500F93600F93700F93800F93900F93A00F93B00F93C00F93D00F93E00F93F00F94000F94100F94200F94300F94400F94500F94600F94700F94800F94900F94A00F94B00F94C00F94D00F94E00F94F00F95000F95100F95200F95300F95400F95500F95600F95700F95800F95900F95A00F95B00F95C00F95D00F95E00F95F00F96000F96100F96200F96300F96400F96500F96600F96700F96800F96900F96A00F96B00F96C00F96D00F96E00F96F00F97000F97100F97200F97300F97400F97500F97600F97700F978,
  0x00F97900F97A00F97B00F97C00F97D00F97E00F97F00F98000F98100F98200F98300F98400F98500F98600F98700F98800F98900F98A00F98B00F98C00F98D00F98E00F98F00F99000F99100F99200F99300F99400F99500F99600F99700F99800F99900F99A00F99B00F99C00F99D00F99E00F99F00F9A000F9A100F9A200F9A300F9A400F9A500F9A600F9A700F9A800F9A900F9AA00F9AB00F9AC00F9AD00F9AE00F9AF00F9B000F9B100F9B200F9B300F9B400F9B500F9B600F9B700F9B800F9B900F9BA00F9BB00F9BC00F9BD00F9BE00F9BF00F9C000F9C100F9C200F9C300F9C400F9C500F9C600F9C700F9C8,
  0x00F9C900F9CA00F9CB00F9CC00F9CD00F9CE00F9CF00F9D000F9D100F9D200F9D300F9D400F9D500F9D600F9D700F9D800F9D900F9DA00F9DB00F9DC00F9DD00F9DE00F9DF00F9E000F9E100F9E200F9E300F9E400F9E500F9E600F9E700F9E800F9E900F9EA00F9EB00F9EC00F9ED00F9EE00F9EF00F9F000F9F100F9F200F9F300F9F400F9F500F9F600F9F700F9F800F9F900F9FA00F9FB00F9FC00F9FD00F9FE00F9FF00FA0000FA0100FA0200FA0300FA0400FA0500FA0600FA0700FA0800FA0900FA0A00FA0B00FA0C00FA0D00FA1000FA1200FA1500FA1600FA1700FA1800FA1900FA1A00FA1B00FA1C00FA1D,
  0x00FA1E00FA2000FA2200FA2500FA2600FA2A00FA2B00FA2C00FA2D00FA2E00FA2F00FA3000FA3100FA3200FA3300FA3400FA3500FA3600FA3700FA3800FA3900FA3A00FA3B00FA3C00FA3D00FA3E00FA3F00FA4000FA4100FA4200FA4300FA4400FA4500FA4600FA4700FA4800FA4900FA4A00FA4B00FA4C00FA4D00FA4E00FA4F00FA5000FA5100FA5200FA5300FA5400FA5500FA5600FA5700FA5800FA5900FA5A00FA5B00FA5C00FA5D00FA5E00FA5F00FA6000FA6100FA6200FA6300FA6400FA6500FA6600FA6700FA6800FA6900FA6A00FA6B00FA6C00FA6D00FA7000FA7100FA7200FA7300FA7400FA7500FA76,
  0x00FA7700FA7800FA7900FA7A00FA7B00FA7C00FA7D00FA7E00FA7F00FA8000FA8100FA8200FA8300FA8400FA8500FA8600FA8700FA8800FA8900FA8A00FA8B00FA8C00FA8D00FA8E00FA8F00FA9000FA9100FA9200FA9300FA9400FA9500FA9600FA9700FA9800FA9900FA9A00FA9B00FA9C00FA9D00FA9E00FA9F00FAA000FAA100FAA200FAA300FAA400FAA500FAA600FAA700FAA800FAA900FAAA00FAAB00FAAC00FAAD00FAAE00FAAF00FAB000FAB100FAB200FAB300FAB400FAB500FAB600FAB700FAB800FAB900FABA00FABB00FABC00FABD00FABE00FABF00FAC000FAC100FAC200FAC300FAC400FAC500FAC6,
  0x00FAC700FAC800FAC900FACA00FACB00FACC00FACD00FACE00FACF00FAD000FAD100FAD200FAD300FAD400FAD500FAD600FAD700FAD800FAD900FB1D00FB1F00FB2A00FB2B00FB2C00FB2D00FB2E00FB2F00FB3000FB3100FB3200FB3300FB3400FB3500FB3600FB3800FB3900FB3A00FB3B00FB3C00FB3E00FB4000FB4100FB4300FB4400FB4600FB4700FB4800FB4900FB4A00FB4B00FB4C00FB4D00FB4E01109A01109C0110AB01112E01112F01134B01134C0114BB0114BC0114BE0115BA0115BB01D15E01D15F01D16001D16101D16201D16301D16401D1BB01D1BC01D1BD01D1BE01D1BF01D1C002F80002F801,
  0x02F80202F80302F80402F80502F80602F80702F80802F80902F80A02F80B02F80C02F80D02F80E02F80F02F81002F81102F81202F81302F81402F81502F81602F81702F81802F81902F81A02F81B02F81C02F81D02F81E02F81F02F82002F82102F82202F82302F82402F82502F82602F82702F82802F82902F82A02F82B02F82C02F82D02F82E02F82F02F83002F83102F83202F83302F83402F83502F83602F83702F83802F83902F83A02F83B02F83C02F83D02F83E02F83F02F84002F84102F84202F84302F84402F84502F84602F84702F84802F84902F84A02F84B02F84C02F84D02F84E02F84F02F85002F851,
  0x02F85202F85302F85402F85502F85602F85702F85802F85902F85A02F85B02F85C02F85D02F85E02F85F02F86002F86102F86202F86302F86402F86502F86602F86702F86802F86902F86A02F86B02F86C02F86D02F86E02F86F02F87002F87102F87202F87302F87402F87502F87602F87702F87802F87902F87A02F87B02F87C02F87D02F87E02F87F02F88002F88102F88202F88302F88402F88502F88602F88702F88802F88902F88A02F88B02F88C02F88D02F88E02F88F02F89002F89102F89202F89302F89402F89502F89602F89702F89802F89902F89A02F89B02F89C02F89D02F89E02F89F02F8A002F8A1,
  0x02F8A202F8A302F8A402F8A502F8A602F8A702F8A802F8A902F8AA02F8AB02F8AC02F8AD02F8AE02F8AF02F8B002F8B102F8B202F8B302F8B402F8B502F8B602F8B702F8B802F8B902F8BA02F8BB02F8BC02F8BD02F8BE02F8BF02F8C002F8C102F8C202F8C302F8C402F8C502F8C602F8C702F8C802F8C902F8CA02F8CB02F8CC02F8CD02F8CE02F8CF02F8D002F8D102F8D202F8D302F8D402F8D502F8D602F8D702F8D802F8D902F8DA02F8DB02F8DC02F8DD02F8DE02F8DF02F8E002F8E102F8E202F8E302F8E402F8E502F8E602F8E702F8E802F8E902F8EA02F8EB02F8EC02F8ED02F8EE02F8EF02F8F002F8F1,
  0x02F8F202F8F302F8F402F8F502F8F602F8F702F8F802F8F902F8FA02F8FB02F8FC02F8FD02F8FE02F8FF02F90002F90102F90202F90302F90402F90502F90602F90702F90802F90902F90A02F90B02F90C02F90D02F90E02F90F02F91002F91102F91202F91302F91402F91502F91602F91702F91802F91902F91A02F91B02F91C02F91D02F91E02F91F02F92002F92102F92202F92302F92402F92502F92602F92702F92802F92902F92A02F92B02F92C02F92D02F92E02F92F02F93002F93102F93202F93302F93402F93502F93602F93702F93802F93902F93A02F93B02F93C02F93D02F93E02F93F02F94002F941,
  0x02F94202F94302F94402F94502F94602F94702F94802F94902F94A02F94B02F94C02F94D02F94E02F94F02F95002F95102F95202F95302F95402F95502F95602F95702F95802F95902F95A02F95B02F95C02F95D02F95E02F95F02F96002F96102F96202F96302F96402F96502F96602F96702F96802F96902F96A02F96B02F96C02F96D02F96E02F96F02F97002F97102F97202F97302F97402F97502F97602F97702F97802F97902F97A02F97B02F97C02F97D02F97E02F97F02F98002F98102F98202F98302F98402F98502F98602F98702F98802F98902F98A02F98B02F98C02F98D02F98E02F98F02F99002F991,
  0x02F99202F99302F99402F99502F99602F99702F99802F99902F99A02F99B02F99C02F99D02F99E02F99F02F9A002F9A102F9A202F9A302F9A402F9A502F9A602F9A702F9A802F9A902F9AA02F9AB02F9AC02F9AD02F9AE02F9AF02F9B002F9B102F9B202F9B302F9B402F9B502F9B602F9B702F9B802F9B902F9BA02F9BB02F9BC02F9BD02F9BE02F9BF02F9C002F9C102F9C202F9C302F9C402F9C502F9C602F9C702F9C802F9C902F9CA02F9CB02F9CC02F9CD02F9CE02F9CF02F9D002F9D102F9D202F9D302F9D402F9D502F9D602F9D702F9D802F9D902F9DA02F9DB02F9DC02F9DD02F9DE02F9DF02F9E002F9E1,
  0x02F9E202F9E302F9E402F9E502F9E602F9E702F9E802F9E902F9EA02F9EB02F9EC02F9ED02F9EE02F9EF02F9F002F9F102F9F202F9F302F9F402F9F502F9F602F9F702F9F802F9F902F9FA02F9FB02F9FC02F9FD02F9FE02F9FF02FA0002FA0102FA0202FA0302FA0402FA0502FA0602FA0702FA0802FA0902FA0A02FA0B02FA0C02FA0D02FA0E02FA0F02FA1002FA1102FA1202FA1302FA1402FA1502FA1602FA1702FA1802FA1902FA1A02FA1B02FA1C02FA1D000000000000000000000000000000000000000000000000000000000000000000000000000000000000000000000000000000000000000000000000]

def bpDecompCp (i : Nat) : Nat := cell 24 2079 (pack 1920 bpDecompCpRows 0) i

/-- `bp_decomp_off[2060]`, 160 entries of 3 digits a row. -/
def bpDecompOffRows : List Nat := [
  0x00000200400600800A00C00E01001201401601801A01C01E02002202402602802A02C02E03003203403603803A03C03E04004204404604804A04C04E05005205405605805A05C05E06006206406606806A06C06E07007207407607807A07C07E08008208408608808A08C08E09009209409609809A09C09E0A00A20A40A60A80AA0AC0AE0B00B20B40B60B80BA0BC0BE0C00C20C40C60C80CA0CC0CE0D00D20D40D60D80DA0DC0DE0E00E20E40E60E80EA0EC0EE0F00F20F40F60F80FA0FC0FE10010210410610810A10C10E11011211411611811A11C11E12012212412612812A12C12E13013213413613813A13C13E,
  0x14014214414614814A14C14E15015215415615815A15D16016316616916C16F17217517817B17E18018218418618818A18C18E19119419619819A19C19E1A01A21A51A81AA1AC1AE1B01B21B41B61B81BA1BC1BE1C01C21C41C61C81CA1CC1CE1D01D21D41D61D81DA1DC1DE1E01E21E41E61E81EA1EC1EE1F01F21F41F71FA1FD20020220420720A20C20E20F21021121321421521721921A21C21E22022222422622922B22D22F23123323523823A23C23E24024224424624824A24C24E25025225425625825A25C25E26026226426626826A26C26E27027227427627827A27C27E28028228428628828A28C28E290,
  0x29229429629829A29C29E2A02A22A42A62A82AA2AC2AE2B02B22B42B62B82BA2BC2BE2C02C22C42C62C82CA2CC2CE2D02D22D42D62D82DA2DC2DE2E02E22E42E62E82EA2EC2EE2F02F22F42F62F82FA2FC2FE30030230430630930B30D30F31131331631831A31C31E32032232432632832A32C32E33033233433633833A33C33E34034234434634834A34C34E35035235435635835A35C35E36036236536836A36C36E37037237437637837A37C37F38238538838A38C38E39039339639839A39C39E3A03A23A43A63A83AA3AC3AE3B03B23B43B63B93BC3BE3C03C23C43C63C83CA3CC3CF3D23D43D63D83DA3DC3DE,
  0x3E03E23E43E63E83EA3EC3EE3F03F23F43F63F93FC3FF40240540840B40E41041241441641841A41C41E42142442642842A42C42E43043343643943C43F44244444644844A44C44E45045245445645845A45C45E46146446746A46C46E47047247447647847A47C47E48048248448648848A48C48E49049249449649849A49C49E4A04A24A44A64A84AA4AC4AE4B04B34B64B94BC4BF4C24C54C84CB4CE4D14D44D74DA4DD4E04E34E64E94EC4EE4F04F24F44F64F84FB4FE50150450750A50D51051351651851A51C51E52052252452652952C52F53253553853B53E54154454754A54D55055355655955C55F562564,
  0x56656856A56D57057357657957C57F58258558858A58C58E59059259459659859A59C59F5A25A55A85AB5AE5B05B25B55B85BB5BE5C15C45C65C85CB5CE5D15D45D65D85DB5DE5E15E45E65E85EB5EE5F15F45F75FA5FC5FE60160460760A60D61061261461761A61D62062362662862A62D63063363663963C63E64064364664964C64E65065365665965C65E66066366666966C66F67267467767A67D67F68168468768A68D69069369569769A69D6A06A36A66A96AB6AD6AF6B16B36B56B76B96BB6BD6BF6C16C36C56C86CB6CF6D36D76DB6DF6E36E66E96ED6F16F56F96FD70170470770B70F71371771B71F722,
  0x72572972D73173573973D74074374774B74F75375775B75E76176576976D77177577977B77D78078278578778A78C78E79079279479579779A79C79F7A17A47A67A87AA7AC7AE7B07B27B47B67B87BB7BE7C07C37C57C77C97CB7CD7CF7D17D37D57D87DB7DD7DF7E17E47E67E87EA7EC7EE7F07F27F37F67F87FB7FD80080280480680880A80B80C80D80E80F81181381581781981B81D81F82182382582782982B82D82F83183383583783983B83D83F84184384584784984B84D84F85185385585785985B85D85F86186386586786986A86B86D86F87187387587787987B87D87F88188388588788988B88D88F891,
  0x89389589789989B89D89F8A18A38A58A78A98AB8AD8AF8B18B38B58B78B98BB8BD8BF8C18C38C58C78C98CB8CD8CF8D18D38D58D78D98DB8DD8DF8E18E28E38E48E58E68E78E88E98EA8EB8EC8ED8EE8EF8F08F18F28F38F48F58F68F78F88F98FA8FB8FC8FD8FE8FF90090190290390490590690790890990A90B90C90D90E90F91091191291391491591691791891991A91B91C91D91E91F92092192292392492592692792892992A92B92C92D92E92F93093193293393493593693793893993A93B93C93D93E93F94094194294394494594694794894994A94B94C94D94E94F950951952953954955956957958959,
  0x95A95B95C95D95E95F96096196296396496596696796896996A96B96C96D96E96F97097197297397497597697797897997A97B97C97D97E97F98098198298398498598698798898998A98B98C98D98E98F99099199299399499599699799899999A99B99C99D99E99F9A09A19A29A39A49A59A69A79A89A99AA9AB9AC9AD9AE9AF9B09B19B29B39B49B59B69B79B89B99BA9BB9BC9BD9BE9BF9C09C19C29C39C49C59C69C79C89C99CA9CB9CC9CD9CE9CF9D09D19D29D39D49D59D69D79D89D99DA9DB9DC9DD9DE9DF9E09E19E29E39E49E59E69E79E89E99EA9EB9EC9ED9EE9EF9F09F19F29F39F49F59F69F79F89F9,
  0x9FA9FB9FC9FD9FE9FFA00A01A02A03A04A05A06A07A08A09A0AA0BA0CA0DA0EA0FA10A11A12A13A14A15A16A17A18A19A1AA1BA1CA1DA1EA1FA20A21A22A23A24A25A26A27A28A29A2AA2BA2CA2DA2EA2FA30A31A32A33A34A35A36A37A38A39A3AA3BA3CA3DA3EA3FA40A41A42A43A44A45A46A47A48A49A4AA4BA4CA4DA4EA4FA50A51A52A53A54A55A56A57A58A59A5AA5BA5CA5DA5EA5FA60A61A62A63A64A65A66A67A68A69A6AA6BA6CA6DA6EA6FA70A71A72A73A74A75A76A77A78A79A7AA7BA7CA7DA7EA7FA80A81A82A83A84A85A86A87A88A89A8AA8BA8CA8DA8EA8FA90A91A92A93A94A95A96A97A98A99,
  0xA9AA9BA9CA9DA9EA9FAA0AA1AA2AA3AA4AA5AA6AA7AA8AA9AAAAABAACAADAAFAB1AB3AB5AB8ABBABDABFAC1AC3AC5AC7AC9ACBACDACFAD1AD3AD5AD7AD9ADBADDADFAE1AE3AE5AE7AE9AEBAEDAEFAF1AF3AF5AF7AF9AFBAFDAFFB01B03B05B07B09B0BB0DB0FB12B15B18B1BB1EB20B22B25B28B2BB2EB2FB30B31B32B33B34B35B36B37B38B39B3AB3BB3CB3DB3EB3FB40B41B42B43B44B45B46B47B48B49B4AB4BB4CB4DB4EB4FB50B51B52B53B54B55B56B57B58B59B5AB5BB5CB5DB5EB5FB60B61B62B63B64B65B66B67B68B69B6AB6BB6CB6DB6EB6FB70B71B72B73B74B75B76B77B78B79B7AB7BB7CB7DB7EB7F,
  0xB80B81B82B83B84B85B86B87B88B89B8AB8BB8CB8DB8EB8FB90B91B92B93B94B95B96B97B98B99B9AB9BB9CB9DB9EB9FBA0BA1BA2BA3BA4BA5BA6BA7BA8BA9BAABABBACBADBAEBAFBB0BB1BB2BB3BB4BB5BB6BB7BB8BB9BBABBBBBCBBDBBEBBFBC0BC1BC2BC3BC4BC5BC6BC7BC8BC9BCABCBBCCBCDBCEBCFBD0BD1BD2BD3BD4BD5BD6BD7BD8BD9BDABDBBDCBDDBDEBDFBE0BE1BE2BE3BE4BE5BE6BE7BE8BE9BEABEBBECBEDBEEBEFBF0BF1BF2BF3BF4BF5BF6BF7BF8BF9BFABFBBFCBFDBFEBFFC00C01C02C03C04C05C06C07C08C09C0AC0BC0CC0DC0EC0FC10C11C12C13C14C15C16C17C18C19C1AC1BC1CC1DC1EC1F,
  0xC20C21C22C23C24C25C26C27C28C29C2AC2BC2CC2DC2EC2FC30C31C32C33C34C35C36C37C38C39C3AC3BC3CC3DC3EC3FC40C41C42C43C44C45C46C47C48C49C4AC4BC4CC4DC4EC4FC50C51C52C53C54C55C56C57C58C59C5AC5BC5CC5DC5EC5FC60C61C62C63C64C65C66C67C68C69C6AC6BC6CC6DC6EC6FC70C71C72C73C74C75C76C77C78C79C7AC7BC7CC7DC7EC7FC80C81C82C83C84C85C86C87C88C89C8AC8BC8CC8DC8EC8FC90C91C92C93C94C95C96C97C98C99C9AC9BC9CC9DC9EC9FCA0CA1CA2CA3CA4CA5CA6CA7CA8CA9CAACABCACCADCAECAFCB0CB1CB2CB3CB4CB5CB6CB7CB8CB9CBACBBCBCCBDCBECBF,
  0xCC0CC1CC2CC3CC4CC5CC6CC7CC8CC9CCACCBCCCCCDCCECCFCD0CD1CD2CD3CD4CD5CD6CD7CD8CD9CDACDBCDCCDDCDECDFCE0CE1CE2CE3CE4CE5CE6CE7CE8CE9CEACEBCECCEDCEECEFCF0CF1CF2CF3CF4CF5CF6CF7CF8CF9CFACFBCFCCFDCFECFFD00D01D02D03D04D05D06D07D08D09D0AD0BD0CD0DD0ED0FD10D11D12D13D14D15D16D17D18D19D1AD1BD1CD1DD1ED1FD20D21D22D23D24D25D26D27D28D29D2AD2BD2CD2DD2ED2FD30D31D32D33D34D35D36D37D38D39D3AD3BD3CD3DD3ED3FD40D41D42D43D44D45D46D47D48D49D4AD4B000000000000000000000000000000000000000000000000000000000000]

def bpDecompOff (i : Nat) : Nat := cell 12 2079 (pack 1920 bpDecompOffRows 0) i

/-- `bp_decomp_len[2060]`, 412 entries of 1 digit a row. -/
def bpDecompLenRows : List Nat := [
  0x2222222222222222222222222222222222222222222222222222222222222222222222222222222222222222222222222222222222222222222222222222222222222222222222222222222222222222222222222222233333333333322222222332222222332222222222222222222222222222222222222233332233221112112212222223222222322222222222222222222222222222222222222222222222222222222222222222222222222222222222222222222222222222223222223222222222222222222222222222,
  0x2222222222233222222222233332222332222222222222222332222222233222222222222222222333333332222222233222222333333222222222222223333222222222222222222222222222222222223333333333333333333322222233333333332222222233333333333333333333222233333333332222222222333333223333332233332233332233333322333333223333332233333322333322333322333333233322333333223333332222222222222233444444334444443344444433444444334444443344444422,
  0x3232322222123232322222222223323222222222332223222222213232322222111112222222222222222222222222222222222222222222221122222222222222222222222222222222222222222222222222222222222111111111111111111111111111111111111111111111111111111111111111111111111111111111111111111111111111111111111111111111111111111111111111111111111111111111111111111111111111111111111111111111111111111111111111111111111111111111111111111111,
  0x1111111111111111111111111111111111111111111111111111111111111111111111111111111111111111111111111111111111111111111111111111111111111111111111111111111111111111111111111111111111111111111111111111111111111111111111111111111222233222222222222222222222222222222222222222222333332233331111111111111111111111111111111111111111111111111111111111111111111111111111111111111111111111111111111111111111111111111111111111,
  0x1111111111111111111111111111111111111111111111111111111111111111111111111111111111111111111111111111111111111111111111111111111111111111111111111111111111111111111111111111111111111111111111111111111111111111111111111111111111111111111111111111111111111111111111111111111111111111111111111111111111111111111111111111111111111111111111111111111111111111111111111111111111111111111111111111111111111111111111111111]

def bpDecompLen (i : Nat) : Nat := cell 4 2059 (pack 1648 bpDecompLenRows 0) i

/-- `bp_decomp_pool[3404]`, 80 entries of 6 digits a row. -/
def bpDecompPoolRows : List Nat := [
  0x00004100030000004100030100004100030200004100030300004100030800004100030A00004300032700004500030000004500030100004500030200004500030800004900030000004900030100004900030200004900030800004E00030300004F00030000004F00030100004F00030200004F00030300004F00030800005500030000005500030100005500030200005500030800005900030100006100030000006100030100006100030200006100030300006100030800006100030A000063000327000065000300000065000301000065000302000065000308000069000300000069000301000069000302,
  0x00006900030800006E00030300006F00030000006F00030100006F00030200006F00030300006F00030800007500030000007500030100007500030200007500030800007900030100007900030800004100030400006100030400004100030600006100030600004100032800006100032800004300030100006300030100004300030200006300030200004300030700006300030700004300030C00006300030C00004400030C00006400030C00004500030400006500030400004500030600006500030600004500030700006500030700004500032800006500032800004500030C00006500030C000047000302,
  0x00006700030200004700030600006700030600004700030700006700030700004700032700006700032700004800030200006800030200004900030300006900030300004900030400006900030400004900030600006900030600004900032800006900032800004900030700004A00030200006A00030200004B00032700006B00032700004C00030100006C00030100004C00032700006C00032700004C00030C00006C00030C00004E00030100006E00030100004E00032700006E00032700004E00030C00006E00030C00004F00030400006F00030400004F00030600006F00030600004F00030B00006F00030B,
  0x00005200030100007200030100005200032700007200032700005200030C00007200030C00005300030100007300030100005300030200007300030200005300032700007300032700005300030C00007300030C00005400032700007400032700005400030C00007400030C00005500030300007500030300005500030400007500030400005500030600007500030600005500030A00007500030A00005500030B00007500030B00005500032800007500032800005700030200007700030200005900030200007900030200005900030800005A00030100007A00030100005A00030700007A00030700005A00030C,
  0x00007A00030C00004F00031B00006F00031B00005500031B00007500031B00004100030C00006100030C00004900030C00006900030C00004F00030C00006F00030C00005500030C00007500030C00005500030800030400007500030800030400005500030800030100007500030800030100005500030800030C00007500030800030C0000550003080003000000750003080003000000410003080003040000610003080003040000410003070003040000610003070003040000C60003040000E600030400004700030C00006700030C00004B00030C00006B00030C00004F00032800006F00032800004F000328,
  0x00030400006F0003280003040001B700030C00029200030C00006A00030C00004700030100006700030100004E00030000006E00030000004100030A00030100006100030A0003010000C60003010000E60003010000D80003010000F800030100004100030F00006100030F00004100031100006100031100004500030F00006500030F00004500031100006500031100004900030F00006900030F00004900031100006900031100004F00030F00006F00030F00004F00031100006F00031100005200030F00007200030F00005200031100007200031100005500030F00007500030F000055000311000075000311,
  0x00005300032600007300032600005400032600007400032600004800030C00006800030C00004100030700006100030700004500032700006500032700004F00030800030400006F00030800030400004F00030300030400006F00030300030400004F00030700006F00030700004F00030700030400006F0003070003040000590003040000790003040003000003010003130003080003010002B900003B0000A80003010003910003010000B700039500030100039700030100039900030100039F0003010003A50003010003A90003010003B90003080003010003990003080003A50003080003B10003010003B5,
  0x0003010003B70003010003B90003010003C50003080003010003B90003080003C50003080003BF0003010003C50003010003C90003010003D20003010003D200030800041500030000041500030800041300030100040600030800041A00030100041800030000042300030600041800030600043800030600043500030000043500030800043300030100045600030800043A00030100043800030000044300030600047400030F00047500030F0004160003060004360003060004100003060004300003060004100003080004300003080004150003060004350003060004D80003080004D9000308000416000308,
  0x00043600030800041700030800043700030800041800030400043800030400041800030800043800030800041E00030800043E0003080004E80003080004E900030800042D00030800044D00030800042300030400044300030400042300030800044300030800042300030B00044300030B00042700030800044700030800042B00030800044B00030800062700065300062700065400064800065400062700065500064A0006540006D50006540006C10006540006D200065400092800093C00093000093C00093300093C00091500093C00091600093C00091700093C00091C00093C00092100093C00092200093C,
  0x00092B00093C00092F00093C0009C70009BE0009C70009D70009A10009BC0009A20009BC0009AF0009BC000A32000A3C000A38000A3C000A16000A3C000A17000A3C000A1C000A3C000A2B000A3C000B47000B56000B47000B3E000B47000B57000B21000B3C000B22000B3C000B92000BD7000BC6000BBE000BC7000BBE000BC6000BD7000C46000C56000CBF000CD5000CC6000CD5000CC6000CD6000CC6000CC2000CC6000CC2000CD5000D46000D3E000D47000D3E000D46000D57000DD9000DCA000DD9000DCF000DD9000DCF000DCA000DD9000DDF000F42000FB7000F4C000FB7000F51000FB7000F56000FB7,
  0x000F5B000FB7000F40000FB5000F71000F72000F71000F74000FB2000F80000FB3000F80000F71000F80000F92000FB7000F9C000FB7000FA1000FB7000FA6000FB7000FAB000FB7000F90000FB500102500102E001B05001B35001B07001B35001B09001B35001B0B001B35001B0D001B35001B11001B35001B3A001B35001B3C001B35001B3E001B35001B3F001B35001B42001B35000041000325000061000325000042000307000062000307000042000323000062000323000042000331000062000331000043000327000301000063000327000301000044000307000064000307000044000323000064000323,
  0x00004400033100006400033100004400032700006400032700004400032D00006400032D00004500030400030000006500030400030000004500030400030100006500030400030100004500032D00006500032D00004500033000006500033000004500032700030600006500032700030600004600030700006600030700004700030400006700030400004800030700006800030700004800032300006800032300004800030800006800030800004800032700006800032700004800032E00006800032E00004900033000006900033000004900030800030100006900030800030100004B00030100006B000301,
  0x00004B00032300006B00032300004B00033100006B00033100004C00032300006C00032300004C00032300030400006C00032300030400004C00033100006C00033100004C00032D00006C00032D00004D00030100006D00030100004D00030700006D00030700004D00032300006D00032300004E00030700006E00030700004E00032300006E00032300004E00033100006E00033100004E00032D00006E00032D00004F00030300030100006F00030300030100004F00030300030800006F00030300030800004F00030400030000006F00030400030000004F00030400030100006F000304000301000050000301,
  0x00007000030100005000030700007000030700005200030700007200030700005200032300007200032300005200032300030400007200032300030400005200033100007200033100005300030700007300030700005300032300007300032300005300030100030700007300030100030700005300030C00030700007300030C00030700005300032300030700007300032300030700005400030700007400030700005400032300007400032300005400033100007400033100005400032D00007400032D00005500032400007500032400005500033000007500033000005500032D00007500032D000055000303,
  0x00030100007500030300030100005500030400030800007500030400030800005600030300007600030300005600032300007600032300005700030000007700030000005700030100007700030100005700030800007700030800005700030700007700030700005700032300007700032300005800030700007800030700005800030800007800030800005900030700007900030700005A00030200007A00030200005A00032300007A00032300005A00033100007A00033100006800033100007400030800007700030A00007900030A00017F000307000041000323000061000323000041000309000061000309,
  0x000041000302000301000061000302000301000041000302000300000061000302000300000041000302000309000061000302000309000041000302000303000061000302000303000041000323000302000061000323000302000041000306000301000061000306000301000041000306000300000061000306000300000041000306000309000061000306000309000041000306000303000061000306000303000041000323000306000061000323000306000045000323000065000323000045000309000065000309000045000303000065000303000045000302000301000065000302000301000045000302,
  0x00030000006500030200030000004500030200030900006500030200030900004500030200030300006500030200030300004500032300030200006500032300030200004900030900006900030900004900032300006900032300004F00032300006F00032300004F00030900006F00030900004F00030200030100006F00030200030100004F00030200030000006F00030200030000004F00030200030900006F00030200030900004F00030200030300006F00030200030300004F00032300030200006F00032300030200004F00031B00030100006F00031B00030100004F00031B00030000006F00031B000300,
  0x00004F00031B00030900006F00031B00030900004F00031B00030300006F00031B00030300004F00031B00032300006F00031B00032300005500032300007500032300005500030900007500030900005500031B00030100007500031B00030100005500031B00030000007500031B00030000005500031B00030900007500031B00030900005500031B00030300007500031B00030300005500031B00032300007500031B0003230000590003000000790003000000590003230000790003230000590003090000790003090000590003030000790003030003B10003130003B10003140003B10003130003000003B1,
  0x0003140003000003B10003130003010003B10003140003010003B10003130003420003B10003140003420003910003130003910003140003910003130003000003910003140003000003910003130003010003910003140003010003910003130003420003910003140003420003B50003130003B50003140003B50003130003000003B50003140003000003B50003130003010003B50003140003010003950003130003950003140003950003130003000003950003140003000003950003130003010003950003140003010003B70003130003B70003140003B70003130003000003B70003140003000003B7000313,
  0x0003010003B70003140003010003B70003130003420003B70003140003420003970003130003970003140003970003130003000003970003140003000003970003130003010003970003140003010003970003130003420003970003140003420003B90003130003B90003140003B90003130003000003B90003140003000003B90003130003010003B90003140003010003B90003130003420003B90003140003420003990003130003990003140003990003130003000003990003140003000003990003130003010003990003140003010003990003130003420003990003140003420003BF0003130003BF000314,
  0x0003BF0003130003000003BF0003140003000003BF0003130003010003BF00031400030100039F00031300039F00031400039F00031300030000039F00031400030000039F00031300030100039F0003140003010003C50003130003C50003140003C50003130003000003C50003140003000003C50003130003010003C50003140003010003C50003130003420003C50003140003420003A50003140003A50003140003000003A50003140003010003A50003140003420003C90003130003C90003140003C90003130003000003C90003140003000003C90003130003010003C90003140003010003C9000313000342,
  0x0003C90003140003420003A90003130003A90003140003A90003130003000003A90003140003000003A90003130003010003A90003140003010003A90003130003420003A90003140003420003B10003000003B10003010003B50003000003B50003010003B70003000003B70003010003B90003000003B90003010003BF0003000003BF0003010003C50003000003C50003010003C90003000003C90003010003B10003130003450003B10003140003450003B10003130003000003450003B10003140003000003450003B10003130003010003450003B10003140003010003450003B10003130003420003450003B1,
  0x0003140003420003450003910003130003450003910003140003450003910003130003000003450003910003140003000003450003910003130003010003450003910003140003010003450003910003130003420003450003910003140003420003450003B70003130003450003B70003140003450003B70003130003000003450003B70003140003000003450003B70003130003010003450003B70003140003010003450003B70003130003420003450003B7000314000342000345000397000313000345000397000314000345000397000313000300000345000397000314000300000345000397000313000301,
  0x0003450003970003140003010003450003970003130003420003450003970003140003420003450003C90003130003450003C90003140003450003C90003130003000003450003C90003140003000003450003C90003130003010003450003C90003140003010003450003C90003130003420003450003C90003140003420003450003A90003130003450003A90003140003450003A90003130003000003450003A90003140003000003450003A90003130003010003450003A90003140003010003450003A90003130003420003450003A90003140003420003450003B10003060003B10003040003B1000300000345,
  0x0003B10003450003B10003010003450003B10003420003B10003420003450003910003060003910003040003910003000003910003010003910003450003B90000A80003420003B70003000003450003B70003450003B70003010003450003B70003420003B7000342000345000395000300000395000301000397000300000397000301000397000345001FBF000300001FBF000301001FBF0003420003B90003060003B90003040003B90003080003000003B90003080003010003B90003420003B9000308000342000399000306000399000304000399000300000399000301001FFE000300001FFE000301001FFE,
  0x0003420003C50003060003C50003040003C50003080003000003C50003080003010003C10003130003C10003140003C50003420003C50003080003420003A50003060003A50003040003A50003000003A50003010003A10003140000A80003000000A80003010000600003C90003000003450003C90003450003C90003010003450003C90003420003C900034200034500039F00030000039F0003010003A90003000003A90003010003A90003450000B40020020020030003A900004B00004100030A0021900003380021920003380021940003380021D00003380021D40003380021D2000338002203000338002208,
  0x00033800220B00033800222300033800222500033800223C00033800224300033800224500033800224800033800003D00033800226100033800224D00033800003C00033800003E00033800226400033800226500033800227200033800227300033800227600033800227700033800227A00033800227B0003380022820003380022830003380022860003380022870003380022A20003380022A80003380022A90003380022AB00033800227C00033800227D0003380022910003380022920003380022B20003380022B30003380022B40003380022B5000338003008003009002ADD00033800304B00309900304D,
  0x00309900304F00309900305100309900305300309900305500309900305700309900305900309900305B00309900305D00309900305F00309900306100309900306400309900306600309900306800309900306F00309900306F00309A00307200309900307200309A00307500309900307500309A00307800309900307800309A00307B00309900307B00309A00304600309900309D0030990030AB0030990030AD0030990030AF0030990030B10030990030B30030990030B50030990030B70030990030B90030990030BB0030990030BD0030990030BF0030990030C10030990030C40030990030C60030990030C8,
  0x0030990030CF0030990030CF00309A0030D20030990030D200309A0030D50030990030D500309A0030D80030990030D800309A0030DB0030990030DB00309A0030A60030990030EF0030990030F00030990030F10030990030F20030990030FD003099008C480066F4008ECA008CC8006ED1004E320053E5009F9C009F9C0059510091D10055870059480061F6007669007F8500863F0087BA0088F800908F006A02006D1B0070D90073DE00843D00916A0099F1004E82005375006B0400721B00862D009E1E005D50006FEB0085CD0089640062C90081D800881F005ECA006717006D6A0072FC0090CE004F860051B7,
  0x0052DE0064C4006AD30072100076E700800100860600865C008DEF009732009B6F009DFA00788C00797F007DA00083C9009304009E7F008AD60058DF005F04007C6000807E0072620078CA008CC20096F70058D8005C62006A13006DDA006F0F007D2F007E3700964B0052D200808B0051DC0051CC007A1C007DBE0083F1009675008B800062CF006A02008AFE004E39005BE70060120073870075700053170078FB004FBF005FA9004E0D006CCC006578007D220053C300585E007701008449008AAA006BBA008FB0006C880062FE0082E50063A0007565004EAE0051690051C9006881007CE700826F008AD20091CF,
  0x0052F5005442005973005EEC0065C5006FFE00792A0095AD009A6A009E97009ECE00529B0066C6006B77008F62005E7400619000620000649A006F230071490074890079CA007DF400806F008F260084EE00902300934A0052170052A30054BD0070C80088C2008AAA005EC9005FF500637B006BAE007C3E007375004EE40056F9005BE7005DBA00601C0073B2007469007F9A0080460092340096F6009748009818004F8B0079AE0091B40096B80060E1004E860050DA005BEE005C3F006599006A020071CE0076420084FC00907C009F8D00668800962E00528900677B0067F3006D41006E9C00740900755900786B,
  0x007D1000985E00516D00622E00967800502B005D19006DEA008F2A005F8B00614400681700738700968600522900540F005C6500661300674E0068A8006CE50074060075E2007F790088CF0088E10091CC0096E200533F006EBA00541D0071D00074980085FA0096A3009C57009E9F006797006DCB0081E8007ACB007B20007C920072C0007099008B58004EC000833600523A005207005EA60062D3007CD6005B85006D1E0066B4008F3B00884C00964D00898B005ED30051400055C000585A0066740051DE00732A0076CA00793C00795E00796500798F009756007CBE007FBD008612008AF80090380090FD0098EF,
  0x0098FC009928009DB40090DE0096B7004FAE0050E700514D0052C90052E400535100559D0056060056680058400058A8005C64005C6E00609400616800618E0061F200654F0065E2006691006885006D77006E1A006F2200716E00722B00742200789100793E00794900794800795000795600795D00798D00798E007A40007A81007BC0007DF4007E09007E41007F720080050081ED008279008279008457008910008996008B01008B39008CD3008D08008FB60090380096E30097FF00983B0060750242EE008218004E260051B5005168004F800051450051800052C70052FA00559D0055550055990055E200585A,
  0x0058B3005944005954005A62005B28005ED2005ED9005F69005FAD0060D800614E00610800618E0061600061F20062340063C400641C00645200655600667400671700671B006756006B79006BBA006D41006EDB006ECB006F2200701E00716E0077A70072350072AF00732A00747100750600753B00761D00761F0076CA0076DB0076F400774A0077400078CC007AB1007BC0007C7B007D5B007DF4007F3E0080050083520083EF008779008941008986008996008ABF008AF8008ACB008B01008AFE008AED008B39008B8A008D08008F3800907200919900927600967C0096E30097560097DB0097FF00980B00983B,
  0x009B12009F9C02284A0228440233D5003B9D004018004039025249025CD0027ED3009F43009F8E0005D90005B40005F20005B70005E90005C10005E90005C20005E90005BC0005C10005E90005BC0005C20005D00005B70005D00005B80005D00005BC0005D10005BC0005D20005BC0005D30005BC0005D40005BC0005D50005BC0005D60005BC0005D80005BC0005D90005BC0005DA0005BC0005DB0005BC0005DC0005BC0005DE0005BC0005E00005BC0005E10005BC0005E30005BC0005E40005BC0005E60005BC0005E70005BC0005E80005BC0005E90005BC0005EA0005BC0005D50005B90005D10005BF0005DB,
  0x0005BF0005E40005BF0110990110BA01109B0110BA0110A50110BA01113101112701113201112701134701133E0113470113570114B90114BA0114B90114B00114B90114BD0115B80115AF0115B90115AF01D15701D16501D15801D16501D15801D16501D16E01D15801D16501D16F01D15801D16501D17001D15801D16501D17101D15801D16501D17201D1B901D16501D1BA01D16501D1B901D16501D16E01D1BA01D16501D16E01D1B901D16501D16F01D1BA01D16501D16F004E3D004E38004E41020122004F60004FAE004FBB00500200507A0050990050E70050CF00349E02063A00514D005154005164005177,
  0x02051C0034B900516700518D02054B0051970051A4004ECC0051AC0051B50291DF0051F50052030034DF00523B0052460052720052770035150052C70052C90052E40052FA00530500530600531700534900535100535A00537300537D00537F00537F00537F020A2C0070700053CA0053DF020B630053EB0053F100540600549E0054380054480054680054A20054F60055100055530055630055840055840055990055AB0055B30055C20057160056060057170056510056740052070058EE0057CE0057F400580D00578B0058320058310058AC0214E40058F20058F700590600591A0059220059620216A80216EA,
  0x0059EC005A1B005A270059D8005A660036EE0036FC005B08005B3E005B3E0219C8005BC3005BD8005BE7005BF3021B18005BFF005C06005F53005C22003781005C60005C6E005CC0005C8D021DE4005D43021DE6005D6E005D6B005D7C005DE1005DE200382F005DFD005E28005E3D005E6900386202218300387C005EB0005EB3005EB6005ECA02A392005EFE022331022331008201005F22005F220038C70232B80261DA005F62005F6B0038E3005F9A005FCD005FD7005FF900608100393A00391C0060940226D40060C700614800614C00614E00614C00617A00618E0061B20061A40061AF0061DE0061F20061F6,
  0x00621000621B00625D0062B10062D4006350022B0C00633D0062FC0063680063830063E4022BF10064220063C50063A9003A2E00646900647E00649D006477003A6C00654F00656C02300A0065E30066F8006649003B19006691003B08003AE400519200519500670000669C0080AD0043D900671700671B00672100675E0067530233C3003B490067FA00678500685200688502346D00688E00681F006914003B9D0069420069A30069EA006AA80236A3006ADB003C18006B210238A7006B54003C4E006B72006B9F006BBA006BBB023A8D021D0B023AFA006C4E023CBC006CBF006CCD006C67006D16006D3E006D77,
  0x006D41006D69006D78006D85023D1E006D34006E2F006E6E003D33006ECB006EC7023ED1006DF9006F6E023F5E023F8E006FC600703900701E00701B003D9600704A00707D0070770070AD02052500714502426300719C0243AB00722800723500725002460800728000729502473502481400737A00738B003EAC0073A5003EB8003EB800744700745C0074710074850074CA003F1B007524024C3600753E024C9200757002219F007610024FA1024FB8025044003FFC0040080076F40250F30250F202511902513300771E00771F00771F00774A00403900778B00404600409602541D00784E00788C0078CC0040E3,
  0x02562600795602569A0256C500798F0079EB00412F007A40007A4A007A4F02597C025AA7025AA7007AEE004202025BAB007BC6007BC9004227025C80007CD20042A0007CE8007CE3007D00025F86007D63004301007DC7007E02007E450043340262280262470043590262D9007F7A02633E007F95007FFA0080050264DA0265230080600265A800807002335F0043D50080B200810300440B00813E005AB50267A70267B502339302339C008201008204008F9E00446B00829100828B00829D0052B30082B10082B30082BD0082E6026B3C0082E500831D0083630083AD0083230083BD0083E70084570083530083CA,
  0x0083CC0083DC026C36026D6B026CD500452B0084F10084F30085160273CA008564026F2C00455D004561026FB10270D200456B00865000865C0086670086690086A900868800870E0086E200877900872800876B0087860045D70087E10088010045F90088600088630276670088D70088DE0046350088FA0034BB0278AE0279660046BE0046C7008AA0008AED008B8A008C55027CA8008CAB008CC1008D1B008D77027F2F020804008DCB008DBC008DF00208DE008ED4008F380285D20285ED0090940090F100911102872E00911B0092380092D70092D800927C0093F9009415028BFA00958B0049950095B7028D77,
  0x0049E60096C3005DB200972302914502921A004A6E004A760097E002940A004AB202949600980B00980B0098290295B60098E2004B330099290099A70099C20099FE004BCE029B30009B12009C40009CFD004CCE004CED009D6702A0CE004CF802A10502A20E02A291009EBB004D56009EF9009EFE009F05009F0F009F16009F3B02A600000000000000000000000000000000000000000000000000000000000000000000000000000000000000000000000000000000000000000000000000000000000000000000000000000000000000000000000000000000000000000000000000000000000000000000000000]

def bpDecompPool (i : Nat) : Nat := cell 24 3439 (pack 1920 bpDecompPoolRows 0) i

/-- `bp_compose_key[940]`, 30 entries of 16 digits a row. -/
def bpComposeKeyRows : List Nat := [
  0x0000003C000003380000003D000003380000003E00000338000000410000030000000041000003010000004100000302000000410000030300000041000003040000004100000306000000410000030700000041000003080000004100000309000000410000030A000000410000030C000000410000030F0000004100000311000000410000032300000041000003250000004100000328000000420000030700000042000003230000004200000331000000430000030100000043000003020000004300000307000000430000030C00000043000003270000004400000307000000440000030C0000004400000323,
  0x0000004400000327000000440000032D0000004400000331000000450000030000000045000003010000004500000302000000450000030300000045000003040000004500000306000000450000030700000045000003080000004500000309000000450000030C000000450000030F0000004500000311000000450000032300000045000003270000004500000328000000450000032D0000004500000330000000460000030700000047000003010000004700000302000000470000030400000047000003060000004700000307000000470000030C000000470000032700000048000003020000004800000307,
  0x0000004800000308000000480000030C00000048000003230000004800000327000000480000032E000000490000030000000049000003010000004900000302000000490000030300000049000003040000004900000306000000490000030700000049000003080000004900000309000000490000030C000000490000030F00000049000003110000004900000323000000490000032800000049000003300000004A000003020000004B000003010000004B0000030C0000004B000003230000004B000003270000004B000003310000004C000003010000004C0000030C0000004C000003230000004C00000327,
  0x0000004C0000032D0000004C000003310000004D000003010000004D000003070000004D000003230000004E000003000000004E000003010000004E000003030000004E000003070000004E0000030C0000004E000003230000004E000003270000004E0000032D0000004E000003310000004F000003000000004F000003010000004F000003020000004F000003030000004F000003040000004F000003060000004F000003070000004F000003080000004F000003090000004F0000030B0000004F0000030C0000004F0000030F0000004F000003110000004F0000031B0000004F000003230000004F00000328,
  0x0000005000000301000000500000030700000052000003010000005200000307000000520000030C000000520000030F0000005200000311000000520000032300000052000003270000005200000331000000530000030100000053000003020000005300000307000000530000030C0000005300000323000000530000032600000053000003270000005400000307000000540000030C000000540000032300000054000003260000005400000327000000540000032D0000005400000331000000550000030000000055000003010000005500000302000000550000030300000055000003040000005500000306,
  0x00000055000003080000005500000309000000550000030A000000550000030B000000550000030C000000550000030F0000005500000311000000550000031B000000550000032300000055000003240000005500000328000000550000032D000000550000033000000056000003030000005600000323000000570000030000000057000003010000005700000302000000570000030700000057000003080000005700000323000000580000030700000058000003080000005900000300000000590000030100000059000003020000005900000303000000590000030400000059000003070000005900000308,
  0x000000590000030900000059000003230000005A000003010000005A000003020000005A000003070000005A0000030C0000005A000003230000005A00000331000000610000030000000061000003010000006100000302000000610000030300000061000003040000006100000306000000610000030700000061000003080000006100000309000000610000030A000000610000030C000000610000030F0000006100000311000000610000032300000061000003250000006100000328000000620000030700000062000003230000006200000331000000630000030100000063000003020000006300000307,
  0x000000630000030C00000063000003270000006400000307000000640000030C00000064000003230000006400000327000000640000032D0000006400000331000000650000030000000065000003010000006500000302000000650000030300000065000003040000006500000306000000650000030700000065000003080000006500000309000000650000030C000000650000030F0000006500000311000000650000032300000065000003270000006500000328000000650000032D000000650000033000000066000003070000006700000301000000670000030200000067000003040000006700000306,
  0x0000006700000307000000670000030C0000006700000327000000680000030200000068000003070000006800000308000000680000030C00000068000003230000006800000327000000680000032E000000680000033100000069000003000000006900000301000000690000030200000069000003030000006900000304000000690000030600000069000003080000006900000309000000690000030C000000690000030F00000069000003110000006900000323000000690000032800000069000003300000006A000003020000006A0000030C0000006B000003010000006B0000030C0000006B00000323,
  0x0000006B000003270000006B000003310000006C000003010000006C0000030C0000006C000003230000006C000003270000006C0000032D0000006C000003310000006D000003010000006D000003070000006D000003230000006E000003000000006E000003010000006E000003030000006E000003070000006E0000030C0000006E000003230000006E000003270000006E0000032D0000006E000003310000006F000003000000006F000003010000006F000003020000006F000003030000006F000003040000006F000003060000006F000003070000006F000003080000006F000003090000006F0000030B,
  0x0000006F0000030C0000006F0000030F0000006F000003110000006F0000031B0000006F000003230000006F000003280000007000000301000000700000030700000072000003010000007200000307000000720000030C000000720000030F0000007200000311000000720000032300000072000003270000007200000331000000730000030100000073000003020000007300000307000000730000030C00000073000003230000007300000326000000730000032700000074000003070000007400000308000000740000030C000000740000032300000074000003260000007400000327000000740000032D,
  0x000000740000033100000075000003000000007500000301000000750000030200000075000003030000007500000304000000750000030600000075000003080000007500000309000000750000030A000000750000030B000000750000030C000000750000030F0000007500000311000000750000031B000000750000032300000075000003240000007500000328000000750000032D00000075000003300000007600000303000000760000032300000077000003000000007700000301000000770000030200000077000003070000007700000308000000770000030A00000077000003230000007800000307,
  0x000000780000030800000079000003000000007900000301000000790000030200000079000003030000007900000304000000790000030700000079000003080000007900000309000000790000030A00000079000003230000007A000003010000007A000003020000007A000003070000007A0000030C0000007A000003230000007A00000331000000A800000300000000A800000301000000A800000342000000C200000300000000C200000301000000C200000303000000C200000309000000C400000304000000C500000301000000C600000301000000C600000304000000C700000301000000CA00000300,
  0x000000CA00000301000000CA00000303000000CA00000309000000CF00000301000000D400000300000000D400000301000000D400000303000000D400000309000000D500000301000000D500000304000000D500000308000000D600000304000000D800000301000000DC00000300000000DC00000301000000DC00000304000000DC0000030C000000E200000300000000E200000301000000E200000303000000E200000309000000E400000304000000E500000301000000E600000301000000E600000304000000E700000301000000EA00000300000000EA00000301000000EA00000303000000EA00000309,
  0x000000EF00000301000000F400000300000000F400000301000000F400000303000000F400000309000000F500000301000000F500000304000000F500000308000000F600000304000000F800000301000000FC00000300000000FC00000301000000FC00000304000000FC0000030C0000010200000300000001020000030100000102000003030000010200000309000001030000030000000103000003010000010300000303000001030000030900000112000003000000011200000301000001130000030000000113000003010000014C000003000000014C000003010000014D000003000000014D00000301,
  0x0000015A000003070000015B0000030700000160000003070000016100000307000001680000030100000169000003010000016A000003080000016B000003080000017F00000307000001A000000300000001A000000301000001A000000303000001A000000309000001A000000323000001A100000300000001A100000301000001A100000303000001A100000309000001A100000323000001AF00000300000001AF00000301000001AF00000303000001AF00000309000001AF00000323000001B000000300000001B000000301000001B000000303000001B000000309000001B000000323000001B70000030C,
  0x000001EA00000304000001EB0000030400000226000003040000022700000304000002280000030600000229000003060000022E000003040000022F00000304000002920000030C000003910000030000000391000003010000039100000304000003910000030600000391000003130000039100000314000003910000034500000395000003000000039500000301000003950000031300000395000003140000039700000300000003970000030100000397000003130000039700000314000003970000034500000399000003000000039900000301000003990000030400000399000003060000039900000308,
  0x000003990000031300000399000003140000039F000003000000039F000003010000039F000003130000039F00000314000003A100000314000003A500000300000003A500000301000003A500000304000003A500000306000003A500000308000003A500000314000003A900000300000003A900000301000003A900000313000003A900000314000003A900000345000003AC00000345000003AE00000345000003B100000300000003B100000301000003B100000304000003B100000306000003B100000313000003B100000314000003B100000342000003B100000345000003B500000300000003B500000301,
  0x000003B500000313000003B500000314000003B700000300000003B700000301000003B700000313000003B700000314000003B700000342000003B700000345000003B900000300000003B900000301000003B900000304000003B900000306000003B900000308000003B900000313000003B900000314000003B900000342000003BF00000300000003BF00000301000003BF00000313000003BF00000314000003C100000313000003C100000314000003C500000300000003C500000301000003C500000304000003C500000306000003C500000308000003C500000313000003C500000314000003C500000342,
  0x000003C900000300000003C900000301000003C900000313000003C900000314000003C900000342000003C900000345000003CA00000300000003CA00000301000003CA00000342000003CB00000300000003CB00000301000003CB00000342000003CE00000345000003D200000301000003D200000308000004060000030800000410000003060000041000000308000004130000030100000415000003000000041500000306000004150000030800000416000003060000041600000308000004170000030800000418000003000000041800000304000004180000030600000418000003080000041A00000301,
  0x0000041E00000308000004230000030400000423000003060000042300000308000004230000030B00000427000003080000042B000003080000042D0000030800000430000003060000043000000308000004330000030100000435000003000000043500000306000004350000030800000436000003060000043600000308000004370000030800000438000003000000043800000304000004380000030600000438000003080000043A000003010000043E00000308000004430000030400000443000003060000044300000308000004430000030B00000447000003080000044B000003080000044D00000308,
  0x0000045600000308000004740000030F000004750000030F000004D800000308000004D900000308000004E800000308000004E90000030800000627000006530000062700000654000006270000065500000648000006540000064A00000654000006C100000654000006D200000654000006D500000654000009280000093C000009300000093C000009330000093C000009C7000009BE000009C7000009D700000B4700000B3E00000B4700000B5600000B4700000B5700000B9200000BD700000BC600000BBE00000BC600000BD700000BC700000BBE00000C4600000C5600000CBF00000CD500000CC600000CC2,
  0x00000CC600000CD500000CC600000CD600000CCA00000CD500000D4600000D3E00000D4600000D5700000D4700000D3E00000DD900000DCA00000DD900000DCF00000DD900000DDF00000DDC00000DCA000010250000102E00001B0500001B3500001B0700001B3500001B0900001B3500001B0B00001B3500001B0D00001B3500001B1100001B3500001B3A00001B3500001B3C00001B3500001B3E00001B3500001B3F00001B3500001B4200001B3500001E360000030400001E370000030400001E5A0000030400001E5B0000030400001E620000030700001E630000030700001EA00000030200001EA000000306,
  0x00001EA10000030200001EA10000030600001EB80000030200001EB90000030200001ECC0000030200001ECD0000030200001F000000030000001F000000030100001F000000034200001F000000034500001F010000030000001F010000030100001F010000034200001F010000034500001F020000034500001F030000034500001F040000034500001F050000034500001F060000034500001F070000034500001F080000030000001F080000030100001F080000034200001F080000034500001F090000030000001F090000030100001F090000034200001F090000034500001F0A0000034500001F0B00000345,
  0x00001F0C0000034500001F0D0000034500001F0E0000034500001F0F0000034500001F100000030000001F100000030100001F110000030000001F110000030100001F180000030000001F180000030100001F190000030000001F190000030100001F200000030000001F200000030100001F200000034200001F200000034500001F210000030000001F210000030100001F210000034200001F210000034500001F220000034500001F230000034500001F240000034500001F250000034500001F260000034500001F270000034500001F280000030000001F280000030100001F280000034200001F2800000345,
  0x00001F290000030000001F290000030100001F290000034200001F290000034500001F2A0000034500001F2B0000034500001F2C0000034500001F2D0000034500001F2E0000034500001F2F0000034500001F300000030000001F300000030100001F300000034200001F310000030000001F310000030100001F310000034200001F380000030000001F380000030100001F380000034200001F390000030000001F390000030100001F390000034200001F400000030000001F400000030100001F410000030000001F410000030100001F480000030000001F480000030100001F490000030000001F4900000301,
  0x00001F500000030000001F500000030100001F500000034200001F510000030000001F510000030100001F510000034200001F590000030000001F590000030100001F590000034200001F600000030000001F600000030100001F600000034200001F600000034500001F610000030000001F610000030100001F610000034200001F610000034500001F620000034500001F630000034500001F640000034500001F650000034500001F660000034500001F670000034500001F680000030000001F680000030100001F680000034200001F680000034500001F690000030000001F690000030100001F6900000342,
  0x00001F690000034500001F6A0000034500001F6B0000034500001F6C0000034500001F6D0000034500001F6E0000034500001F6F0000034500001F700000034500001F740000034500001F7C0000034500001FB60000034500001FBF0000030000001FBF0000030100001FBF0000034200001FC60000034500001FF60000034500001FFE0000030000001FFE0000030100001FFE00000342000021900000033800002192000003380000219400000338000021D000000338000021D200000338000021D400000338000022030000033800002208000003380000220B0000033800002223000003380000222500000338,
  0x0000223C000003380000224300000338000022450000033800002248000003380000224D0000033800002261000003380000226400000338000022650000033800002272000003380000227300000338000022760000033800002277000003380000227A000003380000227B000003380000227C000003380000227D00000338000022820000033800002283000003380000228600000338000022870000033800002291000003380000229200000338000022A200000338000022A800000338000022A900000338000022AB00000338000022B200000338000022B300000338000022B400000338000022B500000338,
  0x00003046000030990000304B000030990000304D000030990000304F00003099000030510000309900003053000030990000305500003099000030570000309900003059000030990000305B000030990000305D000030990000305F0000309900003061000030990000306400003099000030660000309900003068000030990000306F000030990000306F0000309A0000307200003099000030720000309A0000307500003099000030750000309A0000307800003099000030780000309A0000307B000030990000307B0000309A0000309D00003099000030A600003099000030AB00003099000030AD00003099,
  0x000030AF00003099000030B100003099000030B300003099000030B500003099000030B700003099000030B900003099000030BB00003099000030BD00003099000030BF00003099000030C100003099000030C400003099000030C600003099000030C800003099000030CF00003099000030CF0000309A000030D200003099000030D20000309A000030D500003099000030D50000309A000030D800003099000030D80000309A000030DB00003099000030DB0000309A000030EF00003099000030F000003099000030F100003099000030F200003099000030FD0000309900011099000110BA0001109B000110BA,
  0x000110A5000110BA00011131000111270001113200011127000113470001133E0001134700011357000114B9000114B0000114B9000114BA000114B9000114BD000115B8000115AF000115B9000115AF00000000000000000000000000000000000000000000000000000000000000000000000000000000000000000000000000000000000000000000000000000000000000000000000000000000000000000000000000000000000000000000000000000000000000000000000000000000000000000000000000000000000000000000000000000000000000000000000000000000000000000000000000000000]

def bpComposeKey (i : Nat) : Nat := cell 64 959 (pack 1920 bpComposeKeyRows 0) i

/-- `bp_compose_val[940]`, 80 entries of 6 digits a row. -/
def bpComposeValRows : List Nat := [
  0x00226E00226000226F0000C00000C10000C20000C30001000001020002260000C4001EA20000C50001CD000200000202001EA0001E00000104001E02001E04001E0600010600010800010A00010C0000C7001E0A00010E001E0C001E10001E12001E0E0000C80000C90000CA001EBC0001120001140001160000CB001EBA00011A000204000206001EB8000228000118001E18001E1A001E1E0001F400011C001E2000011E0001200001E6000122000124001E22001E2600021E001E24001E28001E2A0000CC0000CD0000CE00012800012A00012C0001300000CF001EC80001CF00020800020A001ECA00012E001E2C,
  0x000134001E300001E8001E32000136001E3400013900013D001E3600013B001E3C001E3A001E3E001E40001E420001F80001430000D1001E44000147001E46000145001E4A001E480000D20000D30000D40000D500014C00014E00022E0000D6001ECE0001500001D100020C00020E0001A0001ECC0001EA001E54001E56000154001E58000158000210000212001E5A000156001E5E00015A00015C001E60000160001E6200021800015E001E6A000164001E6C00021A000162001E70001E6E0000D90000DA0000DB00016800016A00016C0000DC001EE600016E0001700001D30002140002160001AF001EE4001E72,
  0x000172001E76001E74001E7C001E7E001E80001E82000174001E86001E84001E88001E8A001E8C001EF20000DD000176001EF8000232001E8E000178001EF6001EF4000179001E9000017B00017D001E92001E940000E00000E10000E20000E30001010001030002270000E4001EA30000E50001CE000201000203001EA1001E01000105001E03001E05001E0700010700010900010B00010D0000E7001E0B00010F001E0D001E11001E13001E0F0000E80000E90000EA001EBD0001130001150001170000EB001EBB00011B000205000207001EB9000229000119001E19001E1B001E1F0001F500011D001E2100011F,
  0x0001210001E7000123000125001E23001E2700021F001E25001E29001E2B001E960000EC0000ED0000EE00012900012B00012D0000EF001EC90001D000020900020B001ECB00012F001E2D0001350001F0001E310001E9001E33000137001E3500013A00013E001E3700013C001E3D001E3B001E3F001E41001E430001F90001440000F1001E45000148001E47000146001E4B001E490000F20000F30000F40000F500014D00014F00022F0000F6001ECF0001510001D200020D00020F0001A1001ECD0001EB001E55001E57000155001E59000159000211000213001E5B000157001E5F00015B00015D001E61000161,
  0x001E6300021900015F001E6B001E97000165001E6D00021B000163001E71001E6F0000F90000FA0000FB00016900016B00016D0000FC001EE700016F0001710001D40002150002170001B0001EE5001E73000173001E77001E75001E7D001E7F001E81001E83000175001E87001E85001E98001E89001E8B001E8D001EF30000FD000177001EF9000233001E8F0000FF001EF7001E99001EF500017A001E9100017C00017E001E93001E95001FED000385001FC1001EA6001EA4001EAA001EA80001DE0001FA0001FC0001E2001E08001EC0001EBE001EC4001EC2001E2E001ED2001ED0001ED6001ED4001E4C00022C,
  0x001E4E00022A0001FE0001DB0001D70001D50001D9001EA7001EA5001EAB001EA90001DF0001FB0001FD0001E3001E09001EC1001EBF001EC5001EC3001E2F001ED3001ED1001ED7001ED5001E4D00022D001E4F00022B0001FF0001DC0001D80001D60001DA001EB0001EAE001EB4001EB2001EB1001EAF001EB5001EB3001E14001E16001E15001E17001E50001E52001E51001E53001E64001E65001E66001E67001E78001E79001E7A001E7B001E9B001EDC001EDA001EE0001EDE001EE2001EDD001EDB001EE1001EDF001EE3001EEA001EE8001EEE001EEC001EF0001EEB001EE9001EEF001EED001EF10001EE,
  0x0001EC0001ED0001E00001E1001E1C001E1D0002300002310001EF001FBA000386001FB9001FB8001F08001F09001FBC001FC8000388001F18001F19001FCA000389001F28001F29001FCC001FDA00038A001FD9001FD80003AA001F38001F39001FF800038C001F48001F49001FEC001FEA00038E001FE9001FE80003AB001F59001FFA00038F001F68001F69001FFC001FB4001FC4001F700003AC001FB1001FB0001F00001F01001FB6001FB3001F720003AD001F10001F11001F740003AE001F20001F21001FC6001FC3001F760003AF001FD1001FD00003CA001F30001F31001FD6001F780003CC001F40001F41,
  0x001FE4001FE5001F7A0003CD001FE1001FE00003CB001F50001F51001FE6001F7C0003CE001F60001F61001FF6001FF3001FD2000390001FD7001FE20003B0001FE7001FF40003D30003D40004070004D00004D20004030004000004D60004010004C10004DC0004DE00040D0004E20004190004E400040C0004E60004EE00040E0004F00004F20004F40004F80004EC0004D10004D30004530004500004D70004510004C20004DD0004DF00045D0004E30004390004E500045C0004E70004EF00045E0004F10004F30004F50004F90004ED0004570004760004770004DA0004DB0004EA0004EB000622000623000625,
  0x0006240006260006C20006D30006C00009290009310009340009CB0009CC000B4B000B48000B4C000B94000BCA000BCC000BCB000C48000CC0000CCA000CC7000CC8000CCB000D4A000D4C000D4B000DDA000DDC000DDE000DDD001026001B06001B08001B0A001B0C001B0E001B12001B3B001B3D001B40001B41001B43001E38001E39001E5C001E5D001E68001E69001EAC001EB6001EAD001EB7001EC6001EC7001ED8001ED9001F02001F04001F06001F80001F03001F05001F07001F81001F82001F83001F84001F85001F86001F87001F0A001F0C001F0E001F88001F0B001F0D001F0F001F89001F8A001F8B,
  0x001F8C001F8D001F8E001F8F001F12001F14001F13001F15001F1A001F1C001F1B001F1D001F22001F24001F26001F90001F23001F25001F27001F91001F92001F93001F94001F95001F96001F97001F2A001F2C001F2E001F98001F2B001F2D001F2F001F99001F9A001F9B001F9C001F9D001F9E001F9F001F32001F34001F36001F33001F35001F37001F3A001F3C001F3E001F3B001F3D001F3F001F42001F44001F43001F45001F4A001F4C001F4B001F4D001F52001F54001F56001F53001F55001F57001F5B001F5D001F5F001F62001F64001F66001FA0001F63001F65001F67001FA1001FA2001FA3001FA4,
  0x001FA5001FA6001FA7001F6A001F6C001F6E001FA8001F6B001F6D001F6F001FA9001FAA001FAB001FAC001FAD001FAE001FAF001FB2001FC2001FF2001FB7001FCD001FCE001FCF001FC7001FF7001FDD001FDE001FDF00219A00219B0021AE0021CD0021CF0021CE00220400220900220C00222400222600224100224400224700224900226D0022620022700022710022740022750022780022790022800022810022E00022E10022840022850022880022890022E20022E30022AC0022AD0022AE0022AF0022EA0022EB0022EC0022ED00309400304C00304E00305000305200305400305600305800305A00305C,
  0x00305E00306000306200306500306700306900307000307100307300307400307600307700307900307A00307C00307D00309E0030F40030AC0030AE0030B00030B20030B40030B60030B80030BA0030BC0030BE0030C00030C20030C50030C70030C90030D00030D10030D30030D40030D60030D70030D90030DA0030DC0030DD0030F70030F80030F90030FA0030FE01109A01109C0110AB01112E01112F01134B01134C0114BC0114BB0114BE0115BA0115BB000000000000000000000000000000000000000000000000000000000000000000000000000000000000000000000000000000000000000000000000]

def bpComposeVal (i : Nat) : Nat := cell 24 959 (pack 1920 bpComposeValRows 0) i

end Bytepair.Tables
