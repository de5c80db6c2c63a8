import Mathlib.Data.List.Basic
import Bytepair.Utf8

/-!
# Characters

The characters of the language and their UTF-8, next to the units of a text.
-/

namespace Bytepair

section Characters

/-- The number of a character. -/
abbrev codeOf (c : Char) : Nat := c.val.toNat

/-- The bytes of a list of characters. -/
abbrev textOf (cs : List Char) : List UInt8 := cs.flatMap String.utf8EncodeChar

theorem codeOf_scalar (c : Char) : IsScalar (codeOf c) := by
  have hvalid : codeOf c < 0xD800 ∨ 0xDFFF < codeOf c ∧ codeOf c < 0x110000 := c.valid
  unfold IsScalar
  omega

/-- Every scalar is the code of a character. -/
theorem exists_char {cp : Nat} (h : IsScalar cp) : ∃ c : Char, codeOf c = cp := by
  have hvalid : cp.isValidChar := by
    unfold Nat.isValidChar
    unfold IsScalar at h
    omega
  exact ⟨Char.ofNatAux cp hvalid, rfl⟩

theorem exists_chars {cps : List Nat} (h : ∀ cp ∈ cps, IsScalar cp) : ∃ cs : List Char, cs.map codeOf = cps := by
  induction cps with
  | nil => exact ⟨[], rfl⟩
  | cons cp cps ih =>
    obtain ⟨hcp, hcps⟩ := List.forall_mem_cons.1 h
    obtain ⟨c, hc⟩ := exists_char hcp
    obtain ⟨cs, hcs⟩ := ih hcps
    exact ⟨c :: cs, by rw [List.map_cons, hc, hcs]⟩

theorem toNat_sum {a b : Nat} (h : a + b < 256) : (UInt8.ofNat (a + b)).toNat = b + a := by
  rw [UInt8.toNat_ofNat_of_lt' h, Nat.add_comm]

/-- The ladder of the output loop is the encoding of characters. -/
theorem encodeUnit_char (c : Char) : encodeUnit (codeOf c) = String.utf8EncodeChar c := by
  have hlt : c.val.toNat < 0x110000 := (codeOf_scalar c).lt
  rw [String.utf8EncodeChar, codeOf]
  generalize c.val.toNat = v at hlt
  split
  · exact encodeUnit_one (by omega)
  split
  · apply encodeUnit_two (by omega) (by omega)
    · rw [toNat_sum (by omega), Nat.mod_eq_of_lt (by omega)]
    · rw [toNat_sum (by omega)]
  split
  · apply encodeUnit_three (by omega) (by omega)
    · rw [toNat_sum (by omega), Nat.mod_eq_of_lt (by omega)]
    · rw [toNat_sum (by omega)]
    · rw [toNat_sum (by omega)]
  · apply encodeUnit_four (by omega) (by omega)
    · rw [toNat_sum (by omega), Nat.mod_eq_of_lt (by omega)]
    · rw [toNat_sum (by omega)]
    · rw [toNat_sum (by omega)]
    · rw [toNat_sum (by omega)]

/-- The codes of some characters are encoded as their text. -/
theorem encodeUnits_chars (cs : List Char) : encodeUnits (cs.map codeOf) = textOf cs := by
  rw [encodeUnits, List.flatMap_map]
  exact List.flatMap_congr fun c _ => encodeUnit_char c

/-- The units of a text are its characters. -/
theorem units_textOf (cs : List Char) : units (textOf cs) = cs.map codeOf := by
  rw [← encodeUnits_chars]
  apply units_encodeUnits
  intro cp hcp
  obtain ⟨c, -, rfl⟩ := List.mem_map.1 hcp
  exact codeOf_scalar c

end Characters

end Bytepair
