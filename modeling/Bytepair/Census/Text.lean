import Bytepair.Census.Witness
import Bytepair.Characters

/-!
# Well-formed text

What `bp_utf8_next` reads is UTF-8 as the language defines it: `utf8_laws` compares the decoder, the tags of `bp_nfc`
and the ladder of its output loop with the encodings of characters.
-/

namespace Bytepair
open Support

section Laws

/-- Well-formed text is the text of some characters. -/
theorem wellFormed_iff {s : List UInt8} : WellFormed s ↔ ∃ cs : List Char, s = textOf cs := by
  constructor
  · intro h
    obtain ⟨cs, hcs⟩ := exists_chars h
    exact ⟨cs, by rw [← encodeUnits_chars, hcs, encodeUnits_units]⟩
  · rintro ⟨cs, rfl⟩ u hu
    rw [units_textOf] at hu
    obtain ⟨c, -, rfl⟩ := List.mem_map.1 hu
    exact codeOf_scalar c

/-- The loop over a text is told of a malformed byte. -/
def Reported (s : List UInt8) : Prop := ∃ u ∈ units s, IsTagged u

theorem not_reported_iff {s : List UInt8} : ¬Reported s ↔ WellFormed s := by
  constructor
  · intro h u hu
    rcases units_valid s u hu with hscalar | htagged
    · exact hscalar
    · exact absurd ⟨u, hu, htagged⟩ h
  · rintro h ⟨u, hu, htagged⟩
    exact htagged.not_isScalar (h u hu)

/-- **UTF-8**: on the text of characters, and on no other, the decoder reports nothing, and it reads these characters;
what it reads of any text is written back as this text. -/
theorem utf8_laws (s : List UInt8) :
    (¬Reported s ↔ ∃ cs : List Char, s = textOf cs) ∧
    (utf8Valid s.length s = true ↔ ∃ cs : List Char, s = textOf cs) ∧
    (∀ cs : List Char, s = textOf cs → units s = cs.map codeOf) ∧
    encodeUnits (units s) = s := by
  refine ⟨?_, ?_, ?_, encodeUnits_units s⟩
  · rw [not_reported_iff, wellFormed_iff]
  · rw [utf8Valid_iff (Nat.le_refl _), wellFormed_iff]
  · rintro cs rfl
    exact units_textOf cs

end Laws

end Bytepair
