import Bytepair.Support.Run
import Mathlib.Tactic.Common
import Mathlib.Data.Nat.Bitwise

/-!
# UTF-8 units

`bp_utf8_next` (`src/bp_util.c`) reads one code point or reports one malformed byte;
the output loop of `bp_nfc` (`src/bp_nfc.c`) writes code points and tagged bytes back.
`units` is a text as the sequence of what `bp_utf8_next` reads from its start, with a
malformed byte `b` carried as `0x110000 + b`, the tag `bp_nfc` gives it.
-/

namespace Bytepair
open Support

/-- What `bp_utf8_next` returns for a malformed byte. -/
def malformed : Nat := 0xFFFFFFFF

/-- Where the tags of malformed bytes start. -/
def tagBase : Nat := 0x110000

/-- The byte is not `10xxxxxx`. -/
def notCont (b : UInt8) : Bool := b &&& 0xC0 != 0x80

/-- The code point at `p` and the bytes it takes; the caller has checked `p < end`, so
the byte at `p` is there and `rest` is what follows it up to `end`. -/
def bpUtf8Next (b0 : UInt8) (rest : List UInt8) : Nat × Nat :=
  if b0 < 0x80 then (b0.toNat, 1)
  else if b0 < 0xC2 then (malformed, 1) -- continuation or overlong lead
  else if b0 < 0xE0 then
    match rest with
    | b1 :: _ =>
      if notCont b1 then (malformed, 1)
      else ((b0 &&& 0x1F).toNat <<< 6 ||| (b1 &&& 0x3F).toNat, 2)
    | _ => (malformed, 1)
  else if b0 < 0xF0 then
    match rest with
    | b1 :: b2 :: _ =>
      if notCont b1 || notCont b2 then (malformed, 1)
      else
        let cp := (b0 &&& 0x0F).toNat <<< 12 ||| (b1 &&& 0x3F).toNat <<< 6 ||| (b2 &&& 0x3F).toNat
        if cp < 0x800 || (0xD800 ≤ cp && cp ≤ 0xDFFF) then (malformed, 1) else (cp, 3)
    | _ => (malformed, 1)
  else if b0 < 0xF5 then
    match rest with
    | b1 :: b2 :: b3 :: _ =>
      if notCont b1 || notCont b2 || notCont b3 then (malformed, 1)
      else
        let cp := (b0 &&& 0x07).toNat <<< 18 ||| (b1 &&& 0x3F).toNat <<< 12 |||
          (b2 &&& 0x3F).toNat <<< 6 ||| (b3 &&& 0x3F).toNat
        if cp < 0x10000 || 0x10FFFF < cp then (malformed, 1) else (cp, 4)
    | _ => (malformed, 1)
  else (malformed, 1)

/-- One round of `bp_nfc`'s output loop: a tagged byte verbatim, a code point by range. -/
def encodeUnit (cp : Nat) : List UInt8 :=
  if 0x110000 ≤ cp then [UInt8.ofNat (cp - 0x110000)]
  else if cp < 0x80 then [UInt8.ofNat cp]
  else if cp < 0x800 then
    [(0xC0 : UInt8) ||| UInt8.ofNat (cp >>> 6), UInt8.ofNat (0x80 ||| cp &&& 0x3F)]
  else if cp < 0x10000 then
    [(0xE0 : UInt8) ||| UInt8.ofNat (cp >>> 12), UInt8.ofNat (0x80 ||| (cp >>> 6) &&& 0x3F),
      UInt8.ofNat (0x80 ||| cp &&& 0x3F)]
  else
    [(0xF0 : UInt8) ||| UInt8.ofNat (cp >>> 18), UInt8.ofNat (0x80 ||| (cp >>> 12) &&& 0x3F),
      UInt8.ofNat (0x80 ||| (cp >>> 6) &&& 0x3F), UInt8.ofNat (0x80 ||| cp &&& 0x3F)]

/-- The bytes of a sequence of units. -/
def encodeUnits (us : List Nat) : List UInt8 := us.flatMap encodeUnit

/-- The number of bytes units are written in. -/
def unitBytes (us : List Nat) : Nat := (encodeUnits us).length

/-- The unit at `p` and the bytes it takes. -/
def nextUnit (b0 : UInt8) (rest : List UInt8) : Nat × Nat :=
  let (cp, adv) := bpUtf8Next b0 rest
  (if cp = malformed then tagBase + b0.toNat else cp, adv)

/-- At most `n` units from the start of a text. -/
def unitsN : Nat → List UInt8 → List Nat
  | n + 1, b0 :: rest =>
    let (u, adv) := nextUnit b0 rest
    u :: unitsN n ((b0 :: rest).drop adv)
  | _, _ => []

/-- A text as units; each takes at least one byte. -/
def units (s : List UInt8) : List Nat := unitsN s.length s

/-- A Unicode scalar value. -/
def IsScalar (cp : Nat) : Prop := cp < 0xD800 ∨ 0xE000 ≤ cp ∧ cp < 0x110000

/-- A tagged malformed byte; ASCII bytes are never malformed. -/
def IsTagged (u : Nat) : Prop := 0x110080 ≤ u ∧ u < 0x110100

attribute [grind =] bpUtf8Next encodeUnit encodeUnits nextUnit unitsN units

instance : DecidablePred IsScalar := fun _ => inferInstanceAs (Decidable (_ ∨ _))
instance : DecidablePred IsTagged := fun _ => inferInstanceAs (Decidable (_ ∧ _))

section Bits

/-- Bits side by side are a sum, of two parts, of three and of four. -/
theorem shift6_or {a b : Nat} (h : b < 64) : a <<< 6 ||| b = a * 64 + b := by
  rw [← Nat.shiftLeft_add_eq_or_of_lt (i := 6) h a, Nat.shiftLeft_eq]

theorem shift12_or {a b c : Nat} (hb : b < 64) (hc : c < 64) :
    a <<< 12 ||| b <<< 6 ||| c = a * 4096 + b * 64 + c := by
  rw [Nat.or_assoc, shift6_or hc, ← Nat.shiftLeft_add_eq_or_of_lt (i := 12) (by omega) a,
    Nat.shiftLeft_eq, Nat.add_assoc]

theorem shift18_or {a b c d : Nat} (hb : b < 64) (hc : c < 64) (hd : d < 64) :
    a <<< 18 ||| b <<< 12 ||| c <<< 6 ||| d = a * 262144 + b * 4096 + c * 64 + d := by
  rw [Nat.or_assoc, Nat.or_assoc, ← Nat.or_assoc (b <<< 12), shift12_or hc hd,
    ← Nat.shiftLeft_add_eq_or_of_lt (i := 18) (by omega) a, Nat.shiftLeft_eq]
  omega

/-- The bits of a continuation byte, and below those of the lead bytes. -/
theorem and_3F (b : UInt8) : (b &&& 0x3F).toNat = b.toNat % 64 := by
  rw [UInt8.toNat_and]
  exact Nat.and_two_pow_sub_one_eq_mod _ 6

theorem and_1F (b : UInt8) : (b &&& 0x1F).toNat = b.toNat % 32 := by
  rw [UInt8.toNat_and]
  exact Nat.and_two_pow_sub_one_eq_mod _ 5

theorem and_0F (b : UInt8) : (b &&& 0x0F).toNat = b.toNat % 16 := by
  rw [UInt8.toNat_and]
  exact Nat.and_two_pow_sub_one_eq_mod _ 4

theorem and_07 (b : UInt8) : (b &&& 0x07).toNat = b.toNat % 8 := by
  rw [UInt8.toNat_and]
  exact Nat.and_two_pow_sub_one_eq_mod _ 3

/-- The marks of a byte and its low bits, bit pattern by bit pattern. -/
theorem toNat_marked : (∀ n : Fin 32, ((0xC0 : UInt8) ||| UInt8.ofNat n.1).toNat = 0xC0 + n.1) ∧
    (∀ n : Fin 16, ((0xE0 : UInt8) ||| UInt8.ofNat n.1).toNat = 0xE0 + n.1) ∧
    (∀ n : Fin 8, ((0xF0 : UInt8) ||| UInt8.ofNat n.1).toNat = 0xF0 + n.1) ∧
    (∀ n : Fin 64, (UInt8.ofNat (0x80 ||| n.1)).toNat = 0x80 + n.1) ∧
    ∀ n : Fin 256, notCont (UInt8.ofNat n.1) = false ↔ 0x80 ≤ n.1 ∧ n.1 < 0xC0 := by decide +kernel

theorem notCont_eq_false_iff (b : UInt8) : notCont b = false ↔ 0x80 ≤ b.toNat ∧ b.toNat < 0xC0 := by
  have := toNat_marked.2.2.2.2 ⟨b.toNat, b.toNat_lt⟩
  rwa [UInt8.ofNat_toNat] at this

/-- The lead bytes and the continuation byte that are built of bits. -/
theorem toNat_lead_C0 {x : Nat} (h : x < 32) : ((0xC0 : UInt8) ||| UInt8.ofNat x).toNat = 0xC0 + x :=
  toNat_marked.1 ⟨x, h⟩

theorem toNat_lead_E0 {x : Nat} (h : x < 16) : ((0xE0 : UInt8) ||| UInt8.ofNat x).toNat = 0xE0 + x :=
  toNat_marked.2.1 ⟨x, h⟩

theorem toNat_lead_F0 {x : Nat} (h : x < 8) : ((0xF0 : UInt8) ||| UInt8.ofNat x).toNat = 0xF0 + x :=
  toNat_marked.2.2.1 ⟨x, h⟩

theorem toNat_cont (x : Nat) : (UInt8.ofNat (0x80 ||| x &&& 0x3F)).toNat = 0x80 + x % 64 := by
  have hx : x &&& 0x3F = x % 64 := Nat.and_two_pow_sub_one_eq_mod x 6
  rw [hx]
  exact toNat_marked.2.2.2.1 ⟨x % 64, Nat.mod_lt _ (by decide)⟩

end Bits

section Decode

theorem encodeUnit_one {cp : Nat} (h : cp < 0x80) : encodeUnit cp = [UInt8.ofNat cp] := by
  simp only [encodeUnit]
  rw [if_neg (by omega), if_pos h]

theorem encodeUnit_two {cp : Nat} {b0 b1 : UInt8} (hlo : 0x80 ≤ cp) (hhi : cp < 0x800)
    (h0 : b0.toNat = 0xC0 + cp / 64) (h1 : b1.toNat = 0x80 + cp % 64) : encodeUnit cp = [b0, b1] := by
  simp only [encodeUnit]
  rw [if_neg (by omega), if_neg (by omega), if_pos hhi]
  refine congrArg₂ List.cons (UInt8.toNat_inj.1 ?_) (congrArg₂ List.cons (UInt8.toNat_inj.1 ?_) rfl)
  · rw [Nat.shiftRight_eq_div_pow, toNat_lead_C0 (by omega), h0]
  · rw [toNat_cont, h1]

theorem encodeUnit_three {cp : Nat} {b0 b1 b2 : UInt8} (hlo : 0x800 ≤ cp) (hhi : cp < 0x10000)
    (h0 : b0.toNat = 0xE0 + cp / 4096) (h1 : b1.toNat = 0x80 + cp / 64 % 64)
    (h2 : b2.toNat = 0x80 + cp % 64) : encodeUnit cp = [b0, b1, b2] := by
  simp only [encodeUnit]
  rw [if_neg (by omega), if_neg (by omega), if_neg (by omega), if_pos hhi]
  refine congrArg₂ List.cons (UInt8.toNat_inj.1 ?_) (congrArg₂ List.cons (UInt8.toNat_inj.1 ?_)
    (congrArg₂ List.cons (UInt8.toNat_inj.1 ?_) rfl))
  · rw [Nat.shiftRight_eq_div_pow, toNat_lead_E0 (by omega), h0]
  · rw [toNat_cont, Nat.shiftRight_eq_div_pow, h1]
  · rw [toNat_cont, h2]

theorem encodeUnit_four {cp : Nat} {b0 b1 b2 b3 : UInt8} (hlo : 0x10000 ≤ cp) (hhi : cp < 0x110000)
    (h0 : b0.toNat = 0xF0 + cp / 262144) (h1 : b1.toNat = 0x80 + cp / 4096 % 64)
    (h2 : b2.toNat = 0x80 + cp / 64 % 64) (h3 : b3.toNat = 0x80 + cp % 64) :
    encodeUnit cp = [b0, b1, b2, b3] := by
  simp only [encodeUnit]
  rw [if_neg (by omega), if_neg (by omega), if_neg (by omega), if_neg (by omega)]
  refine congrArg₂ List.cons (UInt8.toNat_inj.1 ?_) (congrArg₂ List.cons (UInt8.toNat_inj.1 ?_)
    (congrArg₂ List.cons (UInt8.toNat_inj.1 ?_) (congrArg₂ List.cons (UInt8.toNat_inj.1 ?_) rfl)))
  · rw [Nat.shiftRight_eq_div_pow, toNat_lead_F0 (by omega), h0]
  · rw [toNat_cont, Nat.shiftRight_eq_div_pow, h1]
  · rw [toNat_cont, Nat.shiftRight_eq_div_pow, h2]
  · rw [toNat_cont, h3]

/-- What `bp_utf8_next` reads: the encoding of a scalar value, or one byte that is not
ASCII. -/
theorem bpUtf8Next_cases (b0 : UInt8) (rest : List UInt8) :
    (∃ cp t, IsScalar cp ∧ b0 :: rest = encodeUnit cp ++ t ∧
      bpUtf8Next b0 rest = (cp, (encodeUnit cp).length)) ∨
    (0x80 ≤ b0.toNat ∧ bpUtf8Next b0 rest = (malformed, 1)) := by
  have hb0 := b0.toNat_lt
  unfold bpUtf8Next
  split
  · next h =>
    have h' : b0.toNat < 0x80 := UInt8.lt_iff_toNat_lt.1 h
    refine .inl ⟨b0.toNat, rest, .inl (by omega), ?_, ?_⟩
    · rw [encodeUnit_one h', UInt8.ofNat_toNat]; rfl
    · rw [encodeUnit_one h']; rfl
  next h =>
  have hhigh : 0x80 ≤ b0.toNat := Nat.le_of_not_lt fun hlt => h (UInt8.lt_iff_toNat_lt.2 hlt)
  split
  · exact .inr ⟨hhigh, rfl⟩
  next h₁ =>
  have hC2 : 0xC2 ≤ b0.toNat := Nat.le_of_not_lt fun hlt => h₁ (UInt8.lt_iff_toNat_lt.2 hlt)
  split
  · next h₂ =>
    have hE0 : b0.toNat < 0xE0 := UInt8.lt_iff_toNat_lt.1 h₂
    split
    · next b1 t =>
      split
      · exact .inr ⟨hhigh, rfl⟩
      · next hc =>
        obtain ⟨l1, u1⟩ := (notCont_eq_false_iff b1).1 (by simpa using hc)
        rw [and_1F, and_3F, shift6_or (Nat.mod_lt _ (by decide))]
        have henc : encodeUnit (b0.toNat % 32 * 64 + b1.toNat % 64) = [b0, b1] :=
          encodeUnit_two (by omega) (by omega) (by omega) (by omega)
        have hs : IsScalar (b0.toNat % 32 * 64 + b1.toNat % 64) := .inl (by omega)
        exact .inl ⟨_, t, hs, by rw [henc]; rfl, by rw [henc]; rfl⟩
    · exact .inr ⟨hhigh, rfl⟩
  next h₂ =>
  have hE0 : 0xE0 ≤ b0.toNat := Nat.le_of_not_lt fun hlt => h₂ (UInt8.lt_iff_toNat_lt.2 hlt)
  split
  · next h₃ =>
    have hF0 : b0.toNat < 0xF0 := UInt8.lt_iff_toNat_lt.1 h₃
    split
    · next b1 b2 t =>
      split
      · exact .inr ⟨hhigh, rfl⟩
      · next hc =>
        simp only [Bool.or_eq_true, not_or, Bool.not_eq_true] at hc
        obtain ⟨l1, u1⟩ := (notCont_eq_false_iff b1).1 hc.1
        obtain ⟨l2, u2⟩ := (notCont_eq_false_iff b2).1 hc.2
        rw [and_0F, and_3F, and_3F, shift12_or (Nat.mod_lt _ (by decide)) (Nat.mod_lt _ (by decide))]
        dsimp only
        split
        · exact .inr ⟨hhigh, rfl⟩
        · next hv =>
          simp only [Bool.or_eq_true, Bool.and_eq_true, decide_eq_true_eq, not_or, not_and] at hv
          have henc : encodeUnit (b0.toNat % 16 * 4096 + b1.toNat % 64 * 64 + b2.toNat % 64) =
              [b0, b1, b2] := encodeUnit_three (by omega) (by omega) (by omega) (by omega) (by omega)
          have hs : IsScalar (b0.toNat % 16 * 4096 + b1.toNat % 64 * 64 + b2.toNat % 64) := by
            unfold IsScalar; omega
          exact .inl ⟨_, t, hs, by rw [henc]; rfl, by rw [henc]; rfl⟩
    · exact .inr ⟨hhigh, rfl⟩
  next h₃ =>
  have hF0 : 0xF0 ≤ b0.toNat := Nat.le_of_not_lt fun hlt => h₃ (UInt8.lt_iff_toNat_lt.2 hlt)
  split
  · next h₄ =>
    have hF5 : b0.toNat < 0xF5 := UInt8.lt_iff_toNat_lt.1 h₄
    split
    · next b1 b2 b3 t =>
      split
      · exact .inr ⟨hhigh, rfl⟩
      · next hc =>
        simp only [Bool.or_eq_true, not_or, Bool.not_eq_true] at hc
        obtain ⟨l1, u1⟩ := (notCont_eq_false_iff b1).1 hc.1.1
        obtain ⟨l2, u2⟩ := (notCont_eq_false_iff b2).1 hc.1.2
        obtain ⟨l3, u3⟩ := (notCont_eq_false_iff b3).1 hc.2
        rw [and_07, and_3F, and_3F, and_3F, shift18_or (Nat.mod_lt _ (by decide))
          (Nat.mod_lt _ (by decide)) (Nat.mod_lt _ (by decide))]
        dsimp only
        split
        · exact .inr ⟨hhigh, rfl⟩
        · next hv =>
          simp only [Bool.or_eq_true, decide_eq_true_eq, not_or] at hv
          have henc : encodeUnit (b0.toNat % 8 * 262144 + b1.toNat % 64 * 4096 + b2.toNat % 64 * 64 +
              b3.toNat % 64) = [b0, b1, b2, b3] :=
            encodeUnit_four (by omega) (by omega) (by omega) (by omega) (by omega) (by omega)
          have hs : IsScalar (b0.toNat % 8 * 262144 + b1.toNat % 64 * 4096 + b2.toNat % 64 * 64 +
              b3.toNat % 64) := by unfold IsScalar; omega
          exact .inl ⟨_, t, hs, by rw [henc]; rfl, by rw [henc]; rfl⟩
    · exact .inr ⟨hhigh, rfl⟩
  · exact .inr ⟨hhigh, rfl⟩

/-- A byte below 0x80 is read as itself. -/
theorem bpUtf8Next_one {b0 : UInt8} (h : b0.toNat < 0x80) (rest : List UInt8) :
    bpUtf8Next b0 rest = (b0.toNat, 1) := by
  simp only [bpUtf8Next, UInt8.lt_iff_toNat_lt, UInt8.reduceToNat]
  rw [if_pos h]

/-- Two bytes are read as the code point of their bits. -/
theorem bpUtf8Next_two {b0 b1 : UInt8} (hlo : 0xC2 ≤ b0.toNat) (hhi : b0.toNat < 0xE0)
    (h1 : 0x80 ≤ b1.toNat ∧ b1.toNat < 0xC0) (t : List UInt8) :
    bpUtf8Next b0 (b1 :: t) = (b0.toNat % 32 * 64 + b1.toNat % 64, 2) := by
  simp only [bpUtf8Next, UInt8.lt_iff_toNat_lt, UInt8.reduceToNat]
  rw [if_neg (by omega), if_neg (by omega), if_pos hhi]
  simp only [(notCont_eq_false_iff b1).2 h1, Bool.false_eq_true, if_false]
  rw [and_1F, and_3F, shift6_or (Nat.mod_lt _ (by decide))]

/-- So are three, where two would not have been enough and it is no surrogate. -/
theorem bpUtf8Next_three {b0 b1 b2 : UInt8} (hlo : 0xE0 ≤ b0.toNat) (hhi : b0.toNat < 0xF0)
    (h1 : 0x80 ≤ b1.toNat ∧ b1.toNat < 0xC0) (h2 : 0x80 ≤ b2.toNat ∧ b2.toNat < 0xC0) {cp : Nat}
    (hcp : cp = b0.toNat % 16 * 4096 + b1.toNat % 64 * 64 + b2.toNat % 64) (hmin : 0x800 ≤ cp)
    (hs : IsScalar cp) (t : List UInt8) : bpUtf8Next b0 (b1 :: b2 :: t) = (cp, 3) := by
  simp only [bpUtf8Next, UInt8.lt_iff_toNat_lt, UInt8.reduceToNat]
  rw [if_neg (by omega), if_neg (by omega), if_neg (by omega), if_pos hhi]
  simp only [(notCont_eq_false_iff b1).2 h1, (notCont_eq_false_iff b2).2 h2, Bool.or_self,
    Bool.false_eq_true, if_false]
  rw [and_0F, and_3F, and_3F, shift12_or (Nat.mod_lt _ (by decide)) (Nat.mod_lt _ (by decide)), ← hcp]
  unfold IsScalar at hs
  rw [if_neg]
  simp only [Bool.or_eq_true, Bool.and_eq_true, decide_eq_true_eq]
  omega

/-- So are four, where three would not have been enough and it is not beyond the last code point. -/
theorem bpUtf8Next_four {b0 b1 b2 b3 : UInt8} (hlo : 0xF0 ≤ b0.toNat) (hhi : b0.toNat < 0xF5)
    (h1 : 0x80 ≤ b1.toNat ∧ b1.toNat < 0xC0) (h2 : 0x80 ≤ b2.toNat ∧ b2.toNat < 0xC0)
    (h3 : 0x80 ≤ b3.toNat ∧ b3.toNat < 0xC0) {cp : Nat}
    (hcp : cp = b0.toNat % 8 * 262144 + b1.toNat % 64 * 4096 + b2.toNat % 64 * 64 + b3.toNat % 64)
    (hmin : 0x10000 ≤ cp) (hs : IsScalar cp) (t : List UInt8) :
    bpUtf8Next b0 (b1 :: b2 :: b3 :: t) = (cp, 4) := by
  simp only [bpUtf8Next, UInt8.lt_iff_toNat_lt, UInt8.reduceToNat]
  rw [if_neg (by omega), if_neg (by omega), if_neg (by omega), if_neg (by omega), if_pos hhi]
  simp only [(notCont_eq_false_iff b1).2 h1, (notCont_eq_false_iff b2).2 h2,
    (notCont_eq_false_iff b3).2 h3, Bool.or_self, Bool.false_eq_true, if_false]
  rw [and_07, and_3F, and_3F, and_3F, shift18_or (Nat.mod_lt _ (by decide))
    (Nat.mod_lt _ (by decide)) (Nat.mod_lt _ (by decide)), ← hcp]
  unfold IsScalar at hs
  rw [if_neg]
  simp only [Bool.or_eq_true, decide_eq_true_eq]
  omega

/-- The encoding of a scalar value is read back, whatever follows it. -/
theorem bpUtf8Next_encodeUnit {cp : Nat} (hs : IsScalar cp) {b0 : UInt8} {rest t : List UInt8}
    (h : b0 :: rest = encodeUnit cp ++ t) : bpUtf8Next b0 rest = (cp, (encodeUnit cp).length) := by
  have ofNat : ∀ n, n < 256 → (UInt8.ofNat n).toNat = n := fun n hn => UInt8.toNat_ofNat_of_lt' hn
  have hlt : cp < 0x110000 := by unfold IsScalar at hs; omega
  by_cases h1 : cp < 0x80
  · rw [encodeUnit_one h1] at h ⊢
    cases h
    rw [bpUtf8Next_one (by rw [ofNat cp (by omega)]; exact h1), ofNat cp (by omega)]
    rfl
  by_cases h2 : cp < 0x800
  · have e0 := ofNat (0xC0 + cp / 64) (by omega)
    have e1 := ofNat (0x80 + cp % 64) (by omega)
    rw [encodeUnit_two (by omega) h2 e0 e1] at h ⊢
    cases h
    apply (bpUtf8Next_two (by omega) (by omega) (by omega) t).trans
    exact congrArg₂ Prod.mk (by omega) rfl
  by_cases h3 : cp < 0x10000
  · have e0 := ofNat (0xE0 + cp / 4096) (by omega)
    have e1 := ofNat (0x80 + cp / 64 % 64) (by omega)
    have e2 := ofNat (0x80 + cp % 64) (by omega)
    rw [encodeUnit_three (by omega) h3 e0 e1 e2] at h ⊢
    cases h
    exact bpUtf8Next_three (by omega) (by omega) (by omega) (by omega) (by omega) (by omega) hs t
  · have e0 := ofNat (0xF0 + cp / 262144) (by omega)
    have e1 := ofNat (0x80 + cp / 4096 % 64) (by omega)
    have e2 := ofNat (0x80 + cp / 64 % 64) (by omega)
    have e3 := ofNat (0x80 + cp % 64) (by omega)
    rw [encodeUnit_four (by omega) hlt e0 e1 e2 e3] at h ⊢
    cases h
    exact bpUtf8Next_four (by omega) (by omega) (by omega) (by omega) (by omega) (by omega)
      (by omega) hs t

theorem notCont_eq_true_iff (b : UInt8) : notCont b = true ↔ b.toNat < 0x80 ∨ 0xC0 ≤ b.toNat := by
  rw [← Bool.not_eq_false, notCont_eq_false_iff]
  omega

/-- The bytes of a scalar value: one that does not continue, and the ones that do. -/
theorem encodeUnit_shape {cp : Nat} (hlt : cp < 0x110000) :
    ∃ b0 conts, encodeUnit cp = b0 :: conts ∧ notCont b0 = true ∧ ∀ b ∈ conts, notCont b = false := by
  have ofNat : ∀ n, n < 256 → (UInt8.ofNat n).toNat = n := fun n hn => UInt8.toNat_ofNat_of_lt' hn
  have lead : ∀ n, n < 256 → n < 0x80 ∨ 0xC0 ≤ n → notCont (UInt8.ofNat n) = true := fun n hn h =>
    (notCont_eq_true_iff _).2 (by rwa [ofNat n hn])
  have cont : ∀ n, notCont (UInt8.ofNat (0x80 + n % 64)) = false := fun n =>
    (notCont_eq_false_iff _).2 (by rw [ofNat _ (by omega)]; omega)
  by_cases h1 : cp < 0x80
  · exact ⟨_, _, encodeUnit_one h1, lead _ (by omega) (by omega), by simp⟩
  by_cases h2 : cp < 0x800
  · have e0 := ofNat (0xC0 + cp / 64) (by omega)
    have e1 := ofNat (0x80 + cp % 64) (by omega)
    exact ⟨_, _, encodeUnit_two (by omega) h2 e0 e1, lead _ (by omega) (by omega),
      List.forall_mem_cons.2 ⟨cont _, by simp⟩⟩
  by_cases h3 : cp < 0x10000
  · have e0 := ofNat (0xE0 + cp / 4096) (by omega)
    have e1 := ofNat (0x80 + cp / 64 % 64) (by omega)
    have e2 := ofNat (0x80 + cp % 64) (by omega)
    exact ⟨_, _, encodeUnit_three (by omega) h3 e0 e1 e2, lead _ (by omega) (by omega),
      List.forall_mem_cons.2 ⟨cont _, List.forall_mem_cons.2 ⟨cont _, by simp⟩⟩⟩
  · have e0 := ofNat (0xF0 + cp / 262144) (by omega)
    have e1 := ofNat (0x80 + cp / 4096 % 64) (by omega)
    have e2 := ofNat (0x80 + cp / 64 % 64) (by omega)
    have e3 := ofNat (0x80 + cp % 64) (by omega)
    exact ⟨_, _, encodeUnit_four (by omega) hlt e0 e1 e2 e3, lead _ (by omega) (by omega),
      List.forall_mem_cons.2 ⟨cont _, List.forall_mem_cons.2 ⟨cont _,
        List.forall_mem_cons.2 ⟨cont _, by simp⟩⟩⟩⟩

end Decode

section Units

/-- A unit takes one to four bytes. -/
theorem length_encodeUnit_range (u : Nat) : 0 < (encodeUnit u).length ∧ (encodeUnit u).length ≤ 4 := by
  unfold encodeUnit
  split
  · simp
  split
  · simp
  split
  · simp
  split <;> simp

theorem length_encodeUnit_pos (u : Nat) : 0 < (encodeUnit u).length := (length_encodeUnit_range u).1

theorem length_encodeUnit_le (u : Nat) : (encodeUnit u).length ≤ 4 := (length_encodeUnit_range u).2

theorem encodeUnit_ne_nil (u : Nat) : encodeUnit u ≠ [] := List.length_pos_iff.1 (length_encodeUnit_pos u)

/-- What is left behind a unit is shorter. -/
theorem length_behind_lt {s t : List UInt8} {u : Nat} (hcat : s = encodeUnit u ++ t) : t.length < s.length := by
  have := length_encodeUnit_pos u
  rw [hcat, List.length_append]
  omega

theorem IsScalar.ne_malformed {cp : Nat} (h : IsScalar cp) : cp ≠ malformed := by
  unfold IsScalar malformed at *
  omega

theorem IsScalar.lt {cp : Nat} (h : IsScalar cp) : cp < 0x110000 := by
  unfold IsScalar at h
  omega

theorem IsTagged.exists_byte {u : Nat} (h : IsTagged u) : ∃ b : UInt8, u = tagBase + b.toNat := by
  obtain ⟨hlo, hhi⟩ := h
  refine ⟨UInt8.ofNat (u - tagBase), ?_⟩
  unfold tagBase
  rw [UInt8.toNat_ofNat_of_lt' (show u - 0x110000 < 256 by omega)]
  omega

/-- A tagged byte stands for the byte. -/
theorem encodeUnit_tagged (b : UInt8) : encodeUnit (tagBase + b.toNat) = [b] := by
  have hb := b.toNat_lt
  unfold encodeUnit tagBase
  rw [if_pos (by omega), Nat.add_sub_cancel_left, UInt8.ofNat_toNat]

/-- The encoding of a scalar is read as the scalar. -/
theorem nextUnit_encodeUnit {cp : Nat} (hs : IsScalar cp) {b0 : UInt8} {rest t : List UInt8}
    (h : b0 :: rest = encodeUnit cp ++ t) : nextUnit b0 rest = (cp, (encodeUnit cp).length) := by
  simp [nextUnit, bpUtf8Next_encodeUnit hs h, hs.ne_malformed]

/-- The unit read and the bytes it took: a scalar value's encoding, or a tagged byte. -/
theorem nextUnit_spec (b0 : UInt8) (rest : List UInt8) :
    ∃ u t, nextUnit b0 rest = (u, (encodeUnit u).length) ∧ b0 :: rest = encodeUnit u ++ t ∧
      (IsScalar u ∨ IsTagged u) := by
  rcases bpUtf8Next_cases b0 rest with ⟨cp, t, hs, hcat, -⟩ | ⟨hhigh, hnext⟩
  · exact ⟨cp, t, nextUnit_encodeUnit hs hcat, hcat, .inl hs⟩
  · have hb := b0.toNat_lt
    refine ⟨tagBase + b0.toNat, rest, ?_, ?_, .inr ?_⟩
    · simp [nextUnit, hnext, encodeUnit_tagged]
    · rw [encodeUnit_tagged]; rfl
    · unfold IsTagged tagBase
      omega

/-- Any fuel that covers the text will do. -/
theorem unitsN_eq {n m : Nat} : ∀ {s : List UInt8}, s.length ≤ n → s.length ≤ m →
    unitsN n s = unitsN m s := by
  induction n generalizing m with
  | zero =>
    intro s hn _
    obtain rfl : s = [] := List.eq_nil_of_length_eq_zero (by omega)
    cases m <;> rfl
  | succ n ih =>
    intro s hn hm
    cases s with
    | nil => cases m <;> rfl
    | cons b0 rest =>
      obtain ⟨m, rfl⟩ : ∃ k, m = k + 1 := ⟨m - 1, by simp at hm; omega⟩
      obtain ⟨u, t, hu, hcat, -⟩ := nextUnit_spec b0 rest
      have hlen := length_behind_lt hcat
      simp only [unitsN, hu]
      rw [hcat, List.drop_left, ih (m := m) (by omega) (by omega)]

@[simp] theorem units_nil : units [] = [] := rfl

/-- Reading one unit, then the rest. -/
theorem units_cons {b0 : UInt8} {rest : List UInt8} {u : Nat} {t : List UInt8}
    (hu : nextUnit b0 rest = (u, (encodeUnit u).length)) (hcat : b0 :: rest = encodeUnit u ++ t) :
    units (b0 :: rest) = u :: units t := by
  have hlen := length_behind_lt hcat
  simp only [units, List.length_cons, unitsN, hu]
  rw [hcat, List.drop_left, unitsN_eq (m := t.length) (Nat.le_of_lt_succ hlen) (Nat.le_refl _)]

/-- **One call of `bp_utf8_next`** at a place where bytes are left: the unit it reads, the
text behind the unit, and what the call returned. -/
theorem read_unit (b0 : UInt8) (rest : List UInt8) :
    ∃ u t cp adv, bpUtf8Next b0 rest = (cp, adv) ∧ (b0 :: rest).drop adv = t ∧
      b0 :: rest = encodeUnit u ++ t ∧ t.length < (b0 :: rest).length ∧
      units (b0 :: rest) = u :: units t ∧
      (IsScalar u ∧ cp = u ∨ IsTagged u ∧ u = 0x110000 + b0.toNat ∧ cp = malformed) := by
  obtain ⟨u, t, hu, hcat, -⟩ := nextUnit_spec b0 rest
  have hlen := length_behind_lt hcat
  have hdrop : (b0 :: rest).drop (encodeUnit u).length = t := by rw [hcat, List.drop_left]
  rcases bpUtf8Next_cases b0 rest with ⟨cp, t', hs, hcat', hnext⟩ | ⟨hhigh, hnext⟩
  · obtain ⟨rfl, -⟩ := Prod.mk.inj ((nextUnit_encodeUnit hs hcat').symm.trans hu)
    exact ⟨_, t, _, _, hnext, hdrop, hcat, hlen, units_cons hu hcat, .inl ⟨hs, rfl⟩⟩
  · have hb := b0.toNat_lt
    obtain ⟨rfl, hadv⟩ : tagBase + b0.toNat = u ∧ 1 = (encodeUnit u).length := by
      simpa [nextUnit, hnext] using hu
    refine ⟨_, t, _, _, hnext, hadv ▸ hdrop, hcat, hlen, units_cons hu hcat, .inr ⟨?_, rfl, rfl⟩⟩
    unfold IsTagged tagBase
    omega

/-- Induction over a text, unit by unit. -/
theorem units_induction {P : List UInt8 → Prop} (nil : P [])
    (cons : ∀ b0 rest u t, nextUnit b0 rest = (u, (encodeUnit u).length) →
      b0 :: rest = encodeUnit u ++ t → IsScalar u ∨ IsTagged u → units (b0 :: rest) = u :: units t →
      P t → P (b0 :: rest)) (s : List UInt8) : P s := by
  induction hn : s.length using Nat.strongRecOn generalizing s with
  | ind n ih =>
    cases s with
    | nil => exact nil
    | cons b0 rest =>
      obtain ⟨u, t, hu, hcat, hunit⟩ := nextUnit_spec b0 rest
      have hlen := length_behind_lt hcat
      exact cons b0 rest u t hu hcat hunit (units_cons hu hcat) (ih _ (by omega) t rfl)

/-- Writing the units of a text gives the text back. -/
theorem encodeUnits_units (s : List UInt8) : encodeUnits (units s) = s := by
  induction s using units_induction with
  | nil => rfl
  | cons b0 rest u t hu hcat hunit huts ih =>
    rw [huts, hcat]
    simpa [encodeUnits] using ih

/-- A unit is a scalar or a tagged byte. -/
theorem units_valid (s : List UInt8) : ∀ u ∈ units s, IsScalar u ∨ IsTagged u := by
  induction s using units_induction with
  | nil => simp
  | cons b0 rest u t hu hcat hunit huts ih =>
    rw [huts]
    exact List.forall_mem_cons.2 ⟨hunit, ih⟩

/-- A scalar value in front of a text is its first unit. -/
theorem units_encodeUnit_append {cp : Nat} (hs : IsScalar cp) (t : List UInt8) :
    units (encodeUnit cp ++ t) = cp :: units t := by
  obtain ⟨b0, rest, hb⟩ := List.exists_cons_of_ne_nil (encodeUnit_ne_nil cp)
  have hcat : b0 :: (rest ++ t) = encodeUnit cp ++ t := by rw [hb]; rfl
  rw [← hcat]
  exact units_cons (nextUnit_encodeUnit hs hcat) hcat

/-- The UTF-8 of scalar values is read back as these values. -/
theorem units_encodeUnits {cps : List Nat} (h : ∀ cp ∈ cps, IsScalar cp) :
    units (encodeUnits cps) = cps := by
  induction cps with
  | nil => rfl
  | cons cp cps ih =>
    obtain ⟨hcp, hcps⟩ := List.forall_mem_cons.1 h
    have hcat : encodeUnits (cp :: cps) = encodeUnit cp ++ encodeUnits cps := rfl
    rw [hcat, units_encodeUnit_append hcp, ih hcps]

@[simp] theorem encodeUnits_cons (u : Nat) (us : List Nat) :
    encodeUnits (u :: us) = encodeUnit u ++ encodeUnits us := List.flatMap_cons

theorem encodeUnits_append (us vs : List Nat) :
    encodeUnits (us ++ vs) = encodeUnits us ++ encodeUnits vs := List.flatMap_append

@[simp] theorem unitBytes_nil : unitBytes [] = 0 := rfl

@[simp] theorem unitBytes_cons (u : Nat) (us : List Nat) :
    unitBytes (u :: us) = (encodeUnit u).length + unitBytes us := by
  simp [unitBytes]

theorem unitBytes_append (us vs : List Nat) : unitBytes (us ++ vs) = unitBytes us + unitBytes vs := by
  simp [unitBytes, encodeUnits_append]

/-- ASCII bytes in front of a text are its first units. -/
theorem units_ascii_append {s : List UInt8} (h : ∀ b ∈ s, b.toNat < 0x80) (t : List UInt8) :
    units (s ++ t) = s.map UInt8.toNat ++ units t := by
  induction s with
  | nil => rfl
  | cons b s ih =>
    obtain ⟨hb, hs⟩ := List.forall_mem_cons.1 h
    have henc : encodeUnit b.toNat = [b] := by rw [encodeUnit_one hb, UInt8.ofNat_toNat]
    have hunits := units_encodeUnit_append (show IsScalar b.toNat from .inl (by omega)) (s ++ t)
    rw [henc, ih hs] at hunits
    exact hunits

/-- Behind the first units of a text are the others. -/
theorem units_drop (p : List UInt8) (k : Nat) :
    units (p.drop (unitBytes ((units p).take k))) = (units p).drop k ∧
      p.take (unitBytes ((units p).take k)) = encodeUnits ((units p).take k) := by
  induction k generalizing p with
  | zero => simp [encodeUnits]
  | succ k ih =>
    cases p with
    | nil => simp [encodeUnits]
    | cons b0 rest =>
      obtain ⟨u, t, cp, adv, -, -, hcat, -, hunits, -⟩ := read_unit b0 rest
      obtain ⟨hdrop, htake⟩ := ih t
      rw [hunits, List.take_succ_cons, List.drop_succ_cons, unitBytes_cons, hcat, encodeUnits_cons]
      refine ⟨by rw [← List.drop_drop, List.drop_left, hdrop], ?_⟩
      rw [List.take_append, List.take_of_length_le (Nat.le_add_right _ _), Nat.add_sub_cancel_left, htake]

end Units

end Bytepair
