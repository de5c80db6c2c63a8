import Bytepair.Support.Run
import Mathlib.Tactic.Common
import Mathlib.Data.Nat.Bitwise
import Mathlib.Data.List.TakeWhile

/-!
# The AVX2 run kernels

`src/bp_scan_avx2.c`, lane by lane: an intrinsic is the 8-bit operation on each of the 32
bytes, and `movemask` gathers one bit a lane. A kernel takes the text from where the run
goes on and returns how many bytes it consumes.
-/

namespace Bytepair
open Support

/-- `in_range`: the byte is within `[lo, lo + span]`, by a wrapping subtraction and a minimum. -/
def inRange (v lo span : UInt8) : Bool := min (v - lo) span == v - lo

/-- `_mm256_movemask_epi8` of lanes that are all ones or all zeros. -/
def movemask : List Bool → Nat
  | [] => 0
  | b :: bs => b.toNat + 2 * movemask bs

/-- `~` on 32 bits. -/
def complement32 (m : Nat) : Nat := m ^^^ 0xFFFFFFFF

/-- `__builtin_ctz`: the number of the lowest bit set. -/
def ctz (x : Nat) : Nat := ((List.range 32).find? fun i => x.testBit i).getD 32

/-- A round of a vector loop whose lanes make a mask: the loop ends at the first lane that
fails, or when fewer than 32 bytes are left. The result is what is left, what was
consumed, and whether the run has ended. -/
def vectorRound (mask : List UInt8 → Nat) :
    List UInt8 × Nat → Run (Flow (List UInt8 × Nat) (List UInt8 × Nat × Bool))
  | (p, n) =>
    if 32 ≤ p.length then
      let m := mask (p.take 32)
      if m ≠ 0xFFFFFFFF then .ok (.done (p, n + ctz (complement32 m), true))
      else .ok (.next (p.drop 32, n + 32))
    else .ok (.done (p, n, false))

/-- The scalar loop behind a vector loop. -/
def tailRun (test : UInt8 → Bool) : List UInt8 → Nat
  | [] => 0
  | b :: p => if test b then tailRun test p + 1 else 0

/-- A kernel: a vector loop, and a scalar loop with a test of its own. -/
def kernel (mask : List UInt8 → Nat) (test : UInt8 → Bool) (p : List UInt8) : Run Nat := do
  let (p, n, found) ← loop (vectorRound mask) (p.length + 1) (p, 0)
  if found then pure n else pure (n + tailRun test p)

/-- The mask of the letter kernel. -/
def letterMask (v : List UInt8) : Nat := movemask (v.map fun b => inRange (b ||| 0x20) 0x61 25)

/-- The test of the letter kernel's scalar loop. -/
def letterTail (v : UInt8) : Bool :=
  let b := v ||| 0x20
  !(b < 0x61 || 0x7A < b)

/-- The mask of the symbol kernel. -/
def symbolMask (v : List UInt8) : Nat :=
  let letter := fun b => inRange (b ||| 0x20) 0x61 25
  let digit := fun b => inRange b 0x30 9
  -- \t \n \v \f \r are 0x09..0x0D, plus space
  let ws := fun b => inRange b 0x09 4 || b == 0x20
  let ascii := complement32 (movemask (v.map fun b => b &&& 0x80 != 0))
  let bad := movemask (v.map fun b => letter b || digit b || ws b)
  ascii &&& complement32 bad

/-- The tests of the symbol kernel's scalar loop. -/
def symbolTail (b : UInt8) : Bool :=
  if 0x80 ≤ b then false
  else
    let lower := b ||| 0x20
    if 0x61 ≤ lower && lower ≤ 0x7A then false
    else if 0x30 ≤ b && b ≤ 0x39 then false
    else if b == 0x20 || (0x09 ≤ b && b ≤ 0x0D) then false
    else true

/-- `bp_ascii_letter_run_avx2`. -/
def bpAsciiLetterRunAvx2 (p : List UInt8) : Run Nat := kernel letterMask letterTail p

/-- `bp_ascii_symbol_run_avx2`. -/
def bpAsciiSymbolRunAvx2 (p : List UInt8) : Run Nat := kernel symbolMask symbolTail p

attribute [grind =] kernel

section Kernels

theorem movemask_testBit (bs : List Bool) (i : Nat) :
    (movemask bs).testBit i = (bs[i]?).getD false := by
  induction bs generalizing i with
  | nil => simp [movemask]
  | cons b bs ih =>
    rw [movemask, Nat.add_comm]
    cases i with
    | zero => cases b <;> simp [Nat.testBit_zero, Nat.add_mod]
    | succ i =>
      have hdiv : (2 * movemask bs + b.toNat) / 2 = movemask bs := by
        have := Bool.toNat_lt b
        omega
      rw [Nat.testBit_succ, hdiv, ih]
      simp

theorem movemask_lt (bs : List Bool) : movemask bs < 2 ^ bs.length := by
  induction bs with
  | nil => simp [movemask]
  | cons b bs ih =>
    have := Bool.toNat_lt b
    simp only [movemask, List.length_cons, Nat.pow_succ]
    omega

theorem complement32_testBit {m i : Nat} (hi : i < 32) : (complement32 m).testBit i = !m.testBit i := by
  have hones : (0xFFFFFFFF : Nat).testBit i = true := by
    rw [show (0xFFFFFFFF : Nat) = 2 ^ 32 - 1 from rfl, Nat.testBit_two_pow_sub_one]
    simpa using hi
  rw [complement32, Nat.testBit_xor, hones, Bool.xor_true]

/-- What a run says of the lanes up to its end, and of the lane there. -/
theorem getElem?_run (bs : List Bool) :
    (∀ j < (bs.takeWhile id).length, bs[j]? = some true) ∧
      ((bs.takeWhile id).length < bs.length → bs[(bs.takeWhile id).length]? = some false) := by
  induction bs with
  | nil => simp
  | cons b bs ih =>
    cases b with
    | false => simp
    | true =>
      obtain ⟨hbefore, hat⟩ := ih
      simp only [List.takeWhile_cons, id, if_true, List.length_cons]
      refine ⟨fun j hj => ?_, fun hlt => ?_⟩
      · cases j with
        | zero => rfl
        | succ j => exact hbefore j (by omega)
      · exact hat (by omega)

/-- The mask is all ones when every lane passes. -/
theorem movemask_full {bs : List Bool} (hlen : bs.length = 32) :
    movemask bs = 0xFFFFFFFF ↔ (bs.takeWhile id).length = 32 := by
  constructor
  · intro hm
    by_contra hne
    have hle : (bs.takeWhile id).length ≤ bs.length := (List.takeWhile_sublist id).length_le
    have hbit := movemask_testBit bs (bs.takeWhile id).length
    rw [(getElem?_run bs).2 (by omega), hm, show (0xFFFFFFFF : Nat) = 2 ^ 32 - 1 from rfl,
      Nat.testBit_two_pow_sub_one] at hbit
    simp at hbit
    omega
  · intro hrun
    have hall : bs.takeWhile id = bs := (List.takeWhile_sublist id).eq_of_length (by omega)
    have hrep : bs = List.replicate 32 true := by
      refine List.eq_replicate_iff.2 ⟨hlen, fun b hb => ?_⟩
      rw [← hall] at hb
      exact List.mem_takeWhile_imp hb
    rw [hrep]
    decide

/-- The first lane that fails. -/
theorem ctz_complement {bs : List Bool} (hlen : bs.length = 32) (hlt : (bs.takeWhile id).length < 32) :
    ctz (complement32 (movemask bs)) = (bs.takeWhile id).length := by
  obtain ⟨hbefore, hat⟩ := getElem?_run bs
  have hfind : (List.range 32).find? (fun i => (complement32 (movemask bs)).testBit i) =
      some (bs.takeWhile id).length := by
    refine List.find?_range_eq_some.2 ⟨?_, by simpa using hlt, fun j hj => ?_⟩
    · rw [complement32_testBit hlt, movemask_testBit, hat (by omega)]
      rfl
    · rw [complement32_testBit (by omega), movemask_testBit, hbefore j hj]
      rfl
  rw [ctz, hfind]
  rfl

theorem tailRun_eq (test : UInt8 → Bool) (p : List UInt8) : tailRun test p = (p.takeWhile test).length := by
  induction p with
  | nil => rfl
  | cons b p ih =>
    rw [tailRun, List.takeWhile_cons]
    split <;> simp [ih]

theorem takeWhile_map_id (test : UInt8 → Bool) (v : List UInt8) :
    ((v.map test).takeWhile id).length = (v.takeWhile test).length := by
  rw [List.takeWhile_map, List.length_map]
  rfl

/-- A round of a vector loop goes on past a full vector, or ends where the run does. -/
theorem vectorRound_spec {mask : List UInt8 → Nat} {test : UInt8 → Bool}
    (h : ∀ v, v.length = 32 → mask v = movemask (v.map test)) (total : Nat) (s : List UInt8 × Nat)
    (hs : s.2 + (s.1.takeWhile test).length = total) :
    (∃ s', vectorRound mask s = .ok (.next s') ∧ s'.2 + (s'.1.takeWhile test).length = total ∧
      s'.1.length < s.1.length) ∨
    ∃ r, vectorRound mask s = .ok (.done r) ∧
      (if r.2.2 then r.2.1 else r.2.1 + (r.1.takeWhile test).length) = total := by
  obtain ⟨p, n⟩ := s
  by_cases hlen : 32 ≤ p.length
  · have hv : (p.take 32).length = 32 := by simp [hlen]
    have hvm : ((p.take 32).map test).length = 32 := by simp [hlen]
    have hrun := takeWhile_map_id test (p.take 32)
    have hfull := movemask_full hvm
    have hsplit : (p.take 32 ++ p.drop 32).takeWhile test = _ := List.takeWhile_append
    rw [List.take_append_drop, hv] at hsplit
    simp only [vectorRound, hlen, if_true, h _ hv]
    by_cases hm : movemask ((p.take 32).map test) = 0xFFFFFFFF
    · refine .inl ⟨(p.drop 32, n + 32), by rw [if_neg (not_not.2 hm)], ?_, by simp; omega⟩
      rw [if_pos (hrun ▸ hfull.1 hm)] at hsplit
      rw [hsplit, List.length_append, hv] at hs
      dsimp only at hs ⊢
      omega
    · have hne : ((p.take 32).takeWhile test).length ≠ 32 := fun heq => hm (hfull.2 (hrun.trans heq))
      have hle := (List.takeWhile_sublist test (l := p.take 32)).length_le
      refine .inr ⟨_, by rw [if_pos hm], ?_⟩
      rw [if_neg hne] at hsplit
      rw [hsplit] at hs
      rw [if_pos rfl, ctz_complement hvm (by omega), hrun]
      exact hs
  · refine .inr ⟨(p, n, false), by simp [vectorRound, hlen], by simpa using hs⟩

/-- A kernel whose mask gathers its own test consumes the run of bytes that pass. -/
theorem kernel_eq {mask : List UInt8 → Nat} {test : UInt8 → Bool}
    (h : ∀ v, v.length = 32 → mask v = movemask (v.map test)) (p : List UInt8) :
    kernel mask test p = .ok (p.takeWhile test).length := by
  obtain ⟨⟨rest, n, found⟩, hrun, hpost⟩ := loop_rule
    (fun s : List UInt8 × Nat => s.2 + (s.1.takeWhile test).length = (p.takeWhile test).length)
    (fun s : List UInt8 × Nat => s.1.length)
    (fun r : List UInt8 × Nat × Bool =>
      (if r.2.2 then r.2.1 else r.2.1 + (r.1.takeWhile test).length) = (p.takeWhile test).length)
    (vectorRound_spec h _) (p.length + 1) (p, 0) (Nat.zero_add _) (Nat.lt_succ_self _)
  unfold kernel
  rw [hrun, Run.ok_bind]
  dsimp only at hpost ⊢
  rw [tailRun_eq]
  cases found with
  | true => rw [if_pos rfl] at hpost ⊢; rw [hpost]; rfl
  | false => rw [if_neg Bool.false_ne_true] at hpost ⊢; rw [hpost]; rfl

/-- The letter kernel consumes the ASCII letters. -/
theorem bpAsciiLetterRunAvx2_eq (p : List UInt8) :
    bpAsciiLetterRunAvx2 p = .ok (p.takeWhile letterTail).length := by
  have hlane : ∀ b : UInt8, inRange (b ||| 0x20) 0x61 25 = letterTail b := by
    have all : ∀ n : Fin 256, inRange (UInt8.ofNat n.1 ||| 0x20) 0x61 25 = letterTail (UInt8.ofNat n.1) := by
      decide +kernel
    intro b
    simpa using all ⟨b.toNat, b.toNat_lt⟩
  refine kernel_eq (fun v _ => ?_) p
  exact congrArg movemask (List.map_congr_left fun b _ => hlane b)

/-- The symbol kernel consumes the ASCII bytes that are no letter, digit or whitespace. -/
theorem bpAsciiSymbolRunAvx2_eq (p : List UInt8) :
    bpAsciiSymbolRunAvx2 p = .ok (p.takeWhile symbolTail).length := by
  have hlane : ∀ b : UInt8, (!(b &&& 0x80 != 0) && !(inRange (b ||| 0x20) 0x61 25 || inRange b 0x30 9 ||
      (inRange b 0x09 4 || b == 0x20))) = symbolTail b := by
    have all : ∀ n : Fin 256, (!(UInt8.ofNat n.1 &&& 0x80 != 0) && !(inRange (UInt8.ofNat n.1 ||| 0x20) 0x61 25 ||
        inRange (UInt8.ofNat n.1) 0x30 9 || (inRange (UInt8.ofNat n.1) 0x09 4 || UInt8.ofNat n.1 == 0x20))) =
        symbolTail (UInt8.ofNat n.1) := by decide +kernel
    intro b
    simpa using all ⟨b.toNat, b.toNat_lt⟩
  refine kernel_eq (fun v hv => Nat.eq_of_testBit_eq fun i => ?_) p
  unfold symbolMask
  rw [Nat.testBit_and]
  by_cases hi : i < 32
  · rw [complement32_testBit hi, complement32_testBit hi]
    simp only [movemask_testBit, List.getElem?_map, List.getElem?_eq_getElem (show i < v.length by omega),
      Option.map_some, Option.getD_some]
    exact hlane _
  · have hlow : ∀ bs : List Bool, bs.length = 32 → (movemask bs).testBit i = false := fun bs hbs =>
      Nat.testBit_lt_two_pow (Nat.lt_of_lt_of_le (movemask_lt bs)
        (Nat.pow_le_pow_right (by decide) (by omega)))
    have hlt : complement32 (movemask (v.map fun b => b &&& 0x80 != 0)) < 2 ^ 32 := by
      refine Nat.xor_lt_two_pow ?_ (by decide)
      simpa [hv] using movemask_lt (v.map fun b => b &&& 0x80 != 0)
    rw [hlow _ (by simp [hv]), Nat.testBit_lt_two_pow (Nat.lt_of_lt_of_le hlt
      (Nat.pow_le_pow_right (by decide) (by omega))), Bool.false_and]

end Kernels

end Bytepair
