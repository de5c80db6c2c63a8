import Mathlib.Data.List.Basic
import Mathlib.Data.List.TakeWhile
import Mathlib.Tactic.Common

/-!
# Numerals in a text

Decimal numerals in ASCII bytes. `Runs` cuts a text at its longest runs of digits: every text is cut, and a text of
numerals with something between them is cut at these.
-/

namespace Support.Numeral

def isDigit (b : UInt8) : Bool := 0x30 ≤ b && b ≤ 0x39

/-- The number that digits spell behind those of `n`. -/
def value (n : Nat) (ds : List UInt8) : Nat := ds.foldl (fun n b => 10 * n + (b.toNat - 0x30)) n

def decimal (n : Nat) : List UInt8 := (Nat.toDigits 10 n).map fun ch => UInt8.ofNat ch.toNat

/-- A digit is read behind those before it. -/
theorem value_cons (n : Nat) (d : UInt8) (ds : List UInt8) : value n (d :: ds) = value (10 * n + (d.toNat - 0x30)) ds := by
  unfold value
  rw [List.foldl_cons]

theorem digit_bounds {ch : Char} (h : ch.isDigit = true) : 0x30 ≤ ch.toNat ∧ ch.toNat ≤ 0x39 := by
  unfold Char.isDigit at h
  rw [Bool.and_eq_true, decide_eq_true_eq, decide_eq_true_eq] at h
  exact h

theorem toNat_digit {ch : Char} (h : ch.isDigit = true) : (UInt8.ofNat ch.toNat).toNat = ch.toNat := by
  obtain ⟨-, hle⟩ := digit_bounds h
  exact UInt8.toNat_ofNat_of_lt' (Nat.lt_of_le_of_lt hle (by decide))

/-- A number is printed in digits. -/
theorem isDigit_decimal (n : Nat) : ∀ d ∈ decimal n, isDigit d = true := by
  intro d hd
  obtain ⟨ch, hch, rfl⟩ := List.mem_map.1 hd
  have hdigit := Nat.isDigit_of_mem_toDigits (by decide) (by decide) hch
  obtain ⟨hlow, hhigh⟩ := digit_bounds hdigit
  have hnat := toNat_digit hdigit
  unfold isDigit
  rw [Bool.and_eq_true, decide_eq_true_eq, decide_eq_true_eq, UInt8.le_iff_toNat_le, UInt8.le_iff_toNat_le, hnat]
  exact ⟨hlow, hhigh⟩

theorem decimal_ne_nil (n : Nat) : decimal n ≠ [] := by
  unfold decimal
  rw [Ne, List.map_eq_nil_iff]
  exact Nat.toDigits_ne_nil

/-- What was written is read. -/
theorem value_decimal (n : Nat) : value 0 (decimal n) = n := by
  have hread := @Nat.ofDigitChars_ten_toDigits n
  rw [Nat.ofDigitChars_eq_foldl] at hread
  conv_rhs => rw [← hread]
  unfold value decimal
  rw [List.foldl_map]
  apply List.foldl_ext
  intro m ch hch
  rw [toNat_digit (Nat.isDigit_of_mem_toDigits (by decide) (by decide) hch)]
  rfl

/-- A text cut at its longest runs of digits, each with what is before it. -/
inductive Runs : List UInt8 → List (List UInt8 × List UInt8) → Prop where
  | gap {g : List UInt8} (hg : ∀ b ∈ g, isDigit b = false) : Runs g []
  | run {g ds rest : List UInt8} {ps : List (List UInt8 × List UInt8)} (hg : ∀ b ∈ g, isDigit b = false) (hne : ds ≠ [])
    (hds : ∀ d ∈ ds, isDigit d = true) (hrest : ∀ b ∈ rest.head?, isDigit b = false) :
    Runs rest ps → Runs (g ++ (ds ++ rest)) ((g, ds) :: ps)

/-- Numerals with something between them are cut at it. -/
theorem runs_separated {sep : List UInt8} (hne : sep ≠ []) (hsep : ∀ b ∈ sep, isDigit b = false) {g : List UInt8}
    (hg : ∀ b ∈ g, isDigit b = false) (ns : List Nat) :
    ∃ ps, Runs (g ++ ns.flatMap fun n => decimal n ++ sep) ps ∧ ps.map Prod.snd = ns.map decimal ∧
      ∀ p ∈ ps, p.1 = g ∨ p.1 = sep := by
  induction ns generalizing g with
  | nil =>
    refine ⟨[], ?_, rfl, List.forall_mem_nil _⟩
    rw [List.flatMap_nil, List.append_nil]
    exact .gap hg
  | cons n ns ih =>
    obtain ⟨ps, hps, hvalues, hgaps⟩ := ih hsep
    refine ⟨(g, decimal n) :: ps, ?_, ?_, ?_⟩
    · rw [List.flatMap_cons, List.append_assoc]
      apply Runs.run hg (decimal_ne_nil n) (isDigit_decimal n) _ hps
      obtain ⟨b, bs, rfl⟩ := List.exists_cons_of_ne_nil hne
      rintro b' ⟨⟩
      exact hsep b List.mem_cons_self
    · rw [List.map_cons, List.map_cons, hvalues]
    · rw [List.forall_mem_cons]
      refine ⟨.inl rfl, fun p hp => .inr ?_⟩
      rcases hgaps p hp with h | h
      · exact h
      · exact h

end Support.Numeral
