import Bytepair.Support.Regex
import Bytepair.Tables.Layout
import Bytepair.Utf8
import Mathlib.Data.List.Induction
import Mathlib.Data.List.TakeWhile

/-!
# The split regex

The regex of profile 1 (`docs/FORMAT.md`) over units, and the ordered tests that find its
match without backtracking: `first_splitRegex` says that `splitUnits` is the match a
backtracking engine reports. The hand-compiled scanner makes these tests.
-/

namespace Bytepair
open Support

section Classes

variable (T : Tables)

/-- `\p{L}`, `\p{N}` and `\s`, by class bit; a tagged byte has class 0. -/
def isL (u : Nat) : Bool := T.bpCharClass u &&& BP_CC_L ≠ 0
def isN (u : Nat) : Bool := T.bpCharClass u &&& BP_CC_N ≠ 0
def isS (u : Nat) : Bool := T.bpCharClass u &&& BP_CC_S ≠ 0

/-- `[^\s\p{L}\p{N}]`. -/
def isOther (u : Nat) : Bool := !(isL T u || isN T u || isS T u)

/-- `[\r\n]`. -/
def isCrLf (u : Nat) : Bool := u = 0x0D || u = 0x0A

/-- An ASCII letter in either case. -/
def caseless (c u : Nat) : Bool := u = c || u + 0x20 = c

/-- `s` in either case, or U+017F. -/
def caselessS (u : Nat) : Bool := caseless 0x73 u || u = 0x17F

open Regex in
/-- A1 `(?i:'s|'t|'re|'ve|'m|'ll|'d)`. -/
def contractionRegex : Regex Nat :=
  let letter c := one (caseless c)
  seq (one (· = 0x27))
    (alt (one caselessS) (alt (letter 0x74) (alt (seq (letter 0x72) (letter 0x65))
      (alt (seq (letter 0x76) (letter 0x65)) (alt (letter 0x6D)
        (alt (seq (letter 0x6C) (letter 0x6C)) (letter 0x64)))))))

open Regex in
/-- A2 `[^\r\n\p{L}\p{N}]?\p{L}+`. -/
def wordRegex : Regex Nat :=
  seq (opt (one fun u => !(isCrLf u || isL T u || isN T u))) (plus (one (isL T)))

open Regex in
/-- A4 ` ?[^\s\p{L}\p{N}]+[\r\n]*`. -/
def symbolRegex : Regex Nat :=
  seq (opt (one (· = 0x20))) (seq (plus (one (isOther T))) (star (one isCrLf)))

open Regex in
/-- A5 `\s*[\r\n]+`. -/
def newlineRegex : Regex Nat := seq (star (one (isS T))) (plus (one isCrLf))

open Regex in
/-- A6 `\s+(?!\S)`. -/
def trailingRegex : Regex Nat := seq (plus (one (isS T))) (notAhead fun u => !isS T u)

open Regex in
/-- The alternatives A1 to A7, in order; A3 is `\p{N}` and A7 is `\s+`. -/
def splitRegex : Regex Nat :=
  alt contractionRegex (alt (wordRegex T) (alt (one (isN T)) (alt (symbolRegex T)
    (alt (newlineRegex T) (alt (trailingRegex T) (plus (one (isS T))))))))

/-- What the regex and the scanner need of the classes. -/
structure Tables.Splits (T : Tables) : Prop where
  letter : ∀ u, isL T u = true → isN T u = false ∧ isS T u = false
  number : ∀ u, isN T u = true → isS T u = false
  newline : ∀ u, T.bpCharClass u &&& BP_CC_NL ≠ 0 ↔ u = 0x0D ∨ u = 0x0A
  newline_space : ∀ u, isCrLf u = true → isS T u = true
  space : isS T 0x20 = true

end Classes

/-! The ordered tests, in units. -/

section Tests

variable (T : Tables)

/-- The letters of a contraction behind an apostrophe, or 0. -/
def contractionUnits : List Nat → Nat
  | [] => 0
  | c :: us =>
    if caselessS c || caseless 0x74 c || caseless 0x6D c || caseless 0x64 c then 1
    else
      match us with
      | [] => 0
      | d :: _ =>
        if (caseless 0x72 c && caseless 0x65 d) || (caseless 0x76 c && caseless 0x65 d) ||
            (caseless 0x6C c && caseless 0x6C d) then 2
        else 0

/-- A symbol run at `k`, and the CR/LF run behind it. -/
def symbolUnits (us : List Nat) (k : Nat) : Nat :=
  let n := k + Regex.run (isOther T) (us.drop k)
  n + Regex.run isCrLf (us.drop n)

/-- Where the last CR or LF of a run ends, or 0. -/
def newlineEnd (ws : List Nat) : Nat :=
  ws.length - (ws.reverse.takeWhile fun u => !isCrLf u).length

/-- A5/A6/A7. -/
def whitespaceUnits (us : List Nat) : Nat :=
  let n := Regex.run (isS T) us
  let e := newlineEnd (us.takeWhile (isS T))
  if e ≠ 0 then e
  else if us.length = n then n
  else if 2 ≤ n then n - 1
  else n

/-- The units of the next span. -/
def splitUnits : List Nat → Nat
  | [] => 0
  | u :: us =>
    let m := if u = 0x27 then contractionUnits us else 0
    if m ≠ 0 then 1 + m
    else if isL T u then 1 + Regex.run (isL T) us
    else if !(isN T u || isCrLf u) && Regex.run (isL T) us ≠ 0 then 1 + Regex.run (isL T) us
    else if isN T u then 1
    else if u = 0x20 && Regex.run (isOther T) us ≠ 0 then symbolUnits T (u :: us) 1
    else if isOther T u then symbolUnits T (u :: us) 0
    else whitespaceUnits T (u :: us)

attribute [grind =] contractionUnits symbolUnits newlineEnd whitespaceUnits splitUnits

end Tests

section First

open Regex

variable {T : Tables}

/-- A code point is at most one letter, whatever the case. -/
theorem caseless_unique {a b u : Nat} (ha : 0x61 ≤ a ∧ a ≤ 0x7A) (hb : 0x61 ≤ b ∧ b ≤ 0x7A)
    (h : caseless a u = true) (hne : a ≠ b) : caseless b u = false := by
  simp only [caseless, Bool.or_eq_true, decide_eq_true_eq, Bool.or_eq_false_iff,
    decide_eq_false_iff_not] at *
  omega

/-- An apostrophe and what it contracts. -/
theorem first_contraction (u : Nat) (us : List Nat) :
    contractionRegex.first (u :: us) =
      if u = 0x27 ∧ contractionUnits us ≠ 0 then some (1 + contractionUnits us) else none := by
  unfold contractionRegex
  rw [first_seq_one_cons]
  by_cases hu : u = 0x27
  · simp only [hu, decide_true, if_true, true_and]
    cases us with
    | nil => rfl
    | cons c us =>
      simp only [first_alt, first_one_cons, first_seq_one_cons, contractionUnits]
      have letter : ∀ a b, 0x61 ≤ a ∧ a ≤ 0x7A → 0x61 ≤ b ∧ b ≤ 0x7A → caseless a c = true → a ≠ b →
          caseless b c = false := fun a b ha hb h hne => caseless_unique ha hb h hne
      by_cases hs : caselessS c = true
      · simp [hs]
      by_cases ht : caseless 0x74 c = true
      · simp [hs, ht]
      by_cases hm : caseless 0x6D c = true
      · simp [hs, ht, hm, letter 0x6D 0x72 (by decide) (by decide) hm (by decide),
          letter 0x6D 0x76 (by decide) (by decide) hm (by decide)]
      by_cases hd : caseless 0x64 c = true
      · simp [hs, ht, hm, hd, letter 0x64 0x72 (by decide) (by decide) hd (by decide),
          letter 0x64 0x76 (by decide) (by decide) hd (by decide),
          letter 0x64 0x6C (by decide) (by decide) hd (by decide)]
      cases us with
      | nil => simp [hs, ht, hm, hd]
      | cons d us =>
        simp only [first_one_cons]
        by_cases hr : caseless 0x72 c = true
        · simp only [hs, ht, hm, hd, hr, letter 0x72 0x76 (by decide) (by decide) hr (by decide),
            letter 0x72 0x6C (by decide) (by decide) hr (by decide)]
          by_cases he : caseless 0x65 d = true <;> simp [he]
        by_cases hv : caseless 0x76 c = true
        · simp only [hs, ht, hm, hd, hr, hv, letter 0x76 0x6C (by decide) (by decide) hv (by decide)]
          by_cases he : caseless 0x65 d = true <;> simp [he]
        by_cases hl : caseless 0x6C c = true
        · simp only [hs, ht, hm, hd, hr, hv, hl]
          by_cases he : caseless 0x6C d = true <;> simp [he]
        · simp [hs, ht, hm, hd, hr, hv, hl]
  · simp [hu]

/-- A run of letters, with a character in front that is neither a number nor a line break. -/
theorem first_word (u : Nat) (us : List Nat) :
    (wordRegex T).first (u :: us) =
      if isL T u then some (1 + run (isL T) us)
      else if !(isN T u || isCrLf u) && run (isL T) us ≠ 0 then some (1 + run (isL T) us)
      else none := by
  unfold wordRegex
  rw [first_seq_opt_one, first_plus_one, first_plus_one, run_cons]
  cases hL : isL T u <;> cases hN : isN T u <;> cases hc : isCrLf u <;>
    by_cases h : run (isL T) us = 0 <;> simp [h, Nat.add_comm 1]

/-- Symbols, and the CR/LF run behind them. -/
theorem first_symbols (us : List Nat) :
    (seq (plus (one (isOther T))) (star (one isCrLf))).first us =
      if run (isOther T) us = 0 then none
      else some (run (isOther T) us + run isCrLf (us.drop (run (isOther T) us))) := by
  cases us with
  | nil => rfl
  | cons c us =>
    rw [run_cons]
    cases hc : isOther T c with
    | false => rw [first_seq_plus_one_of_not hc]; rfl
    | true =>
      rw [first_seq_plus_one_cons hc, if_pos rfl, if_neg (Nat.succ_ne_zero _), List.drop_succ_cons]
      refine findSome?_downTo (Nat.le_refl _) ?_ fun j hj hj' => by omega
      rw [first_star_one, Option.map_some, Nat.add_comm 1]

/-- A run of other characters, with a space in front and the line breaks behind. -/
theorem first_symbol (hT : T.Splits) (u : Nat) (us : List Nat) :
    (symbolRegex T).first (u :: us) =
      if u = 0x20 ∧ run (isOther T) us ≠ 0 then some (symbolUnits T (u :: us) 1)
      else if isOther T u then some (symbolUnits T (u :: us) 0)
      else none := by
  unfold symbolRegex symbolUnits
  rw [first_seq_opt_one, first_symbols, first_symbols, run_cons]
  by_cases hu : u = 0x20
  · have hother : isOther T u = false := by simp [isOther, hu, hT.space]
    by_cases h : run (isOther T) us = 0
    · simp [hu, h, hu ▸ hother]
    · simp [hu, h, Nat.add_comm 1, Nat.add_right_comm]
  · cases h : isOther T u <;> simp [hu, h, run_cons]

theorem newlineEnd_snoc (ws : List Nat) (u : Nat) :
    newlineEnd (ws ++ [u]) = if isCrLf u then ws.length + 1 else newlineEnd ws := by
  unfold newlineEnd
  have hle := (List.takeWhile_sublist (fun u => !isCrLf u) (l := ws.reverse)).length_le
  rw [List.length_reverse] at hle
  cases hu : isCrLf u <;> simp [hu]

/-- The last CR or LF of a run is just before `newlineEnd`. -/
theorem newlineEnd_spec (ws : List Nat) :
    newlineEnd ws ≤ ws.length ∧ (∀ j x, newlineEnd ws ≤ j → ws[j]? = some x → isCrLf x = false) ∧
      (newlineEnd ws ≠ 0 → ∃ x, ws[newlineEnd ws - 1]? = some x ∧ isCrLf x = true) := by
  induction ws using List.reverseRecOn with
  | nil => simp [newlineEnd]
  | append_singleton ws u ih =>
    obtain ⟨hle, hafter, hat⟩ := ih
    rw [newlineEnd_snoc]
    cases hu : isCrLf u with
    | true =>
      refine ⟨by simp, fun j x hj hx => ?_, fun _ => ⟨u, by simp, hu⟩⟩
      rw [List.getElem?_eq_none (by simp at hj ⊢; omega)] at hx
      cases hx
    | false =>
      refine ⟨by simp; omega, fun j x hj hx => ?_, fun hne => ?_⟩
      · simp only [Bool.false_eq_true, if_false] at hj
        rcases Nat.lt_trichotomy j ws.length with hlt | rfl | hgt
        · exact hafter j x hj (by rwa [List.getElem?_append_left hlt] at hx)
        · simp at hx
          rwa [← hx]
        · rw [List.getElem?_eq_none (by simp; omega)] at hx
          cases hx
      · simp only [Bool.false_eq_true, if_false] at hne ⊢
        obtain ⟨x, hx, hcr⟩ := hat hne
        exact ⟨x, by rw [List.getElem?_append_left (by omega)]; exact hx, hcr⟩

theorem run_drop_eq_zero {p : Nat → Bool} {us : List Nat} {k : Nat} :
    run p (us.drop k) = 0 ↔ ∀ x ∈ us[k]?, p x = false := by
  cases h : us.drop k with
  | nil =>
    have hnone : us[k]? = none := List.getElem?_eq_none (List.drop_eq_nil_iff.1 h)
    simp [run, hnone]
  | cons x t =>
    have hsome : us[k]? = some x := by
      have := congrArg List.head? h
      simpa using this
    rw [run_cons, hsome]
    cases hx : p x <;> simp [hx]

/-- What follows a run is not in the class. -/
theorem getElem?_run_end (p : Nat → Bool) (us : List Nat) : ∀ x ∈ us[run p us]?, p x = false := by
  induction us with
  | nil => simp
  | cons u us ih =>
    rw [run_cons]
    cases hu : p u with
    | true => simpa using ih
    | false => simpa using hu

theorem getElem?_takeWhile {p : Nat → Bool} {us : List Nat} {j : Nat} (hj : j < run p us) :
    (us.takeWhile p)[j]? = us[j]? := by
  conv_rhs => rw [← List.takeWhile_append_dropWhile (p := p) (l := us)]
  exact (List.getElem?_append_left hj).symm

/-- White space up to its last line break. -/
theorem first_newline (hT : T.Splits) (us : List Nat) :
    (newlineRegex T).first us =
      if newlineEnd (us.takeWhile (isS T)) ≠ 0 then some (newlineEnd (us.takeWhile (isS T))) else none := by
  obtain ⟨hle, hafter, hat⟩ := newlineEnd_spec (us.takeWhile (isS T))
  have hend := getElem?_run_end (isS T) us
  -- behind the last CR or LF of the run, and behind the run, there is none
  have hnone : ∀ j, newlineEnd (us.takeWhile (isS T)) ≤ j → j ≤ run (isS T) us →
      ∀ x ∈ us[j]?, isCrLf x = false := by
    intro j hj hj' x hx
    rcases Nat.lt_or_eq_of_le hj' with hlt | rfl
    · exact hafter j x hj (by rwa [getElem?_takeWhile hlt])
    · by_contra hcr
      have hs := hT.newline_space x (by simpa using hcr)
      rw [hend x hx] at hs
      cases hs
  unfold newlineRegex
  rw [first_seq_star_one]
  by_cases he : newlineEnd (us.takeWhile (isS T)) = 0
  · rw [if_neg (by simpa using he)]
    refine findSome?_downTo_none fun j hj => ?_
    rw [first_plus_one, if_pos (run_drop_eq_zero.2 (hnone j (by omega) hj))]
    rfl
  · rw [if_pos he]
    obtain ⟨x, hx, hcr⟩ := hat he
    have hlt : newlineEnd (us.takeWhile (isS T)) - 1 < run (isS T) us := by
      have : newlineEnd (us.takeWhile (isS T)) ≤ run (isS T) us := hle
      omega
    rw [getElem?_takeWhile hlt] at hx
    refine findSome?_downTo (k := newlineEnd (us.takeWhile (isS T)) - 1) (by omega) ?_ ?_
    · have hdrop : us.drop (newlineEnd (us.takeWhile (isS T)) - 1) =
          x :: us.drop (newlineEnd (us.takeWhile (isS T))) := by
        obtain ⟨hlen, hget⟩ := List.getElem?_eq_some_iff.1 hx
        rw [List.drop_eq_getElem_cons hlen, hget, Nat.sub_add_cancel (by omega)]
      have hrest : run isCrLf (us.drop (newlineEnd (us.takeWhile (isS T)))) = 0 :=
        run_drop_eq_zero.2 (hnone _ (Nat.le_refl _) hle)
      rw [first_plus_one, hdrop, run_cons, if_pos hcr, hrest, if_neg (by omega), Option.map_some]
      exact congrArg some (by omega)
    · intro j hj hj'
      rw [first_plus_one, if_pos (run_drop_eq_zero.2 (hnone j (by omega) hj'))]
      rfl

theorem first_notAhead (p : Nat → Bool) (us : List Nat) :
    (notAhead p).first us = if us.head?.any p then none else some 0 := by
  cases us with
  | nil => rfl
  | cons u us =>
    unfold Regex.first Regex.ends
    cases hu : p u <;> simp [hu]

/-- The whole run where it ends the text; where it does not, all but its last unit. -/
theorem first_trailing (us : List Nat) :
    (trailingRegex T).first us =
      if run (isS T) us = 0 then none
      else if us.length = run (isS T) us then some (run (isS T) us)
      else if 2 ≤ run (isS T) us then some (run (isS T) us - 1) else none := by
  unfold trailingRegex
  cases us with
  | nil => rfl
  | cons u us =>
    rw [run_cons]
    cases hu : isS T u with
    | false => rw [first_seq_plus_one_of_not hu]; rfl
    | true =>
      rw [first_seq_plus_one_cons hu, if_pos rfl, if_neg (Nat.succ_ne_zero _)]
      have hend := getElem?_run_end (isS T) us
      have hle := run_le (isS T) us
      have step : ∀ j, ((notAhead fun u => !isS T u).first (us.drop j)).map (1 + j + ·) =
          if us[j]?.any (fun u => !isS T u) then none else some (1 + j) := by
        intro j
        rw [first_notAhead, List.head?_drop]
        split <;> rfl
      simp only [step, List.length_cons]
      by_cases hall : us.length = run (isS T) us
      · rw [if_pos (by omega)]
        refine findSome?_downTo (Nat.le_refl _) ?_ fun j hj hj' => by omega
        rw [List.getElem?_eq_none (by omega)]
        simp [Nat.add_comm 1]
      rw [if_neg (by omega)]
      -- what follows the run is not whitespace, and what ends it is
      have hlast : us[run (isS T) us]?.any (fun u => !isS T u) = true := by
        rw [List.getElem?_eq_getElem (by omega)] at hend ⊢
        simp [hend _ rfl]
      by_cases hrun : run (isS T) us = 0
      · rw [if_neg (by omega)]
        refine findSome?_downTo_none fun j hj => ?_
        obtain rfl : j = run (isS T) us := by omega
        rw [if_pos hlast]
      · rw [if_pos (by omega)]
        refine findSome?_downTo (k := run (isS T) us - 1) (by omega) ?_ fun j hj hj' => ?_
        · have hin : ∀ x ∈ us[run (isS T) us - 1]?, isS T x = true := by
            intro x hx
            rw [← getElem?_takeWhile (p := isS T) (by omega)] at hx
            exact (List.mem_takeWhile_imp (List.mem_of_getElem? hx))
          rw [List.getElem?_eq_getElem (by omega)] at hin ⊢
          simp [hin _ rfl]
          omega
        · obtain rfl : j = run (isS T) us := by omega
          rw [if_pos hlast]

/-- White space up to its last line break, else all of it, but for its last character if more follows. -/
theorem first_whitespace (hT : T.Splits) (us : List Nat) :
    (alt (newlineRegex T) (alt (trailingRegex T) (plus (one (isS T))))).first us =
      if run (isS T) us = 0 then none else some (whitespaceUnits T us) := by
  rw [first_alt, first_alt, first_newline hT, first_trailing, first_plus_one]
  unfold whitespaceUnits
  have hle := (newlineEnd_spec (us.takeWhile (isS T))).1
  change _ ≤ run (isS T) us at hle
  by_cases hrun : run (isS T) us = 0
  · simp [hrun, show newlineEnd (us.takeWhile (isS T)) = 0 by omega]
  by_cases he : newlineEnd (us.takeWhile (isS T)) = 0
  · by_cases hall : us.length = run (isS T) us
    · simp [hrun, he, hall]
    · by_cases h2 : 2 ≤ run (isS T) us <;> simp [hrun, he, hall, h2]
  · simp [hrun, he]

/-- **The ordered tests find the regex match.** -/
theorem first_splitRegex (hT : T.Splits) {us : List Nat} (hne : us ≠ []) :
    (splitRegex T).first us = some (splitUnits T us) := by
  obtain ⟨u, us, rfl⟩ := List.exists_cons_of_ne_nil hne
  unfold splitRegex
  rw [first_alt, first_contraction, first_alt, first_word, first_alt, first_one_cons, first_alt,
    first_symbol hT, first_whitespace hT, run_cons]
  simp only [splitUnits]
  by_cases hm : u = 0x27 ∧ contractionUnits us ≠ 0
  · simp [hm]
  have hm' : ¬(if u = 0x27 then contractionUnits us else 0) ≠ 0 := by
    intro h
    apply hm
    split at h
    · exact ⟨‹_›, h⟩
    · exact absurd rfl h
  rw [if_neg hm, Option.none_or, if_neg hm']
  by_cases hL : isL T u = true
  · simp [hL]
  rw [if_neg hL, if_neg hL]
  by_cases hw : (!(isN T u || isCrLf u) && decide (run (isL T) us ≠ 0)) = true
  · rw [if_pos hw, if_pos hw, Option.some_or]
  rw [if_neg hw, if_neg hw, Option.none_or]
  by_cases hN : isN T u = true
  · simp [hN]
  rw [if_neg hN, if_neg hN, Option.none_or]
  by_cases hsp : u = 0x20 ∧ run (isOther T) us ≠ 0
  · simp [hsp]
  have hsp' : ¬(decide (u = 0x20) && decide (run (isOther T) us ≠ 0)) = true := by simpa using hsp
  rw [if_neg hsp, if_neg hsp']
  by_cases ho : isOther T u = true
  · simp [ho]
  -- neither letter nor number nor other: whitespace
  · have hS : isS T u = true := by simpa [isOther, hL, hN] using ho
    simp [ho, hS]

theorem whitespaceUnits_pos {us : List Nat} (h : run (isS T) us ≠ 0) : 0 < whitespaceUnits T us := by
  unfold whitespaceUnits
  dsimp only
  by_cases he : newlineEnd (us.takeWhile (isS T)) = 0
  · rw [if_neg (by omega)]
    split
    · omega
    · split <;> omega
  · rw [if_pos he]
    omega

theorem symbolUnits_pos {us : List Nat} {k : Nat} (h : 0 < k + run (isOther T) (us.drop k)) :
    0 < symbolUnits T us k :=
  Nat.add_pos_left h _

/-- Every span has a character, so the scan ends. -/
theorem splitUnits_pos {us : List Nat} (hne : us ≠ []) : 0 < splitUnits T us := by
  obtain ⟨u, us, rfl⟩ := List.exists_cons_of_ne_nil hne
  simp only [splitUnits]
  generalize (if u = 0x27 then contractionUnits us else 0) = m
  split_ifs with hm hL hw hN hsp ho
  · omega
  · omega
  · omega
  · exact Nat.one_pos
  · exact symbolUnits_pos (by omega)
  · apply symbolUnits_pos
    rw [List.drop_zero, run_cons, if_pos ho]
    omega
  · have hS : isS T u = true := by simpa [isOther, hL, hN] using ho
    apply whitespaceUnits_pos
    rw [run_cons, if_pos hS]
    omega

end First

end Bytepair
