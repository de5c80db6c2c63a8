import Mathlib.Data.List.Basic
import Mathlib.Tactic.Common

/-!
# Literal tokens in a text

Some tokens stand for literal pieces of a text. `LeftmostLongest` says how a text is cut at
them: at the first place where one occurs, the longest one there, and again behind it; `cut`
computes it in one pass, from a function that finds the token at the head of a text.
`cut_leftmostLongest` and `LeftmostLongest.unique`: the two agree.
-/

namespace Support

variable {α τ : Type}

section Spec

variable (bytes : τ → List α) (key : τ → Nat) (tokens : List τ)

/-- The token to take at the head of a text: the longest, of equal ones that of least key. -/
structure Preferred (t : List α) (a : τ) : Prop where
  mem : a ∈ tokens
  here : bytes a <+: t
  best : ∀ b ∈ tokens, bytes b <+: t →
    (bytes b).length < (bytes a).length ∨ (bytes b).length = (bytes a).length ∧ key a ≤ key b

/-- No token occurs at the first `n` places of a text. -/
def Clear (n : Nat) (t : List α) : Prop := ∀ i < n, ∀ b ∈ tokens, ¬bytes b <+: t.drop i

/-- A text is cut into gaps with the token behind each, and what is left. -/
inductive LeftmostLongest : List α → List (List α × τ) → List α → Prop
  | rest {t : List α} (clear : Clear bytes tokens t.length t) : LeftmostLongest t [] t
  | cut {gap rest tail : List α} {a : τ} {ps : List (List α × τ)}
    (clear : Clear bytes tokens gap.length (gap ++ (bytes a ++ rest)))
    (preferred : Preferred bytes key tokens (bytes a ++ rest) a) (more : LeftmostLongest rest ps tail) :
    LeftmostLongest (gap ++ (bytes a ++ rest)) ((gap, a) :: ps) tail

end Spec

section Cut

variable (find : List α → Option τ) (bytes : τ → List α)

/-- Cut `rest`, behind a gap that has no token, in at most `n` rounds. -/
def cutN : Nat → List α → List α → List (List α × τ) × List α
  | _, gap, [] => ([], gap)
  | 0, gap, rest => ([], gap ++ rest)
  | n + 1, gap, x :: rest =>
    match find (x :: rest) with
    | none => cutN n (gap ++ [x]) rest
    | some a =>
      let r := cutN n [] ((x :: rest).drop (bytes a).length)
      ((gap, a) :: r.1, r.2)

/-- Cut `rest`, behind a gap that has no token. -/
def cutFrom (gap rest : List α) : List (List α × τ) × List α := cutN find bytes rest.length gap rest

def cut (t : List α) : List (List α × τ) × List α := cutFrom find bytes [] t

attribute [grind =] cutN cutFrom

variable {find bytes}

theorem cutN_eq {n m : Nat} {gap rest : List α} (hpos : ∀ t a, find t = some a → bytes a ≠ [])
    (hn : rest.length ≤ n) (hm : rest.length ≤ m) : cutN find bytes n gap rest = cutN find bytes m gap rest := by
  induction n generalizing m gap rest with
  | zero =>
    obtain rfl := List.eq_nil_of_length_eq_zero (Nat.le_zero.1 hn)
    cases m <;> rfl
  | succ n ih =>
    cases rest with
    | nil => cases m <;> rfl
    | cons x rest =>
      obtain ⟨m, rfl⟩ : ∃ k, m = k + 1 := ⟨m - 1, by rw [List.length_cons] at hm; omega⟩
      rw [List.length_cons] at hn hm
      rw [cutN, cutN]
      cases hfind : find (x :: rest) with
      | none =>
        dsimp only
        rw [ih (Nat.le_of_succ_le_succ hn) (Nat.le_of_succ_le_succ hm)]
      | some a =>
        have hlen := List.length_pos_iff.2 (hpos _ a hfind)
        dsimp only
        rw [ih (m := m) (by rw [List.length_drop, List.length_cons]; omega)
          (by rw [List.length_drop, List.length_cons]; omega)]

theorem cutFrom_nil (gap : List α) : cutFrom find bytes gap [] = ([], gap) := rfl

theorem cutFrom_none {gap rest : List α} {x : α} (h : find (x :: rest) = none) :
    cutFrom find bytes gap (x :: rest) = cutFrom find bytes (gap ++ [x]) rest := by
  unfold cutFrom
  rw [List.length_cons, cutN, h]

theorem cutFrom_some (hpos : ∀ t a, find t = some a → bytes a ≠ []) {gap rest : List α} {x : α} {a : τ}
    (h : find (x :: rest) = some a) :
    cutFrom find bytes gap (x :: rest) =
      ((gap, a) :: (cut find bytes ((x :: rest).drop (bytes a).length)).1,
        (cut find bytes ((x :: rest).drop (bytes a).length)).2) := by
  have hlen := List.length_pos_iff.2 (hpos _ a h)
  unfold cut cutFrom
  rw [List.length_cons, cutN, h]
  dsimp only
  rw [cutN_eq hpos (by rw [List.length_drop, List.length_cons]; omega) (Nat.le_refl _)]

/-- Places where nothing is found go to the gap. -/
theorem cutFrom_skip {gap rest : List α} {k : Nat} (h : ∀ j < k, find (rest.drop j) = none) :
    cutFrom find bytes gap rest = cutFrom find bytes (gap ++ rest.take k) (rest.drop k) := by
  induction k generalizing gap rest with
  | zero => rw [List.take_zero, List.append_nil, List.drop_zero]
  | succ k ih =>
    cases rest with
    | nil => rw [List.take_nil, List.append_nil, List.drop_nil]
    | cons x rest =>
      rw [cutFrom_none (h 0 (Nat.succ_pos k)), ih fun j hj => h (j + 1) (Nat.succ_lt_succ hj), List.take_succ_cons,
        List.drop_succ_cons, List.append_assoc]
      rfl

/-- Where nothing is found any more, there is one gap left. -/
theorem cutFrom_rest {gap rest : List α} (h : ∀ j < rest.length, find (rest.drop j) = none) :
    cutFrom find bytes gap rest = ([], gap ++ rest) := by
  rw [cutFrom_skip h, List.take_length, List.drop_length, cutFrom_nil]

end Cut

section Correct

variable {bytes : τ → List α} {key : τ → Nat} {tokens : List τ}

/-- A gap that grows by a place without a token. -/
theorem Clear.snoc {gap rest : List α} {x : α} (h : Clear bytes tokens gap.length (gap ++ (x :: rest)))
    (hx : ∀ b ∈ tokens, ¬bytes b <+: x :: rest) :
    Clear bytes tokens (gap ++ [x]).length ((gap ++ [x]) ++ rest) := by
  rw [List.append_assoc, List.singleton_append, List.length_append, List.length_singleton]
  intro i hi
  rcases Nat.lt_succ_iff_lt_or_eq.1 hi with hlt | rfl
  · exact h i hlt
  · rw [List.drop_left]
    exact hx

/-- **The cut is leftmost and longest.** -/
theorem cut_leftmostLongest {find : List α → Option τ} (hne : ∀ a ∈ tokens, bytes a ≠ [])
    (hsome : ∀ t a, find t = some a → Preferred bytes key tokens t a)
    (hnone : ∀ t, find t = none → ∀ b ∈ tokens, ¬bytes b <+: t) (t : List α) :
    LeftmostLongest bytes key tokens t (cut find bytes t).1 (cut find bytes t).2 := by
  have hpos : ∀ t a, find t = some a → bytes a ≠ [] := fun t a h => hne a (hsome t a h).mem
  have key : ∀ (n : Nat) (gap rest : List α), rest.length ≤ n → Clear bytes tokens gap.length (gap ++ rest) →
      LeftmostLongest bytes key tokens (gap ++ rest) (cutFrom find bytes gap rest).1
        (cutFrom find bytes gap rest).2 := by
    intro n
    induction n with
    | zero =>
      intro gap rest hle hclear
      obtain rfl := List.eq_nil_of_length_eq_zero (Nat.le_zero.1 hle)
      rw [List.append_nil] at hclear ⊢
      exact .rest hclear
    | succ n ih =>
      intro gap rest hle hclear
      cases rest with
      | nil =>
        rw [List.append_nil] at hclear ⊢
        exact .rest hclear
      | cons x rest =>
        rw [List.length_cons] at hle
        cases hfind : find (x :: rest) with
        | none =>
          have hmore := ih (gap ++ [x]) rest (Nat.le_of_succ_le_succ hle) (hclear.snoc (hnone _ hfind))
          rw [List.append_assoc, List.singleton_append] at hmore
          rwa [cutFrom_none hfind]
        | some a =>
          have hbest := hsome _ a hfind
          obtain ⟨rest', hrest⟩ := hbest.here
          have hlen := List.length_pos_iff.2 (hpos _ a hfind)
          have hle' : rest'.length ≤ n := by
            have := congrArg List.length hrest
            rw [List.length_append, List.length_cons] at this
            omega
          rw [cutFrom_some hpos hfind]
          rw [← hrest] at hbest hclear ⊢
          rw [List.drop_left]
          exact .cut hclear hbest (ih [] rest' hle' fun i hi => absurd hi (Nat.not_lt_zero i))
  exact key t.length [] t (Nat.le_refl _) fun i hi => absurd hi (Nat.not_lt_zero i)

/-- The gaps and the tokens are the text. -/
theorem LeftmostLongest.text {t tail : List α} {ps : List (List α × τ)}
    (h : LeftmostLongest bytes key tokens t ps tail) : (ps.flatMap fun p => p.1 ++ bytes p.2) ++ tail = t := by
  induction h with
  | rest clear => rfl
  | cut clear preferred more ih =>
    rw [List.flatMap_cons, List.append_assoc, ih, List.append_assoc]

theorem LeftmostLongest.mem {t tail : List α} {ps : List (List α × τ)}
    (h : LeftmostLongest bytes key tokens t ps tail) : ∀ p ∈ ps, p.2 ∈ tokens := by
  induction h with
  | rest clear => exact fun p hp => nomatch hp
  | cut clear preferred more ih => exact List.forall_mem_cons.2 ⟨preferred.mem, ih⟩

/-- The gaps and what is left are parts of the text. -/
theorem LeftmostLongest.parts {t tail : List α} {ps : List (List α × τ)}
    (h : LeftmostLongest bytes key tokens t ps tail) : (∀ p ∈ ps, p.1 <:+: t) ∧ tail <:+: t := by
  induction h with
  | rest clear => exact ⟨List.forall_mem_nil _, List.infix_rfl⟩
  | @cut gap rest tail a ps clear preferred more ih =>
    have hrest : rest <:+: gap ++ (bytes a ++ rest) :=
      ((List.suffix_append _ rest).trans (List.suffix_append gap _)).isInfix
    refine ⟨List.forall_mem_cons.2 ⟨(List.prefix_append gap _).isInfix, fun p hp => ?_⟩, ih.2.trans hrest⟩
    exact (ih.1 p hp).trans hrest

/-- A text is cut in one way only. -/
theorem LeftmostLongest.unique (hne : ∀ a ∈ tokens, bytes a ≠ [])
    (hkey : ∀ a ∈ tokens, ∀ b ∈ tokens, key a = key b → a = b) {t tail tail' : List α} {ps ps' : List (List α × τ)}
    (h : LeftmostLongest bytes key tokens t ps tail) (h' : LeftmostLongest bytes key tokens t ps' tail') :
    ps = ps' ∧ tail = tail' := by
  have here : ∀ (gap : List α) (a : τ) (rest : List α), bytes a <+: (gap ++ (bytes a ++ rest)).drop gap.length := by
    intro gap a rest
    rw [List.drop_left]
    exact List.prefix_append _ _
  have inside : ∀ (gap : List α) (a : τ) (rest : List α), a ∈ tokens →
      gap.length < (gap ++ (bytes a ++ rest)).length := by
    intro gap a rest ha
    have := List.length_pos_iff.2 (hne a ha)
    simp only [List.length_append]
    omega
  induction h generalizing ps' tail' with
  | rest clear =>
    cases h' with
    | rest _ => exact ⟨rfl, rfl⟩
    | @cut gap rest _ a _ _ preferred _ =>
      exact absurd (here gap a rest) (clear _ (inside gap a rest preferred.mem) a preferred.mem)
  | @cut gap rest tail a ps clear preferred more ih =>
    generalize ht : gap ++ (bytes a ++ rest) = t at h'
    cases h' with
    | rest clear' =>
      subst ht
      exact absurd (here gap a rest) (clear' _ (inside gap a rest preferred.mem) a preferred.mem)
    | @cut gap' rest' _ a' ps' clear' preferred' more' =>
      have hlen : gap.length = gap'.length := by
        rcases Nat.lt_trichotomy gap.length gap'.length with hlt | heq | hgt
        · rw [← ht] at clear'
          exact absurd (here gap a rest) (clear' _ hlt a preferred.mem)
        · exact heq
        · rw [ht] at clear
          exact absurd (here gap' a' rest') (clear _ hgt a' preferred'.mem)
      obtain ⟨rfl, hrest⟩ := List.append_inj ht hlen
      rw [← hrest] at preferred'
      have h₁ := preferred.best a' preferred'.mem preferred'.here
      have h₂ := preferred'.best a preferred.mem preferred.here
      obtain rfl := hkey a preferred.mem a' preferred'.mem (by omega)
      obtain rfl := List.append_cancel_left hrest
      obtain ⟨rfl, rfl⟩ := ih more'
      exact ⟨rfl, rfl⟩

end Correct

end Support
