import Mathlib.Data.List.Basic
import Mathlib.Data.List.Forall2
import Mathlib.Tactic.Common

/-!
# Greedy pair rewriting

A `rule` gives some adjacent pairs a rank and the token that replaces them. `greedy`
replaces the pair of lowest rank, leftmost among equals, until no adjacent pair has a
rule. Tokens are of any type and ranks may repeat. `best_iff` says what is chosen,
`greedy_eq` is the unrolling every simulation below uses, and `greedy_map`,
`greedy_below_iff` compare two runs: along a renaming of the tokens, and with the rules
from some rank on taken away. `Reaches.range`: a run that ever has a token over a range of
what it began with ends with it on the range alone.
-/

namespace Support

variable {α β : Type _}

/-- The rank, the position and the replacement of the pair to rewrite next. -/
def best (rule : α → α → Option (Nat × α)) : List α → Option (Nat × Nat × α)
  | a :: b :: t =>
    match rule a b, best rule (b :: t) with
    | none, none => none
    | none, some (r, i, c) => some (r, i + 1, c)
    | some (r, c), none => some (r, 0, c)
    | some (r, c), some (r', i, c') => if r ≤ r' then some (r, 0, c) else some (r', i + 1, c')
  | _ => none

/-- Replace the tokens at `i` and `i + 1` by `c`. -/
def mergeAt (xs : List α) (i : Nat) (c : α) : List α :=
  xs.take i ++ c :: xs.drop (i + 2)

/-- At most `n` rewrites. -/
def greedyN (rule : α → α → Option (Nat × α)) : Nat → List α → List α
  | 0, xs => xs
  | n + 1, xs =>
    match best rule xs with
    | none => xs
    | some (_, i, c) => greedyN rule n (mergeAt xs i c)

/-- Rewrite until no adjacent pair has a rule; every rewrite shortens the list. -/
def greedy (rule : α → α → Option (Nat × α)) (xs : List α) : List α :=
  greedyN rule xs.length xs

/-- The ranks of at most `n` rewrites, in order. -/
def ranksN (rule : α → α → Option (Nat × α)) : Nat → List α → List Nat
  | 0, _ => []
  | n + 1, xs =>
    match best rule xs with
    | none => []
    | some (r, i, c) => r :: ranksN rule n (mergeAt xs i c)

/-- The ranks `greedy` rewrites at, in order. -/
def greedyRanks (rule : α → α → Option (Nat × α)) (xs : List α) : List Nat :=
  ranksN rule xs.length xs

/-- The rules of rank below `m`. -/
def below (m : Nat) (rule : α → α → Option (Nat × α)) (a b : α) : Option (Nat × α) :=
  (rule a b).filter fun p => p.1 < m

/-- The tokens at `i` and `i + 1` have a rule of rank `r` that makes them `c`. -/
def Pair (rule : α → α → Option (Nat × α)) (xs : List α) (i r : Nat) (c : α) : Prop :=
  ∃ a b, xs[i]? = some a ∧ xs[i + 1]? = some b ∧ rule a b = some (r, c)

attribute [grind =] best mergeAt greedyN ranksN

section Best

variable {rule : α → α → Option (Nat × α)}

theorem pair_cons_zero {a b : α} {t : List α} {r : Nat} {c : α} :
    Pair rule (a :: b :: t) 0 r c ↔ rule a b = some (r, c) := by
  simp [Pair]

theorem pair_cons_succ {a : α} {t : List α} {i r : Nat} {c : α} :
    Pair rule (a :: t) (i + 1) r c ↔ Pair rule t i r c := by
  simp [Pair]

theorem not_pair_nil {i r : Nat} {c : α} : ¬ Pair rule [] i r c := by
  simp [Pair]

theorem not_pair_singleton {x : α} {i r : Nat} {c : α} : ¬ Pair rule [x] i r c := by
  simp [Pair]

theorem Pair.lt {xs : List α} {i r : Nat} {c : α} (h : Pair rule xs i r c) : i + 1 < xs.length := by
  obtain ⟨a, b, -, hb, -⟩ := h
  exact (List.getElem?_eq_some_iff.1 hb).1

theorem Pair.unique {xs : List α} {i r r' : Nat} {c c' : α} (h : Pair rule xs i r c)
    (h' : Pair rule xs i r' c') : r = r' ∧ c = c' := by
  obtain ⟨a, b, ha, hb, hr⟩ := h
  obtain ⟨a', b', ha', hb', hr'⟩ := h'
  rw [ha] at ha'
  rw [hb] at hb'
  cases ha'
  cases hb'
  simpa [hr] using hr'

/-- What `best` finds: no adjacent pair has a rule, or the least one in rank, then in
position. -/
theorem best_cases (rule : α → α → Option (Nat × α)) (xs : List α) :
    (best rule xs = none ∧ ∀ j r c, ¬ Pair rule xs j r c) ∨
    ∃ r i c, best rule xs = some (r, i, c) ∧ Pair rule xs i r c ∧
      ∀ j r' c', Pair rule xs j r' c' → r < r' ∨ (r = r' ∧ i ≤ j) := by
  induction xs with
  | nil => exact .inl ⟨rfl, fun _ _ _ => not_pair_nil⟩
  | cons a t ih =>
    cases t with
    | nil => exact .inl ⟨rfl, fun _ _ _ => not_pair_singleton⟩
    | cons b t =>
      rcases hab : rule a b with _ | ⟨r₀, c₀⟩
      · rcases ih with ⟨hb, hno⟩ | ⟨r, i, c, hb, hp, hmin⟩
        · refine .inl ⟨by simp [best, hab, hb], fun j r c => ?_⟩
          cases j with
          | zero => simp [pair_cons_zero, hab]
          | succ j => rw [pair_cons_succ]; exact hno j r c
        · refine .inr ⟨r, i + 1, c, by simp [best, hab, hb], pair_cons_succ.2 hp, fun j r' c' hj => ?_⟩
          cases j with
          | zero => simp [pair_cons_zero, hab] at hj
          | succ j => have := hmin j r' c' (pair_cons_succ.1 hj); omega
      · rcases ih with ⟨hb, hno⟩ | ⟨r, i, c, hb, hp, hmin⟩
        · refine .inr ⟨r₀, 0, c₀, by simp [best, hab, hb], pair_cons_zero.2 hab, fun j r' c' hj => ?_⟩
          cases j with
          | zero => simp [pair_cons_zero, hab] at hj; omega
          | succ j => exact absurd (pair_cons_succ.1 hj) (hno j r' c')
        · by_cases hle : r₀ ≤ r
          · refine .inr ⟨r₀, 0, c₀, by simp [best, hab, hb, hle], pair_cons_zero.2 hab,
              fun j r' c' hj => ?_⟩
            cases j with
            | zero => simp [pair_cons_zero, hab] at hj; omega
            | succ j => have := hmin j r' c' (pair_cons_succ.1 hj); omega
          · refine .inr ⟨r, i + 1, c, by simp [best, hab, hb, hle], pair_cons_succ.2 hp,
              fun j r' c' hj => ?_⟩
            cases j with
            | zero => simp [pair_cons_zero, hab] at hj; omega
            | succ j => have := hmin j r' c' (pair_cons_succ.1 hj); omega

theorem best_none_iff {xs : List α} : best rule xs = none ↔ ∀ j r c, ¬ Pair rule xs j r c := by
  rcases best_cases rule xs with ⟨h, hno⟩ | ⟨r, i, c, h, hp, -⟩
  · simp [h, hno]
  · simp only [h, reduceCtorEq, false_iff, not_forall, not_not]
    exact ⟨i, r, c, hp⟩

theorem best_iff {xs : List α} {r i : Nat} {c : α} :
    best rule xs = some (r, i, c) ↔
      Pair rule xs i r c ∧ ∀ j r' c', Pair rule xs j r' c' → r < r' ∨ (r = r' ∧ i ≤ j) := by
  rcases best_cases rule xs with ⟨h, hno⟩ | ⟨r₀, i₀, c₀, h, hp, hmin⟩
  · simp only [h, reduceCtorEq, false_iff, not_and]
    exact fun hp => absurd hp (hno i r c)
  · rw [h]
    constructor
    · rintro ⟨⟩
      exact ⟨hp, hmin⟩
    · rintro ⟨hp', hmin'⟩
      have h₁ := hmin i r c hp'
      have h₂ := hmin' i₀ r₀ c₀ hp
      obtain rfl : i₀ = i := by omega
      obtain ⟨rfl, rfl⟩ := hp.unique hp'
      rfl

theorem best_pair {xs : List α} {r i : Nat} {c : α} (h : best rule xs = some (r, i, c)) :
    Pair rule xs i r c :=
  (best_iff.1 h).1

theorem length_mergeAt {xs : List α} {i : Nat} {c : α} (h : i + 1 < xs.length) :
    (mergeAt xs i c).length + 1 = xs.length := by
  simp [mergeAt]
  omega

end Best

section Greedy

variable (rule : α → α → Option (Nat × α))

theorem greedyN_eq {n m : Nat} : ∀ {xs : List α}, xs.length ≤ n → xs.length ≤ m →
    greedyN rule n xs = greedyN rule m xs := by
  induction n generalizing m with
  | zero =>
    intro xs hn _
    obtain rfl : xs = [] := List.eq_nil_of_length_eq_zero (by omega)
    cases m <;> simp [greedyN, best]
  | succ n ih =>
    intro xs hn hm
    cases m with
    | zero =>
      obtain rfl : xs = [] := List.eq_nil_of_length_eq_zero (by omega)
      simp [greedyN, best]
    | succ m =>
      simp only [greedyN]
      split
      · rfl
      · rename_i i c hb
        have := length_mergeAt (c := c) (best_pair hb).lt
        exact ih (by omega) (by omega)

/-- One rewrite, then the rest. -/
theorem greedy_eq (xs : List α) :
    greedy rule xs = match best rule xs with
      | none => xs
      | some (_, i, c) => greedy rule (mergeAt xs i c) := by
  rcases hb : best rule xs with _ | ⟨r, i, c⟩
  · cases xs with
    | nil => rfl
    | cons x t => simp [greedy, greedyN, hb]
  · have hlen := length_mergeAt (c := c) (best_pair hb).lt
    have h : greedy rule xs = greedyN rule (xs.length - 1) (mergeAt xs i c) := by
      obtain ⟨n, hn⟩ : ∃ n, xs.length = n + 1 := ⟨xs.length - 1, by omega⟩
      simp [greedy, hn, greedyN, hb]
    rw [h]
    exact greedyN_eq rule (by omega) (Nat.le_refl _)

theorem greedy_of_none {xs : List α} (h : best rule xs = none) : greedy rule xs = xs := by
  rw [greedy_eq, h]

theorem greedy_of_some {xs : List α} {r i : Nat} {c : α} (h : best rule xs = some (r, i, c)) :
    greedy rule xs = greedy rule (mergeAt xs i c) := by
  rw [greedy_eq, h]

/-- Induction along the rewrites of a run. -/
theorem greedy_induction {P : List α → Prop}
    (stop : ∀ xs, best rule xs = none → P xs)
    (step : ∀ xs r i c, best rule xs = some (r, i, c) → P (mergeAt xs i c) → P xs)
    (xs : List α) : P xs := by
  induction hn : xs.length using Nat.strongRecOn generalizing xs with
  | ind n ih =>
    rcases hb : best rule xs with _ | ⟨r, i, c⟩
    · exact stop xs hb
    · have hlen := length_mergeAt (c := c) (best_pair hb).lt
      exact step xs r i c hb (ih _ (by omega) _ rfl)

/-- What every rewrite keeps, the result has. -/
theorem greedy_preserves {P : List α → Prop}
    (keep : ∀ xs r i c, best rule xs = some (r, i, c) → P xs → P (mergeAt xs i c))
    (xs : List α) (h : P xs) : P (greedy rule xs) := by
  induction xs using greedy_induction rule with
  | stop xs hb => rwa [greedy_of_none rule hb]
  | step xs r i c hb ih =>
    rw [greedy_of_some rule hb]
    exact ih (keep xs r i c hb h)

theorem length_greedy_le (xs : List α) : (greedy rule xs).length ≤ xs.length := by
  induction xs using greedy_induction rule with
  | stop xs h => simp [greedy_of_none rule h]
  | step xs r i c h ih =>
    have := length_mergeAt (c := c) (best_pair h).lt
    rw [greedy_of_some rule h]
    omega

/-- Tokens of a set closed under the rules stay in the set. -/
theorem greedy_forall {S : α → Prop} (closed : ∀ a b r c, S a → S b → rule a b = some (r, c) → S c)
    {xs : List α} (h : ∀ x ∈ xs, S x) : ∀ x ∈ greedy rule xs, S x := by
  refine greedy_preserves rule (P := fun xs => ∀ x ∈ xs, S x) ?_ xs h
  intro xs r i c hb hxs x hx
  obtain ⟨a, b, ha, hb', hr⟩ := best_pair hb
  simp only [mergeAt, List.mem_append, List.mem_cons] at hx
  rcases hx with hx | rfl | hx
  · exact hxs x (List.mem_of_mem_take hx)
  · exact closed a b r x (hxs a (List.mem_of_getElem? ha)) (hxs b (List.mem_of_getElem? hb')) hr
  · exact hxs x (List.mem_of_mem_drop hx)

/-- A state of a run: the tokens behind some of its rewrites. -/
inductive Reaches : List α → List α → Prop
  | refl (xs : List α) : Reaches xs xs
  | step {xs ys : List α} {r i : Nat} {c : α} (hb : best rule xs = some (r, i, c)) (more : Reaches (mergeAt xs i c) ys) :
    Reaches xs ys

variable {rule}

theorem Reaches.snoc {xs ys : List α} {r i : Nat} {c : α} (h : Reaches rule xs ys) (hb : best rule ys = some (r, i, c)) :
    Reaches rule xs (mergeAt ys i c) := by
  induction h with
  | refl xs => exact .step hb (.refl _)
  | step hstep _ ih => exact .step hstep (ih hb)

theorem Reaches.length_le {xs ys : List α} (h : Reaches rule xs ys) : ys.length ≤ xs.length := by
  induction h with
  | refl xs => exact Nat.le_refl _
  | @step xs ys r i c hb _ ih =>
    have := length_mergeAt (c := c) (best_pair hb).lt
    omega

theorem reaches_greedy (xs : List α) : Reaches rule xs (greedy rule xs) := by
  induction xs using greedy_induction rule with
  | stop xs hb =>
    rw [greedy_of_none rule hb]
    exact .refl xs
  | step xs r i c hb ih =>
    rw [greedy_of_some rule hb]
    exact .step hb ih

end Greedy

section Ends

variable {rule : α → α → Option (Nat × α)}

/-- A run goes on from each of its states to the same end. -/
theorem Reaches.greedy_eq {xs ys : List α} (h : Reaches rule xs ys) : greedy rule xs = greedy rule ys := by
  induction h with
  | refl xs => rfl
  | step hb _ ih => rw [greedy_of_some rule hb, ih]

end Ends

section Ranks

variable (rule : α → α → Option (Nat × α))

theorem ranksN_eq {n m : Nat} : ∀ {xs : List α}, xs.length ≤ n → xs.length ≤ m →
    ranksN rule n xs = ranksN rule m xs := by
  induction n generalizing m with
  | zero =>
    intro xs hn _
    obtain rfl : xs = [] := List.eq_nil_of_length_eq_zero (by omega)
    cases m <;> simp [ranksN, best]
  | succ n ih =>
    intro xs hn hm
    cases m with
    | zero =>
      obtain rfl : xs = [] := List.eq_nil_of_length_eq_zero (by omega)
      simp [ranksN, best]
    | succ m =>
      simp only [ranksN]
      split
      · rfl
      · rename_i r i c hb
        have := length_mergeAt (c := c) (best_pair hb).lt
        rw [ih (m := m) (by omega) (by omega)]

theorem greedyRanks_of_none {xs : List α} (h : best rule xs = none) : greedyRanks rule xs = [] := by
  cases xs with
  | nil => rfl
  | cons x t => simp [greedyRanks, ranksN, h]

theorem greedyRanks_of_some {xs : List α} {r i : Nat} {c : α} (h : best rule xs = some (r, i, c)) :
    greedyRanks rule xs = r :: greedyRanks rule (mergeAt xs i c) := by
  have hlen := length_mergeAt (c := c) (best_pair h).lt
  obtain ⟨n, hn⟩ : ∃ n, xs.length = n + 1 := ⟨xs.length - 1, by omega⟩
  simp only [greedyRanks, hn, ranksN, h]
  rw [ranksN_eq rule (by omega) (Nat.le_refl _)]

end Ranks

section Compare

/-- Two rules that agree along a renaming of the tokens make the same rewrites. -/
theorem greedy_map {rule : α → α → Option (Nat × α)} {rule' : β → β → Option (Nat × β)}
    {f : α → β} {S : α → Prop} (closed : ∀ a b r c, S a → S b → rule a b = some (r, c) → S c)
    (agree : ∀ a b, S a → S b → rule' (f a) (f b) = (rule a b).map fun p => (p.1, f p.2))
    {xs : List α} (h : ∀ x ∈ xs, S x) : greedy rule' (xs.map f) = (greedy rule xs).map f := by
  have best_map : ∀ xs : List α, (∀ x ∈ xs, S x) →
      best rule' (xs.map f) = (best rule xs).map fun p => (p.1, p.2.1, f p.2.2) := by
    intro xs
    induction xs with
    | nil => intro _; rfl
    | cons a t ih =>
      intro hS
      cases t with
      | nil => rfl
      | cons b t =>
        have hab := agree a b (hS a (by simp)) (hS b (by simp))
        have iht := ih fun x hx => hS x (List.mem_cons_of_mem _ hx)
        simp only [List.map_cons] at iht ⊢
        simp only [best, hab, iht]
        rcases rule a b with _ | ⟨r, c⟩ <;> rcases best rule (b :: t) with _ | ⟨r', i, c'⟩ <;>
          simp
        split <;> simp
  induction xs using greedy_induction rule with
  | stop xs hb => rw [greedy_of_none rule hb, greedy_of_none rule' (by simp [best_map xs h, hb])]
  | step xs r i c hb ih =>
    obtain ⟨a, b, ha, hb', hr⟩ := best_pair hb
    have hS : ∀ x ∈ mergeAt xs i c, S x := by
      intro x hx
      simp only [mergeAt, List.mem_append, List.mem_cons] at hx
      rcases hx with hx | rfl | hx
      · exact h x (List.mem_of_mem_take hx)
      · exact closed a b r x (h a (List.mem_of_getElem? ha)) (h b (List.mem_of_getElem? hb')) hr
      · exact h x (List.mem_of_mem_drop hx)
    have hmap : best rule' (xs.map f) = some (r, i, f c) := by simp [best_map xs h, hb]
    rw [greedy_of_some rule hb, greedy_of_some rule' hmap, ← ih hS]
    simp [mergeAt, List.map_take, List.map_drop]

theorem pair_below {m : Nat} {rule : α → α → Option (Nat × α)} {xs : List α} {i r : Nat} {c : α} :
    Pair (below m rule) xs i r c ↔ Pair rule xs i r c ∧ r < m := by
  constructor
  · rintro ⟨a, b, ha, hb, hr⟩
    simp only [below, Option.filter_eq_some_iff, decide_eq_true_eq] at hr
    exact ⟨⟨a, b, ha, hb, hr.1⟩, hr.2⟩
  · rintro ⟨⟨a, b, ha, hb, hr⟩, hlt⟩
    exact ⟨a, b, ha, hb, by simp [below, hr, hlt]⟩

/-- Taking away the rules from rank `m` on changes the result exactly when some rewrite
of the full run is at such a rank. -/
theorem greedy_below_iff (m : Nat) (rule : α → α → Option (Nat × α)) (xs : List α) :
    greedy (below m rule) xs = greedy rule xs ↔ ∀ r ∈ greedyRanks rule xs, r < m := by
  induction xs using greedy_induction rule with
  | stop xs hb =>
    have hb' : best (below m rule) xs = none := best_none_iff.2 fun j r c hp =>
      best_none_iff.1 hb j r c (pair_below.1 hp).1
    simp [greedy_of_none _ hb, greedy_of_none _ hb', greedyRanks_of_none _ hb]
  | step xs r i c hb ih =>
    rw [greedyRanks_of_some rule hb, greedy_of_some rule hb, List.forall_mem_cons]
    by_cases hr : r < m
    · have hb' : best (below m rule) xs = some (r, i, c) := best_iff.2
        ⟨pair_below.2 ⟨best_pair hb, hr⟩, fun j r' c' hp =>
          (best_iff.1 hb).2 j r' c' (pair_below.1 hp).1⟩
      simp [greedy_of_some _ hb', ih, hr]
    · have hb' : best (below m rule) xs = none := best_none_iff.2 fun j r' c' hp => by
        have := (best_iff.1 hb).2 j r' c' (pair_below.1 hp).1
        have := (pair_below.1 hp).2
        omega
      rw [greedy_of_none _ hb']
      refine iff_of_false (fun h => ?_) (fun h => hr h.1)
      -- the full run makes at least this rewrite, so its result is shorter
      have h₁ := length_mergeAt (c := c) (best_pair hb).lt
      have h₂ := length_greedy_le rule (mergeAt xs i c)
      rw [← h] at h₂
      omega

end Compare

section Spans

variable {γ : Type _} {rule : α → α → Option (Nat × α)} {S : α → Prop} {f : α → List γ}

/-- The tokens around the pair that is rewritten. -/
theorem Pair.split {xs : List α} {i r : Nat} {c : α} (h : Pair rule xs i r c) :
    ∃ P a b Q, xs = P ++ a :: b :: Q ∧ P.length = i ∧ rule a b = some (r, c) ∧ mergeAt xs i c = P ++ c :: Q := by
  obtain ⟨a, b, ha, hb, hr⟩ := h
  obtain ⟨hi, rfl⟩ := List.getElem?_eq_some_iff.1 ha
  obtain ⟨hi', rfl⟩ := List.getElem?_eq_some_iff.1 hb
  refine ⟨xs.take i, xs[i], xs[i + 1], xs.drop (i + 2), ?_, List.length_take_of_le (Nat.le_of_lt hi), hr, rfl⟩
  rw [← List.drop_eq_getElem_cons hi', ← List.drop_eq_getElem_cons hi, List.take_append_drop]

theorem mergeAt_append {P Q : List α} {a b c : α} : mergeAt (P ++ a :: b :: Q) P.length c = P ++ c :: Q := by
  unfold mergeAt
  rw [List.take_left, ← List.drop_drop, List.drop_left]
  rfl

/-- Tokens that are joined to the token of both spans: the spans stay one behind the other. -/
theorem flatMap_mergeAt (joins : ∀ a b r c, S a → S b → rule a b = some (r, c) → f a ++ f b = f c) {xs : List α}
    (h : ∀ x ∈ xs, S x) {i r : Nat} {c : α} (hp : Pair rule xs i r c) : (mergeAt xs i c).flatMap f = xs.flatMap f := by
  obtain ⟨P, a, b, Q, rfl, rfl, hr, hmerge⟩ := hp.split
  have hab := joins a b r c (h a (by simp)) (h b (by simp)) hr
  rw [hmerge, List.flatMap_append, List.flatMap_append, List.flatMap_cons, List.flatMap_cons, List.flatMap_cons, ← hab,
    List.append_assoc]

theorem forall_mergeAt (closed : ∀ a b r c, S a → S b → rule a b = some (r, c) → S c) {xs : List α}
    (h : ∀ x ∈ xs, S x) {i r : Nat} {c : α} (hp : Pair rule xs i r c) : ∀ x ∈ mergeAt xs i c, S x := by
  obtain ⟨P, a, b, Q, rfl, rfl, hr, hmerge⟩ := hp.split
  have hc := closed a b r c (h a (by simp)) (h b (by simp)) hr
  rw [hmerge, List.forall_mem_append, List.forall_mem_cons]
  exact ⟨fun x hx => h x (by simp [hx]), hc, fun x hx => h x (by simp [hx])⟩

/-- **Rewriting keeps the text.** -/
theorem greedy_flatMap (closed : ∀ a b r c, S a → S b → rule a b = some (r, c) → S c)
    (joins : ∀ a b r c, S a → S b → rule a b = some (r, c) → f a ++ f b = f c) {xs : List α} (h : ∀ x ∈ xs, S x) :
    (greedy rule xs).flatMap f = xs.flatMap f := by
  induction xs using greedy_induction rule with
  | stop xs hb => rw [greedy_of_none rule hb]
  | step xs r i c hb ih =>
    have hp := best_pair hb
    rw [greedy_of_some rule hb, ih (forall_mergeAt closed h hp), flatMap_mergeAt joins h hp]

/-- Lists of tokens with nonempty spans are cut at one place in the text in one way. -/
theorem append_cut (nonempty : ∀ a, S a → f a ≠ []) {L X L' X' : List α} (h : ∀ x ∈ L ++ X, S x)
    (heq : L ++ X = L' ++ X') (hlen : (L.flatMap f).length = (L'.flatMap f).length) : L = L' ∧ X = X' := by
  have none_left : ∀ {m : List α}, (∀ x ∈ m, S x) → (m.flatMap f).length = 0 → m = [] := by
    intro m hm hlen
    cases m with
    | nil => rfl
    | cons a m =>
      rw [List.flatMap_cons, List.length_append] at hlen
      exact absurd (List.eq_nil_of_length_eq_zero (Nat.eq_zero_of_add_eq_zero_right hlen)) (nonempty a (hm a (by simp)))
  have h' := h
  rw [heq] at h'
  rcases List.append_eq_append_iff.1 heq with ⟨m, rfl, rfl⟩ | ⟨m, rfl, rfl⟩
  · have hm : m = [] := by
      apply none_left (fun x hx => h x (by simp [hx]))
      rw [List.flatMap_append, List.length_append] at hlen
      omega
    subst hm
    exact ⟨(List.append_nil L).symm, rfl⟩
  · have hm : m = [] := by
      apply none_left (fun x hx => h' x (by simp [hx]))
      rw [List.flatMap_append, List.length_append] at hlen
      omega
    subst hm
    exact ⟨List.append_nil L', rfl⟩

theorem cons_cut {P Q X Y : List α} {c : α} (h : P ++ c :: Q = X ++ Y) :
    (∃ m, X = P ++ c :: m ∧ Q = m ++ Y) ∨ ∃ m, Y = m ++ c :: Q ∧ P = X ++ m := by
  rcases List.append_eq_append_iff.1 h with ⟨m, rfl, hm⟩ | ⟨m, rfl, rfl⟩
  · cases m with
    | nil => exact .inr ⟨[], hm.symm, by rw [List.append_nil, List.append_nil]⟩
    | cons d m =>
      obtain ⟨rfl, rfl⟩ := List.cons_eq_cons.1 hm
      exact .inl ⟨m, rfl, rfl⟩
  · exact .inr ⟨m, rfl, rfl⟩

theorem pair_append {P Q : List α} {a b c : α} {r : Nat} (hr : rule a b = some (r, c)) :
    Pair rule (P ++ a :: b :: Q) P.length r c := by
  refine ⟨a, b, ?_, ?_, hr⟩
  · rw [List.getElem?_append_right (Nat.le_refl _), Nat.sub_self]
    rfl
  · rw [List.getElem?_append_right (Nat.le_succ _), Nat.succ_sub (Nat.le_refl _), Nat.sub_self]
    rfl

/-- A part of the tokens behind a rewrite: the rewrite was before it, behind it, or in it. -/
theorem mergeAt_part {xs L M R : List α} {i r : Nat} {c : α} (hp : Pair rule xs i r c)
    (heq : mergeAt xs i c = L ++ (M ++ R)) :
    (∃ L' j, xs = L' ++ (M ++ R) ∧ Pair rule L' j r c ∧ L = mergeAt L' j c) ∨
      (∃ M' j, xs = L ++ (M' ++ R) ∧ i = L.length + j ∧ Pair rule M' j r c ∧ M = mergeAt M' j c) ∨
      ∃ R', xs = L ++ (M ++ R') := by
  obtain ⟨P, a, b, Q, rfl, rfl, hr, hmerge⟩ := hp.split
  rw [hmerge] at heq
  rcases cons_cut heq with ⟨m, rfl, rfl⟩ | ⟨m, hrest, rfl⟩
  · refine .inl ⟨P ++ a :: b :: m, P.length, by simp, pair_append hr, mergeAt_append.symm⟩
  · rcases cons_cut hrest.symm with ⟨m', rfl, rfl⟩ | ⟨m', rfl, rfl⟩
    · exact .inr (.inl ⟨m ++ a :: b :: m', m.length, by simp, List.length_append, pair_append hr, mergeAt_append.symm⟩)
    · exact .inr (.inr ⟨m' ++ a :: b :: Q, by simp⟩)

theorem Reaches.forall (closed : ∀ a b r c, S a → S b → rule a b = some (r, c) → S c) {xs ys : List α}
    (hg : Reaches rule xs ys) (h : ∀ x ∈ xs, S x) : ∀ y ∈ ys, S y := by
  induction hg with
  | refl xs => exact h
  | step hb _ ih => exact ih (forall_mergeAt closed h (best_pair hb))

/-- A token that no rule takes up stays. -/
theorem Reaches.stays {x : α} (hx : ∀ a b r c, rule a b = some (r, c) → x ≠ a ∧ x ≠ b) {xs ys : List α}
    (hg : Reaches rule xs ys) (h : x ∈ xs) : x ∈ ys := by
  induction hg with
  | refl xs => exact h
  | step hb _ ih =>
    obtain ⟨P, a, b, Q, rfl, rfl, hr, hmerge⟩ := (best_pair hb).split
    obtain ⟨hne, hne'⟩ := hx a b _ _ hr
    apply ih
    rw [hmerge]
    simp only [List.mem_append, List.mem_cons, hne, hne', false_or] at h ⊢
    exact h.imp_right .inr

/-- What a state stands for, the tokens stood for. -/
theorem Reaches.flatMap (closed : ∀ a b r c, S a → S b → rule a b = some (r, c) → S c)
    (joins : ∀ a b r c, S a → S b → rule a b = some (r, c) → f a ++ f b = f c) {xs ys : List α}
    (hg : Reaches rule xs ys) (h : ∀ x ∈ xs, S x) : ys.flatMap f = xs.flatMap f := by
  induction hg with
  | refl xs => rfl
  | step hb _ ih =>
    have hp := best_pair hb
    rw [ih (forall_mergeAt closed h hp), flatMap_mergeAt joins h hp]

/-- Where a state is cut, the tokens were cut before. -/
theorem Reaches.cut (closed : ∀ a b r c, S a → S b → rule a b = some (r, c) → S c)
    (joins : ∀ a b r c, S a → S b → rule a b = some (r, c) → f a ++ f b = f c) {xs ys : List α}
    (hg : Reaches rule xs ys) (h : ∀ x ∈ xs, S x) {U W V : List α} (hys : ys = U ++ (W ++ V)) :
    ∃ L M R, xs = L ++ (M ++ R) ∧ L.flatMap f = U.flatMap f ∧ M.flatMap f = W.flatMap f := by
  induction hg with
  | refl xs => exact ⟨U, W, V, hys, rfl, rfl⟩
  | step hb _ ih =>
    have hp := best_pair hb
    obtain ⟨L, M, R, heq, hL, hM⟩ := ih (forall_mergeAt closed h hp) hys
    obtain ⟨L', j, rfl, hp', rfl⟩ | ⟨M', j, rfl, -, hp', rfl⟩ | ⟨R', hR'⟩ := mergeAt_part hp heq
    · exact ⟨L', M, R, rfl, by rw [← hL, flatMap_mergeAt joins (fun x hx => h x (by simp [hx])) hp'], hM⟩
    · exact ⟨L, M', R, rfl, hL, by rw [← hM, flatMap_mergeAt joins (fun x hx => h x (by simp [hx])) hp']⟩
    · exact ⟨L, M, R', hR', hL, hM⟩

/-- The pair that is rewritten in the middle is the one the middle alone would rewrite. -/
theorem best_middle {L M R : List α} {r j : Nat} {c : α} (hb : best rule (L ++ (M ++ R)) = some (r, L.length + j, c))
    (hp : Pair rule M j r c) : best rule M = some (r, j, c) := by
  refine best_iff.2 ⟨hp, fun k r' c' hk => ?_⟩
  obtain ⟨P, a, b, Q, rfl, rfl, hr, -⟩ := hk.split
  have hpair := pair_append (P := L ++ P) (Q := Q ++ R) hr
  have hin : (L ++ P) ++ a :: b :: (Q ++ R) = L ++ ((P ++ a :: b :: Q) ++ R) := by simp
  rw [hin, List.length_append] at hpair
  have := (best_iff.1 hb).2 _ _ _ hpair
  omega

theorem append_cut_part (nonempty : ∀ a, S a → f a ≠ []) {L M R L' M' R' : List α} (h : ∀ x ∈ L ++ (M ++ R), S x)
    (heq : L ++ (M ++ R) = L' ++ (M' ++ R')) (hL : L'.flatMap f = L.flatMap f) (hM : M'.flatMap f = M.flatMap f) :
    L = L' ∧ M = M' := by
  obtain ⟨hLL, hrest⟩ := append_cut nonempty h heq (congrArg _ hL.symm)
  have hin : ∀ x ∈ M ++ R, S x := fun x hx => h x (List.mem_append_right _ hx)
  exact ⟨hLL, (append_cut nonempty hin hrest (congrArg _ hM.symm)).1⟩

/-- **A token that covers a range comes of the range alone.** If a run ever has a token over some of the
tokens it began with, the run on those alone ends with that token and no other. -/
theorem Reaches.range (closed : ∀ a b r c, S a → S b → rule a b = some (r, c) → S c)
    (joins : ∀ a b r c, S a → S b → rule a b = some (r, c) → f a ++ f b = f c) (nonempty : ∀ a, S a → f a ≠ [])
    {xs ys : List α} (hg : Reaches rule xs ys) (h : ∀ x ∈ xs, S x) {L M R U V : List α} {t : α}
    (hxs : xs = L ++ (M ++ R)) (hys : ys = U ++ ([t] ++ V)) (hU : U.flatMap f = L.flatMap f)
    (ht : [t].flatMap f = M.flatMap f) : greedy rule M = [t] := by
  induction hg generalizing L M R with
  | refl xs =>
    subst hxs
    obtain ⟨-, rfl⟩ := append_cut_part nonempty h hys hU ht
    exact greedy_of_none rule rfl
  | step hb more ih =>
    subst hxs
    have hp := best_pair hb
    have hnext := forall_mergeAt closed h hp
    obtain ⟨L₁, M₁, R₁, heq, hL₁, hM₁⟩ := more.cut closed joins hnext hys
    have hmore : greedy rule M₁ = [t] := ih hnext heq hys hL₁.symm hM₁.symm
    rw [hU] at hL₁
    rw [ht] at hM₁
    -- the rewrite was before the range, in it, or behind it
    obtain ⟨L', j, hcut, hp', rfl⟩ | ⟨M', j, hcut, rfl, hp', rfl⟩ | ⟨R', hcut⟩ := mergeAt_part hp heq
    · have hin : ∀ x ∈ L', S x := fun x hx => h x (by rw [hcut]; simp [hx])
      rw [flatMap_mergeAt joins hin hp'] at hL₁
      obtain ⟨-, rfl⟩ := append_cut_part nonempty h hcut hL₁ hM₁
      exact hmore
    · have hin : ∀ x ∈ M', S x := fun x hx => h x (by rw [hcut]; simp [hx])
      rw [flatMap_mergeAt joins hin hp'] at hM₁
      obtain ⟨rfl, rfl⟩ := append_cut_part nonempty h hcut hL₁ hM₁
      rw [greedy_of_some rule (best_middle hb hp')]
      exact hmore
    · obtain ⟨-, rfl⟩ := append_cut_part nonempty h hcut hL₁ hM₁
      exact hmore

/-- The tokens that rewriting can make of some tokens, in whatever order it takes the pairs. -/
inductive Forms (rule : α → α → Option (Nat × α)) : List α → α → Prop
  | one (a : α) : Forms rule [a] a
  | merge {xs ys : List α} {a b c : α} {r : Nat} (left : Forms rule xs a) (right : Forms rule ys b)
    (hr : rule a b = some (r, c)) : Forms rule (xs ++ ys) c

/-- What tokens of a set make is of the set, if the rules do not leave it. -/
theorem Forms.closed (closed : ∀ a b r c, S a → S b → rule a b = some (r, c) → S c) {xs : List α} {c : α}
    (h : Forms rule xs c) (hxs : ∀ x ∈ xs, S x) : S c := by
  induction h with
  | one a => exact hxs a List.mem_cons_self
  | merge _ _ hr ihl ihr =>
    obtain ⟨hl, hr'⟩ := List.forall_mem_append.1 hxs
    exact closed _ _ _ _ (ihl hl) (ihr hr') hr

/-- Parts that the tokens were made of are joined where the tokens are. -/
theorem forall₂_mergeAt {xs : List α} {i r : Nat} {c : α} (hp : Pair rule xs i r c) {ps : List (List α)}
    (h : List.Forall₂ (Forms rule) ps xs) :
    ∃ qs : List (List α), qs.flatten = ps.flatten ∧ List.Forall₂ (Forms rule) qs (mergeAt xs i c) := by
  obtain ⟨P, a, b, Q, rfl, rfl, hr, hmerge⟩ := hp.split
  rw [hmerge]
  have hfront := List.forall₂_take_append ps P (a :: b :: Q) h
  have hback := List.forall₂_drop_append ps P (a :: b :: Q) h
  obtain ⟨s, rest, hs, hrest, hdrop⟩ := List.forall₂_cons_right_iff.1 hback
  obtain ⟨t, qs, ht, hqs, rfl⟩ := List.forall₂_cons_right_iff.1 hrest
  refine ⟨ps.take P.length ++ (s ++ t) :: qs, ?_, ?_⟩
  · conv_rhs => rw [← List.take_append_drop P.length ps, hdrop]
    simp
  · exact List.rel_append hfront (.cons (.merge hs ht hr) hqs)

/-- **What a state is made of.** Each token of a state of a run is made of a part of what the run began with. -/
theorem Reaches.forms {xs ys : List α} (hg : Reaches rule xs ys) {y : α} (hy : y ∈ ys) :
    ∃ part, part <:+: xs ∧ Forms rule part y := by
  have hparts : ∀ ps : List (List α), List.Forall₂ (Forms rule) ps xs →
      ∃ qs : List (List α), qs.flatten = ps.flatten ∧ List.Forall₂ (Forms rule) qs ys := by
    induction hg with
    | refl xs => exact fun ps hps => ⟨ps, rfl, hps⟩
    | step hb _ ih =>
      intro ps hps
      obtain ⟨qs, hqs, hmerged⟩ := forall₂_mergeAt (best_pair hb) hps
      obtain ⟨zs, hzs, hreached⟩ := ih hy qs hmerged
      exact ⟨zs, hzs.trans hqs, hreached⟩
  obtain ⟨qs, hqs, hforms⟩ := hparts (xs.map fun x => [x])
    (List.forall₂_map_left_iff.2 (List.forall₂_same.2 fun x _ => .one x))
  obtain ⟨U, V, rfl⟩ := List.append_of_mem hy
  obtain ⟨part, rest, hmade, -, hdrop⟩ := List.forall₂_cons_right_iff.1 (List.forall₂_drop_append qs U (y :: V) hforms)
  have hpart : part ∈ qs := List.mem_of_mem_drop (by rw [hdrop]; exact List.mem_cons_self)
  refine ⟨part, ?_, hmade⟩
  have hinfix := List.infix_of_mem_flatten hpart
  rw [hqs, ← List.flatMap_def, List.flatMap_singleton'] at hinfix
  exact hinfix

end Spans

end Support
