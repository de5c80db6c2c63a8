import Mathlib.Tactic.Common

/-!
# Backtracking regular expressions

Regular expressions over any symbols with greedy repetition and a one-symbol negative
lookahead, matched as a backtracking engine matches them: `ends` lists the lengths of the
matches at the start of a text in the order the engine tries them, `first` is the one it
reports, and `spans` are the successive matches that a search reports.
-/

namespace Support

inductive Regex (α : Type) where
  | one (p : α → Bool)
  | seq (r s : Regex α)
  | alt (r s : Regex α)
  | opt (r : Regex α)
  | star (r : Regex α)
  | notAhead (p : α → Bool)

namespace Regex

variable {α : Type}

/-- At least once. -/
def plus (r : Regex α) : Regex α := seq r (star r)

/-- Repetitions, longest first; a repetition takes at least one symbol. -/
def repeatEnds (m : List α → List Nat) : Nat → List α → List Nat
  | 0, _ => [0]
  | fuel + 1, t =>
    ((m t).filter (0 < ·)).flatMap (fun n => (repeatEnds m fuel (t.drop n)).map (n + ·)) ++ [0]

/-- The lengths of the matches at the start of the text, in the engine's order. -/
def ends : Regex α → List α → List Nat
  | one p, t =>
    match t with
    | [] => []
    | c :: _ => if p c then [1] else []
  | seq r s, t => (r.ends t).flatMap fun n => (s.ends (t.drop n)).map (n + ·)
  | alt r s, t => r.ends t ++ s.ends t
  | opt r, t => r.ends t ++ [0]
  | star r, t => repeatEnds r.ends t.length t
  | notAhead p, t =>
    match t with
    | [] => [0]
    | c :: _ => if p c then [] else [0]

/-- The match the engine reports. -/
def first (r : Regex α) (t : List α) : Option Nat := (r.ends t).head?

/-- The matches a search of at most `fuel` steps reports; where nothing matches, or only the
empty text does, it goes on with the next symbol. -/
def spansN (r : Regex α) : Nat → List α → List (List α)
  | 0, _ => []
  | fuel + 1, t =>
    match t with
    | [] => []
    | _ :: t' =>
      match r.first t with
      | some (n + 1) => t.take (n + 1) :: spansN r fuel (t.drop (n + 1))
      | _ => spansN r fuel t'

/-- The successive matches in a text. -/
def spans (r : Regex α) (t : List α) : List (List α) := spansN r t.length t

/-- The length of the longest prefix of symbols of a class. -/
def run (p : α → Bool) (t : List α) : Nat := (t.takeWhile p).length

attribute [grind =] ends first spansN run

section First

@[simp] theorem first_one_nil (p : α → Bool) : (one p).first [] = none := rfl

/-- A class matches one character of it. -/
theorem first_one_cons (p : α → Bool) (c : α) (t : List α) :
    (one p).first (c :: t) = if p c then some 1 else none := by
  unfold first ends
  by_cases h : p c <;> simp [h]

/-- A sequence tries the ends of its first part in their order, till the second part matches behind one. -/
theorem first_seq (r s : Regex α) (t : List α) :
    (seq r s).first t = (r.ends t).findSome? fun n => (s.first (t.drop n)).map (n + ·) := by
  unfold first
  simp [ends, List.head?_flatMap]

/-- The second alternative is tried where the first one does not match. -/
theorem first_alt (r s : Regex α) (t : List α) : (alt r s).first t = (r.first t).or (s.first t) := by
  unfold first
  simp [ends, List.head?_append]

theorem first_seq_one_cons {p : α → Bool} {c : α} (s : Regex α) (t : List α) :
    (seq (one p) s).first (c :: t) = if p c then (s.first t).map (1 + ·) else none := by
  rw [first_seq]
  by_cases h : p c <;> simp [ends, h]

/-- An optional character is taken where what follows matches behind it; else it is given back. -/
theorem first_seq_opt_one {p : α → Bool} {c : α} (s : Regex α) (t : List α) :
    (seq (opt (one p)) s).first (c :: t) =
      if p c then ((s.first t).map (1 + ·)).or (s.first (c :: t)) else s.first (c :: t) := by
  rw [first_seq]
  by_cases h : p c
  · cases hs : s.first t <;> simp [ends, h, hs]
  · simp [ends, h]

end First

section Runs

theorem ends_one_cons (p : α → Bool) (c : α) (t : List α) :
    (one p).ends (c :: t) = if p c then [1] else [] := rfl

theorem run_cons (p : α → Bool) (c : α) (t : List α) :
    run p (c :: t) = if p c then run p t + 1 else 0 := by
  by_cases hc : p c <;> simp [run, hc]

theorem run_le (p : α → Bool) (t : List α) : run p t ≤ t.length :=
  (List.takeWhile_sublist p).length_le

/-- The lengths from `k` down to 0. -/
def downTo (k : Nat) : List Nat := (List.range (k + 1)).reverse

attribute [grind =] downTo

theorem downTo_succ (k : Nat) : downTo (k + 1) = (k + 1) :: downTo k := by
  simp [downTo, List.range_succ]

theorem downTo_succ_eq_map (k : Nat) : downTo (k + 1) = (downTo k).map (1 + ·) ++ [0] := by
  unfold downTo
  rw [List.range_succ_eq_map, List.reverse_cons, List.map_reverse]
  simp only [Nat.add_comm 1]

/-- The ends of a repeated class, the furthest first. -/
theorem repeatEnds_one_cons (p : α → Bool) (fuel : Nat) (c : α) (t : List α) :
    repeatEnds (one p).ends (fuel + 1) (c :: t) =
      if p c then (repeatEnds (one p).ends fuel t).map (1 + ·) ++ [0] else [0] := by
  rw [repeatEnds, ends_one_cons]
  by_cases hc : p c <;> simp [hc]

/-- The repetitions of a class, longest first. -/
theorem ends_star_one (p : α → Bool) (t : List α) : (star (one p)).ends t = downTo (run p t) := by
  have key : ∀ fuel (t : List α), t.length ≤ fuel →
      repeatEnds (one p).ends fuel t = downTo (run p t) := by
    intro fuel
    induction fuel with
    | zero =>
      intro t ht
      obtain rfl : t = [] := List.eq_nil_of_length_eq_zero (by omega)
      rfl
    | succ fuel ih =>
      intro t ht
      cases t with
      | nil => rfl
      | cons c t =>
        rw [repeatEnds_one_cons, ih t (by simpa using ht), run_cons]
        split
        · exact (downTo_succ_eq_map _).symm
        · rfl
  exact key t.length t (Nat.le_refl _)

/-- The first of the lengths from `n` down at which a match goes on. -/
theorem findSome?_downTo {f : Nat → Option Nat} {n k x : Nat} (hk : k ≤ n) (hx : f k = some x)
    (hno : ∀ j, k < j → j ≤ n → f j = none) : (downTo n).findSome? f = some x := by
  induction n with
  | zero =>
    obtain rfl : k = 0 := by omega
    simp [downTo, hx]
  | succ n ih =>
    rw [downTo_succ, List.findSome?_cons]
    rcases Nat.lt_or_eq_of_le hk with hlt | rfl
    · rw [hno (n + 1) hlt (Nat.le_refl _)]
      exact ih (by omega) fun j hj hj' => hno j hj (by omega)
    · rw [hx]

/-- Where nothing is found at any place, nothing is found. -/
theorem findSome?_downTo_none {f : Nat → Option Nat} {n : Nat} (hno : ∀ j ≤ n, f j = none) :
    (downTo n).findSome? f = none := by
  rw [List.findSome?_eq_none_iff]
  intro j hj
  exact hno j (by simpa [downTo, Nat.lt_succ_iff] using hj)

/-- A repeated class matches its whole run. -/
theorem first_star_one (p : α → Bool) (t : List α) : (star (one p)).first t = some (run p t) := by
  rw [first, ends_star_one]
  cases run p t with
  | zero => rfl
  | succ n => rw [downTo_succ]; rfl

/-- A class repeated at least once matches its run if that is not empty. -/
theorem first_plus_one (p : α → Bool) (t : List α) :
    (plus (one p)).first t = if run p t = 0 then none else some (run p t) := by
  unfold plus
  cases t with
  | nil => rfl
  | cons c t =>
    rw [first_seq_one_cons, first_star_one, run_cons]
    by_cases hc : p c
    · simp [hc, Nat.add_comm 1]
    · simp [hc]

/-- A greedy run of a class, and then something it can give symbols back to. -/
theorem first_seq_star_one (p : α → Bool) (s : Regex α) (t : List α) :
    (seq (star (one p)) s).first t =
      (downTo (run p t)).findSome? fun n => (s.first (t.drop n)).map (n + ·) := by
  rw [first_seq, ends_star_one]

/-- Behind a repeated class the rest is tried from the end of the run backwards. -/
theorem first_seq_plus_one_cons {p : α → Bool} {c : α} (hc : p c = true) (s : Regex α) (t : List α) :
    (seq (plus (one p)) s).first (c :: t) =
      (downTo (run p t)).findSome? fun n => (s.first (t.drop n)).map (1 + n + ·) := by
  rw [first_seq, plus, ends, ends_one_cons, if_pos hc]
  simp only [List.flatMap_cons, List.flatMap_nil, List.append_nil, List.drop_succ_cons, List.drop_zero,
    ends_star_one, List.findSome?_map]
  simp only [Function.comp_def, Nat.add_comm 1, List.drop_succ_cons]

theorem first_seq_plus_one_of_not {p : α → Bool} {c : α} (hc : p c = false) (s : Regex α) (t : List α) :
    (seq (plus (one p)) s).first (c :: t) = none := by
  rw [first_seq, plus, ends, ends_one_cons]
  simp [hc]

end Runs

section Spans

/-- Any fuel that covers the text will do. -/
theorem spansN_eq (r : Regex α) {n m : Nat} {t : List α} (hn : t.length ≤ n) (hm : t.length ≤ m) :
    spansN r n t = spansN r m t := by
  induction n generalizing m t with
  | zero =>
    obtain rfl : t = [] := List.eq_nil_of_length_eq_zero (by omega)
    cases m <;> rfl
  | succ n ih =>
    cases t with
    | nil => cases m <;> rfl
    | cons c t =>
      obtain ⟨m, rfl⟩ : ∃ k, m = k + 1 := ⟨m - 1, by simp at hm; omega⟩
      simp only [List.length_cons] at hn hm
      simp only [spansN]
      split
      · next x k _ =>
        have hlen : ((c :: t).drop (k + 1)).length ≤ t.length := by simp
        rw [ih (Nat.le_trans hlen (by omega)) (Nat.le_trans hlen (show t.length ≤ m by omega))]
      · exact ih (by omega) (by omega)

@[simp] theorem spans_nil (r : Regex α) : r.spans [] = [] := rfl

/-- A match, and the matches behind it. -/
theorem spans_of_first {r : Regex α} {t : List α} {n : Nat} (hn : 0 < n) (ht : t ≠ [])
    (h : r.first t = some n) : r.spans t = t.take n :: r.spans (t.drop n) := by
  obtain ⟨c, t, rfl⟩ := List.exists_cons_of_ne_nil ht
  obtain ⟨n, rfl⟩ : ∃ k, n = k + 1 := ⟨n - 1, by omega⟩
  simp only [spans, List.length_cons, spansN, h]
  rw [spansN_eq r (m := ((c :: t).drop (n + 1)).length) (by simp) (Nat.le_refl _)]

/-- Where every text that is not empty begins with a match that is not, the matches cut the
text up. -/
theorem spans_flatten {r : Regex α} (h : ∀ t, t ≠ [] → ∃ n, 0 < n ∧ r.first t = some n) (t : List α) :
    (r.spans t).flatten = t ∧ ∀ x ∈ r.spans t, x ≠ [] := by
  induction hlen : t.length using Nat.strongRecOn generalizing t with
  | ind k ih =>
    rcases eq_or_ne t [] with rfl | hne
    · exact ⟨rfl, by simp⟩
    · obtain ⟨n, hn, hfirst⟩ := h t hne
      have hpos : 0 < t.length := List.length_pos_iff.2 hne
      obtain ⟨hcat, hspans⟩ := ih (t.drop n).length (by simp; omega) (t.drop n) rfl
      rw [spans_of_first hn hne hfirst]
      refine ⟨by rw [List.flatten_cons, hcat, List.take_append_drop], List.forall_mem_cons.2 ⟨?_, hspans⟩⟩
      rw [Ne, List.take_eq_nil_iff]
      rintro (h0 | hnil)
      · omega
      · exact hne hnil

end Spans

end Regex

end Support
