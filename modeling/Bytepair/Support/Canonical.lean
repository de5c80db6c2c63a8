import Mathlib.Data.List.Chain
import Mathlib.Tactic.Common

/-!
# Canonical ordering

A sequence of symbols with a weight each. A symbol of weight 0 stays where it is;
neighbours of different nonzero weights may change places. `reorder` is the insertion
sort that moves each symbol of nonzero weight left past the heavier ones. It finds the
one ordered sequence among those a sequence can be shuffled into: `reorder_shuffle`,
`reorder_ordered`, `reorder_eq_of_shuffle`.
-/

namespace Support.Canonical

variable {α : Type} (weight : α → Nat)

/-- `t` goes below the heavier symbols on top of the stack. -/
def sink (t : α) : List α → List α
  | x :: below => if weight t < weight x then x :: sink t below else t :: x :: below
  | [] => [t]

/-- Put the next symbol on the stack of ordered ones, last one first. -/
def place (stack : List α) (t : α) : List α :=
  if weight t = 0 then t :: stack else sink weight t stack

/-- Stable insertion sort within the runs of nonzero weight. -/
def reorder (xs : List α) : List α := (xs.foldl (place weight) []).reverse

attribute [grind =] sink place

/-- Sequences that differ by swaps of neighbours of different nonzero weights. -/
inductive Shuffle : List α → List α → Prop where
  | nil : Shuffle [] []
  | cons (x : α) {xs ys : List α} : Shuffle xs ys → Shuffle (x :: xs) (x :: ys)
  | swap {a b : α} (ha : weight a ≠ 0) (hb : weight b ≠ 0) (hne : weight a ≠ weight b)
      (xs : List α) : Shuffle (a :: b :: xs) (b :: a :: xs)
  | trans {xs ys zs : List α} : Shuffle xs ys → Shuffle ys zs → Shuffle xs zs

/-- No neighbours out of order: a symbol is a starter or no lighter than the one before. -/
def Ordered (xs : List α) : Prop :=
  xs.IsChain fun x y => weight y = 0 ∨ weight x ≤ weight y

variable {weight}

namespace Shuffle

@[refl] theorem refl : ∀ xs : List α, Shuffle weight xs xs
  | [] => .nil
  | x :: xs => .cons x (refl xs)

@[symm] theorem symm {xs ys : List α} (h : Shuffle weight xs ys) : Shuffle weight ys xs := by
  induction h with
  | nil => exact .nil
  | cons x _ ih => exact .cons x ih
  | swap ha hb hne xs => exact .swap hb ha hne.symm xs
  | trans _ _ ih₁ ih₂ => exact ih₂.trans ih₁

theorem append_left (pre : List α) {xs ys : List α} (h : Shuffle weight xs ys) :
    Shuffle weight (pre ++ xs) (pre ++ ys) := by
  induction pre with
  | nil => exact h
  | cons x pre ih => exact .cons x ih

theorem append_right {xs ys : List α} (h : Shuffle weight xs ys) (post : List α) :
    Shuffle weight (xs ++ post) (ys ++ post) := by
  induction h with
  | nil => exact refl post
  | cons x _ ih => exact .cons x ih
  | swap ha hb hne xs => exact .swap ha hb hne (xs ++ post)
  | trans _ _ ih₁ ih₂ => exact ih₁.trans ih₂

theorem append {xs ys us vs : List α} (h₁ : Shuffle weight xs ys) (h₂ : Shuffle weight us vs) :
    Shuffle weight (xs ++ us) (ys ++ vs) :=
  (h₁.append_right us).trans (h₂.append_left ys)

/-- A shuffle has the same elements. -/
theorem perm {xs ys : List α} (h : Shuffle weight xs ys) : xs.Perm ys := by
  induction h with
  | nil => exact .nil
  | cons x _ ih => exact ih.cons x
  | swap _ _ _ xs => exact .swap _ _ xs
  | trans _ _ ih₁ ih₂ => exact ih₁.trans ih₂

/-- A mark goes to the front of a run of marks of other weights. -/
theorem to_front {c : α} {ms : List α}
    (h : ∀ m ∈ ms, weight m ≠ 0 ∧ weight c ≠ 0 ∧ weight m ≠ weight c) (post : List α) :
    Shuffle weight (ms ++ c :: post) (c :: (ms ++ post)) := by
  induction ms with
  | nil => exact refl _
  | cons m ms ih =>
    obtain ⟨⟨hm, hc, hne⟩, hms⟩ := List.forall_mem_cons.1 h
    exact (Shuffle.cons m (ih hms)).trans (.swap hm hc hne (ms ++ post))

end Shuffle

section Reorder

/-- Two elements of different weights can be placed in either order. -/
theorem place_comm {a b : α} (ha : weight a ≠ 0) (hb : weight b ≠ 0) (hne : weight a ≠ weight b)
    (stack : List α) :
    place weight (place weight stack a) b = place weight (place weight stack b) a := by
  simp only [place, if_neg ha, if_neg hb]
  induction stack with
  | nil => grind [sink]
  | cons x below ih => grind [sink]

/-- **Uniqueness.** Shuffled sequences reorder to the same sequence. -/
theorem reorder_eq_of_shuffle {xs ys : List α} (h : Shuffle weight xs ys) :
    reorder weight xs = reorder weight ys := by
  have key : ∀ stack, xs.foldl (place weight) stack = ys.foldl (place weight) stack := by
    induction h with
    | nil => intro stack; rfl
    | cons x _ ih => intro stack; exact ih _
    | swap ha hb hne xs =>
      intro stack
      simp only [List.foldl_cons, place_comm ha hb hne]
    | trans _ _ ih₁ ih₂ => intro stack; exact (ih₁ stack).trans (ih₂ stack)
  exact congrArg List.reverse (key [])

/-- Sinking an element shuffles it to its place. -/
theorem sink_shuffle {t : α} (ht : weight t ≠ 0) (stack : List α) :
    Shuffle weight (sink weight t stack).reverse (stack.reverse ++ [t]) := by
  induction stack with
  | nil => exact .refl _
  | cons x below ih =>
    unfold sink
    split
    · next hlt =>
      have hswap : Shuffle weight [t, x] [x, t] := .swap ht (by omega) (by omega) []
      simpa using (ih.append_right [x]).trans (by simpa using hswap.append_left below.reverse)
    · simpa using (Shuffle.refl _ : Shuffle weight _ _)

theorem place_shuffle (stack : List α) (t : α) :
    Shuffle weight (place weight stack t).reverse (stack.reverse ++ [t]) := by
  unfold place
  split
  · simpa using (Shuffle.refl _ : Shuffle weight _ _)
  · next ht => exact sink_shuffle ht stack

/-- Placing one element after another shuffles them. -/
theorem foldl_place_shuffle (xs stack : List α) :
    Shuffle weight (xs.foldl (place weight) stack).reverse (stack.reverse ++ xs) := by
  induction xs generalizing stack with
  | nil => simpa using (Shuffle.refl _ : Shuffle weight _ _)
  | cons t xs ih =>
    apply (ih _).trans
    simpa using (place_shuffle stack t).append_right xs

/-- Reordering only shuffles. -/
theorem reorder_shuffle (xs : List α) : Shuffle weight (reorder weight xs) xs := by
  simpa [reorder] using (foldl_place_shuffle xs [] : Shuffle weight _ _)

/-- The stack, read from its top. -/
def OrderedStack (weight : α → Nat) (stack : List α) : Prop :=
  stack.IsChain fun y x => weight y = 0 ∨ weight x ≤ weight y

/-- Sinking keeps the stack ordered. -/
theorem sink_ordered {t : α} {stack : List α} (h : OrderedStack weight stack) :
    OrderedStack weight (sink weight t stack) := by
  induction stack with
  | nil => exact List.isChain_singleton t
  | cons x below ih =>
    unfold sink
    have hbelow : OrderedStack weight below := List.IsChain.tail h
    split
    · next hlt =>
      apply List.IsChain.cons (ih hbelow)
      intro y hy
      cases below with
      | nil =>
        simp only [sink, List.head?_cons, Option.mem_some_iff] at hy
        exact .inr (by rw [← hy]; omega)
      | cons z below =>
        have hz : weight x = 0 ∨ weight z ≤ weight x := by
          simpa using (List.isChain_cons_cons.1 h).1
        unfold sink at hy
        split at hy
        · simp only [List.head?_cons, Option.mem_some_iff] at hy
          rwa [← hy]
        · simp only [List.head?_cons, Option.mem_some_iff] at hy
          exact .inr (by rw [← hy]; omega)
    · next hle => exact List.isChain_cons_cons.2 ⟨.inr (by omega), h⟩

theorem place_ordered {stack : List α} (h : OrderedStack weight stack) (t : α) :
    OrderedStack weight (place weight stack t) := by
  unfold place
  split
  · next ht => exact List.IsChain.cons h fun _ _ => .inl ht
  · exact sink_ordered h

/-- So does placing one element after another. -/
theorem foldl_place_ordered {xs stack : List α} (h : OrderedStack weight stack) :
    OrderedStack weight (xs.foldl (place weight) stack) := by
  induction xs generalizing stack with
  | nil => exact h
  | cons t xs ih => exact ih (place_ordered h t)

/-- What comes out is in order. -/
theorem reorder_ordered (xs : List α) : Ordered weight (reorder weight xs) := by
  have hnil : OrderedStack weight ([] : List α) := List.isChain_nil
  exact List.isChain_reverse.2 (foldl_place_ordered hnil)

/-- A symbol no lighter than the top, or a starter, goes on top. -/
theorem place_on_top {stack : List α} {t : α}
    (h : weight t = 0 ∨ ∀ x ∈ stack.head?, weight x ≤ weight t) : place weight stack t = t :: stack := by
  unfold place
  split
  · rfl
  · next ht =>
    cases stack with
    | nil => rfl
    | cons x below =>
      have hx : weight x ≤ weight t := (h.resolve_left ht) x rfl
      rw [sink, if_neg (by omega)]

/-- Elements that are ordered are placed on top. -/
theorem foldl_place_of_ordered {xs stack : List α} (h : Ordered weight (stack.reverse ++ xs)) :
    xs.foldl (place weight) stack = xs.reverse ++ stack := by
  induction xs generalizing stack with
  | nil => rfl
  | cons t xs ih =>
    have hstep : place weight stack t = t :: stack := by
      apply place_on_top
      cases stack with
      | nil => simp
      | cons x below =>
        simp only [List.reverse_cons, List.append_assoc, List.singleton_append] at h
        simpa using (List.isChain_cons_cons.1 (List.IsChain.right_of_append h)).1
    rw [List.foldl_cons, hstep, ih (by simpa using h)]
    simp

/-- An ordered sequence stays as it is. -/
theorem reorder_of_ordered {xs : List α} (h : Ordered weight xs) : reorder weight xs = xs := by
  have hnil : Ordered weight (([] : List α).reverse ++ xs) := h
  simp [reorder, foldl_place_of_ordered hnil]

/-- The ordered sequence a sequence can be shuffled into is its reordering. -/
theorem reorder_eq_iff {xs ys : List α} :
    reorder weight xs = ys ↔ Shuffle weight xs ys ∧ Ordered weight ys := by
  constructor
  · rintro rfl
    exact ⟨(reorder_shuffle xs).symm, reorder_ordered xs⟩
  · rintro ⟨hs, ho⟩
    rw [reorder_eq_of_shuffle hs, reorder_of_ordered ho]

theorem reorder_perm (xs : List α) : (reorder weight xs).Perm xs := (reorder_shuffle xs).perm

@[simp] theorem mem_reorder {x : α} {xs : List α} : x ∈ reorder weight xs ↔ x ∈ xs :=
  (reorder_perm xs).mem_iff

@[simp] theorem length_reorder (xs : List α) : (reorder weight xs).length = xs.length :=
  (reorder_perm xs).length_eq

/-- A starter separates what is reordered before it from what is reordered after it. -/
theorem reorder_append_starter (xs ys : List α) {x : α} (hx : weight x = 0) :
    reorder weight (xs ++ x :: ys) = reorder weight xs ++ x :: reorder weight ys := by
  refine reorder_eq_iff.2
    ⟨(reorder_shuffle xs).symm.append (.cons x (reorder_shuffle ys).symm), ?_⟩
  have htail : Ordered weight (x :: reorder weight ys) :=
    List.IsChain.cons (reorder_ordered ys) fun y _ => .inr (by omega)
  refine List.isChain_append.2 ⟨reorder_ordered xs, htail, fun a _ b hb => ?_⟩
  obtain rfl : x = b := by simpa using hb
  exact .inl hx

@[simp] theorem reorder_nil : reorder weight ([] : List α) = [] := rfl

/-- Reordering commutes with a renaming that keeps the weights. -/
theorem reorder_map {β : Type} {weight' : β → Nat} {f : α → β} (hf : ∀ x, weight' (f x) = weight x)
    (xs : List α) : reorder weight' (xs.map f) = (reorder weight xs).map f := by
  refine reorder_eq_iff.2 ⟨?_, ?_⟩
  · have h : Shuffle weight xs (reorder weight xs) := (reorder_shuffle xs).symm
    generalize reorder weight xs = ys at h
    induction h with
    | nil => exact .nil
    | cons x _ ih => exact .cons _ ih
    | swap ha hb hne xs =>
      exact .swap (by rwa [hf]) (by rwa [hf]) (by rwa [hf, hf]) _
    | trans _ _ ih₁ ih₂ => exact ih₁.trans ih₂
  · have h : Ordered weight (reorder weight xs) := reorder_ordered xs
    unfold Ordered at h ⊢
    exact (List.isChain_map f).2 (by simpa only [hf] using h)

end Reorder

end Support.Canonical
