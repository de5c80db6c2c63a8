import Bytepair.Support.Canonical
import Mathlib.Algebra.GroupWithZero.Nat

/-!
# Canonical composition

Symbols with a weight, a full decomposition and a partial composition of pairs.
`composeAll` goes through a sequence once and composes the last starter with each symbol
that nothing in between blocks; `normalize` decomposes, reorders and composes. `Lawful`
says that a composite decomposes as its parts do; then `normalize` is a normal form of
the ordered decompositions. `Quick` is a set of symbols whose ordered sequences are
normal forms already.
-/

namespace Support.Canonical

section ComposeAll

variable {α : Type} (weight : α → Nat) (compose : α → α → Option α)

/-- Nothing between the starter and `c` is as heavy as `c`. -/
def unblocked (marks : List α) (c : α) : Bool :=
  match marks.getLast? with
  | some m => weight m < weight c
  | none => true

/-- Compose on, after the starter `s` and the marks that did not compose with it. -/
def composeFrom (s : α) (marks : List α) : List α → List α
  | [] => s :: marks
  | c :: rest =>
    match if unblocked weight marks c then compose s c else none with
    | some d => composeFrom d marks rest
    | none =>
      if weight c = 0 then s :: marks ++ composeFrom c [] rest
      else composeFrom s (marks ++ [c]) rest

/-- Compose a sequence; what comes before its first starter stays. -/
def composeAll : List α → List α
  | [] => []
  | c :: rest =>
    if weight c = 0 then composeFrom weight compose c [] rest else c :: composeAll rest

attribute [grind =] unblocked composeFrom composeAll

variable {weight compose}

theorem composeFrom_compose {s c d : α} {marks rest : List α} (hu : unblocked weight marks c = true)
    (hd : compose s c = some d) :
    composeFrom weight compose s marks (c :: rest) = composeFrom weight compose d marks rest := by
  rw [composeFrom, if_pos hu, hd]

theorem composeFrom_skip {s c : α} {marks rest : List α}
    (h : unblocked weight marks c = true → compose s c = none) :
    composeFrom weight compose s marks (c :: rest) =
      if weight c = 0 then s :: marks ++ composeFrom weight compose c [] rest
      else composeFrom weight compose s (marks ++ [c]) rest := by
  rw [composeFrom]
  split
  · next d hd =>
    split at hd
    · next hu => rw [h hu] at hd; cases hd
    · cases hd
  · rfl

/-- A starter that composes with nothing ends what composes before it. -/
theorem composeFrom_inert {s : α} (hs : ∀ c, compose s c = none) (marks rest : List α) :
    composeFrom weight compose s marks rest = s :: marks ++ composeAll weight compose rest := by
  induction rest generalizing marks with
  | nil => simp [composeFrom, composeAll]
  | cons c rest ih =>
    rw [composeFrom_skip fun _ => hs c]
    unfold composeAll
    split
    · rfl
    · rw [ih]; simp

theorem composeFrom_ne_nil (s : α) (marks rest : List α) :
    composeFrom weight compose s marks rest ≠ [] := by
  induction rest generalizing s marks with
  | nil => simp [composeFrom]
  | cons c rest ih =>
    rw [composeFrom]
    split
    · exact ih _ _
    · split
      · simp
      · exact ih _ _

/-- An inert starter cuts a composition in two. -/
theorem composeFrom_append_inert {x : α} (hx : weight x = 0) (hleft : ∀ a, compose a x = none)
    (hright : ∀ c, compose x c = none) (s : α) (marks xs ys : List α) :
    composeFrom weight compose s marks (xs ++ x :: ys) =
      composeFrom weight compose s marks xs ++ x :: composeAll weight compose ys := by
  induction xs generalizing s marks with
  | nil =>
    rw [List.nil_append, composeFrom_skip fun _ => hleft s, if_pos hx, composeFrom_inert hright]
    rfl
  | cons c xs ih =>
    rw [List.cons_append, composeFrom, composeFrom]
    split
    · exact ih _ _
    · split
      · rw [ih]; simp
      · exact ih _ _

theorem composeAll_append_inert {x : α} (hx : weight x = 0) (hleft : ∀ a, compose a x = none)
    (hright : ∀ c, compose x c = none) (xs ys : List α) :
    composeAll weight compose (xs ++ x :: ys) =
      composeAll weight compose xs ++ x :: composeAll weight compose ys := by
  induction xs with
  | nil => simp [composeAll, hx, composeFrom_inert hright]
  | cons c xs ih =>
    rw [List.cons_append, composeAll, composeAll]
    split
    · exact composeFrom_append_inert hx hleft hright _ _ _ _
    · rw [ih]; rfl

/-- What is in the result was there, or is a composite. -/
theorem composeFrom_forall {P : α → Prop} (hcomp : ∀ a b d, compose a b = some d → P d)
    {s : α} {marks xs : List α} (hs : P s) (hmarks : ∀ m ∈ marks, P m) (hxs : ∀ x ∈ xs, P x) :
    ∀ x ∈ composeFrom weight compose s marks xs, P x := by
  induction xs generalizing s marks with
  | nil => exact List.forall_mem_cons.2 ⟨hs, hmarks⟩
  | cons c xs ih =>
    obtain ⟨hc, hxs⟩ := List.forall_mem_cons.1 hxs
    rw [composeFrom]
    split
    · next d hd =>
      split at hd
      · exact ih (hcomp _ _ _ hd) hmarks hxs
      · cases hd
    · split
      · exact List.forall_mem_append.2 ⟨List.forall_mem_cons.2 ⟨hs, hmarks⟩, ih hc (by simp) hxs⟩
      · exact ih hs (List.forall_mem_append.2 ⟨hmarks, by simpa using hc⟩) hxs

theorem composeAll_forall {P : α → Prop} (hcomp : ∀ a b d, compose a b = some d → P d)
    {xs : List α} (hxs : ∀ x ∈ xs, P x) : ∀ x ∈ composeAll weight compose xs, P x := by
  induction xs with
  | nil => simp [composeAll]
  | cons c xs ih =>
    obtain ⟨hc, hxs⟩ := List.forall_mem_cons.1 hxs
    rw [composeAll]
    split
    · exact composeFrom_forall hcomp hc (by simp) hxs
    · exact List.forall_mem_cons.2 ⟨hc, ih hxs⟩

/-- Composing does not grow a size that no composite grows. -/
theorem composeFrom_size {size : α → Nat}
    (hcomp : ∀ a b d, compose a b = some d → size d ≤ size a + size b) (s : α) (marks xs : List α) :
    ((composeFrom weight compose s marks xs).map size).sum ≤
      size s + (marks.map size).sum + (xs.map size).sum := by
  induction xs generalizing s marks with
  | nil => simp [composeFrom]
  | cons c xs ih =>
    rw [composeFrom, List.map_cons, List.sum_cons]
    split
    · next d hd =>
      split at hd
      · have := hcomp s c d hd
        have := ih d marks
        omega
      · cases hd
    · split
      · have := ih c []
        simp only [List.map_append, List.map_cons, List.sum_append, List.sum_cons, List.map_nil,
          List.sum_nil] at this ⊢
        omega
      · have := ih s (marks ++ [c])
        simp only [List.map_append, List.map_cons, List.sum_append, List.sum_cons, List.map_nil,
          List.sum_nil] at this ⊢
        omega

theorem composeAll_size {size : α → Nat}
    (hcomp : ∀ a b d, compose a b = some d → size d ≤ size a + size b) (xs : List α) :
    ((composeAll weight compose xs).map size).sum ≤ (xs.map size).sum := by
  induction xs with
  | nil => simp [composeAll]
  | cons c xs ih =>
    rw [composeAll, List.map_cons, List.sum_cons]
    split
    · simpa using composeFrom_size hcomp c [] xs
    · simpa using ih

theorem composeAll_eq_nil_iff {xs : List α} : composeAll weight compose xs = [] ↔ xs = [] := by
  cases xs with
  | nil => simp [composeAll]
  | cons c xs =>
    simp only [composeAll, reduceCtorEq, iff_false]
    split
    · exact composeFrom_ne_nil _ _ _
    · simp

section Map

variable {β : Type} {weight' : β → Nat} {compose' : β → β → Option β} {f : α → β}

theorem unblocked_map (hw : ∀ x, weight' (f x) = weight x) (marks : List α) (c : α) :
    unblocked weight' (marks.map f) (f c) = unblocked weight marks c := by
  unfold unblocked
  rw [List.getLast?_map]
  cases marks.getLast? with
  | none => rfl
  | some m => simp [hw]

/-- Composing commutes with a renaming that keeps weights and composites. -/
theorem composeFrom_map {P : α → Prop} (hw : ∀ x, weight' (f x) = weight x)
    (hc : ∀ a b, P a → P b → compose' (f a) (f b) = (compose a b).map f)
    (hP : ∀ a b d, compose a b = some d → P d) {s : α} (marks : List α) {xs : List α} (hs : P s)
    (hxs : ∀ x ∈ xs, P x) :
    composeFrom weight' compose' (f s) (marks.map f) (xs.map f) =
      (composeFrom weight compose s marks xs).map f := by
  induction xs generalizing s marks with
  | nil => simp [composeFrom]
  | cons c xs ih =>
    obtain ⟨hcP, hxs⟩ := List.forall_mem_cons.1 hxs
    simp only [List.map_cons, composeFrom, unblocked_map hw, hc s c hs hcP, hw]
    cases hu : unblocked weight marks c with
    | false =>
      simp only [Bool.false_eq_true, if_false]
      split
      · simpa using ih [] hcP hxs
      · simpa using ih (marks ++ [c]) hs hxs
    | true =>
      simp only [if_true]
      cases hd : compose s c with
      | some d => exact ih marks (hP _ _ _ hd) hxs
      | none =>
        simp only [Option.map_none]
        split
        · simpa using ih [] hcP hxs
        · simpa using ih (marks ++ [c]) hs hxs

theorem composeAll_map {P : α → Prop} (hw : ∀ x, weight' (f x) = weight x)
    (hc : ∀ a b, P a → P b → compose' (f a) (f b) = (compose a b).map f)
    (hP : ∀ a b d, compose a b = some d → P d) {xs : List α} (hxs : ∀ x ∈ xs, P x) :
    composeAll weight' compose' (xs.map f) = (composeAll weight compose xs).map f := by
  induction xs with
  | nil => rfl
  | cons c xs ih =>
    obtain ⟨hcP, hxs⟩ := List.forall_mem_cons.1 hxs
    simp only [List.map_cons, composeAll, hw]
    split
    · exact composeFrom_map hw hc hP [] hcP hxs
    · rw [ih hxs, List.map_cons]

end Map

end ComposeAll

/-- Symbols with what normalization reads of them. -/
structure Alphabet (α : Type) where
  weight : α → Nat
  decompose : α → List α
  compose : α → α → Option α

namespace Alphabet

variable {α : Type} (A : Alphabet α)

/-- The canonically ordered full decomposition. -/
def decomposed (xs : List α) : List α := reorder A.weight (xs.flatMap A.decompose)

/-- Decompose, reorder, compose. -/
def normalize (xs : List α) : List α := composeAll A.weight A.compose (A.decomposed xs)

attribute [grind =] decomposed normalize

/-- A decomposition is full, and a composite is one starter that decomposes as its parts do. -/
structure Lawful : Prop where
  decompose_full : ∀ a, ∀ d ∈ A.decompose a, A.decompose d = [d]
  compose_decompose : ∀ a b c, A.compose a b = some c →
    A.decompose c = A.decompose a ++ A.decompose b
  compose_part : ∀ a b c, A.compose a b = some c → A.decompose b = [b]

variable {A}

theorem decomposed_cons_full {x : α} (hx : A.decompose x = [x]) (xs : List α) :
    (x :: xs).flatMap A.decompose = x :: xs.flatMap A.decompose := by
  rw [List.flatMap_cons, hx]
  rfl

theorem flatMap_decompose_of_full {xs : List α} (h : ∀ x ∈ xs, A.decompose x = [x]) :
    xs.flatMap A.decompose = xs := by
  induction xs with
  | nil => rfl
  | cons x xs ih =>
    obtain ⟨hx, hxs⟩ := List.forall_mem_cons.1 h
    rw [decomposed_cons_full hx, ih hxs]

section Lawful

theorem Lawful.mem_decomposed (hA : A.Lawful) {xs : List α} {d : α} (h : d ∈ A.decomposed xs) :
    A.decompose d = [d] := by
  obtain ⟨a, -, hd⟩ := List.mem_flatMap.1 (mem_reorder.1 h)
  exact hA.decompose_full a d hd

/-- The marks a composition has gone past since its starter, up to a symbol of weight `prev`. -/
structure Between (A : Alphabet α) (prev : Nat) (marks : List α) : Prop where
  mark : ∀ m ∈ marks, A.weight m ≠ 0
  full : ∀ m ∈ marks, A.decompose m = [m]
  le_last : ∀ l ∈ marks.getLast?, ∀ m ∈ marks, A.weight m ≤ A.weight l
  le_prev : ∀ m ∈ marks, A.weight m ≤ prev

theorem Between.empty (prev : Nat) : Between A prev [] := by
  constructor <;> simp

theorem Between.lt_of_unblocked {prev : Nat} {marks : List α} (hb : Between A prev marks) {c : α}
    (hu : unblocked A.weight marks c = true) : ∀ m ∈ marks, A.weight m < A.weight c := by
  intro m hm
  unfold unblocked at hu
  split at hu
  · next l hl => exact Nat.lt_of_le_of_lt (hb.le_last l hl m hm) (by simpa using hu)
  · next hl => rw [List.getLast?_eq_none_iff.1 hl] at hm; cases hm

theorem Between.snoc {prev : Nat} {marks : List α} (hb : Between A prev marks) {c : α}
    (hc : A.weight c ≠ 0) (hfull : A.decompose c = [c]) (hle : prev ≤ A.weight c) :
    Between A (A.weight c) (marks ++ [c]) where
  mark := List.forall_mem_append.2 ⟨hb.mark, by simpa using hc⟩
  full := List.forall_mem_append.2 ⟨hb.full, by simpa using hfull⟩
  le_last := by
    intro l hl
    obtain rfl : c = l := by simpa using hl
    exact List.forall_mem_append.2 ⟨fun m hm => (hb.le_prev m hm).trans hle, by simp⟩
  le_prev := List.forall_mem_append.2 ⟨fun m hm => (hb.le_prev m hm).trans hle, by simp⟩

theorem Between.mono {prev prev' : Nat} {marks : List α} (hb : Between A prev marks)
    (h : ∀ m ∈ marks, A.weight m ≤ prev') : Between A prev' marks :=
  { hb with le_prev := h }

/-- Composing an ordered sequence and decomposing it again only shuffles it: a symbol that
composes is heavier than every mark it goes past. -/
theorem Lawful.composeFrom_shuffle (hA : A.Lawful) {s : α} {prev : Nat} {marks rest : List α}
    (hb : Between A prev marks) (hfull : ∀ c ∈ rest, A.decompose c = [c])
    (hord : Ordered A.weight rest) (hhead : ∀ c ∈ rest.head?, A.weight c = 0 ∨ prev ≤ A.weight c) :
    Shuffle A.weight ((composeFrom A.weight A.compose s marks rest).flatMap A.decompose)
      (A.decompose s ++ (marks ++ rest)) := by
  induction rest generalizing s prev marks with
  | nil =>
    rw [composeFrom, List.flatMap_cons, flatMap_decompose_of_full hb.full, List.append_nil]
  | cons c rest ih =>
    obtain ⟨hc, hrest⟩ := List.forall_mem_cons.1 hfull
    have hord' : Ordered A.weight rest := List.IsChain.tail hord
    have hhead' : ∀ x ∈ rest.head?, A.weight x = 0 ∨ A.weight c ≤ A.weight x :=
      fun x hx => List.IsChain.rel_head? hord hx
    by_cases hcomp : ∃ d, unblocked A.weight marks c = true ∧ A.compose s c = some d
    · obtain ⟨d, hu, hd⟩ := hcomp
      have hlt := hb.lt_of_unblocked hu
      rw [composeFrom_compose hu hd]
      refine (ih (hb.mono fun m hm => (hlt m hm).le) hrest hord' hhead').trans ?_
      rw [hA.compose_decompose s c d hd, hc, List.append_assoc]
      refine Shuffle.append_left _ (Shuffle.to_front (fun m hm => ?_) rest).symm
      have := hlt m hm
      exact ⟨hb.mark m hm, by omega, by omega⟩
    · rw [composeFrom_skip fun hu => Option.eq_none_iff_forall_not_mem.2 fun d hd => hcomp ⟨d, hu, hd⟩]
      split
      · next hc0 =>
        rw [List.flatMap_append, List.flatMap_cons, flatMap_decompose_of_full hb.full,
          List.append_assoc]
        refine Shuffle.append_left _ (Shuffle.append_left _ ?_)
        have h := ih (s := c) (Between.empty (A.weight c)) hrest hord' hhead'
        rwa [hc] at h
      · next hc0 =>
        have hle : prev ≤ A.weight c := (hhead c rfl).resolve_left hc0
        have h := ih (s := s) (hb.snoc hc0 hc hle) hrest hord' hhead'
        rwa [List.append_assoc] at h

theorem Lawful.composeAll_shuffle (hA : A.Lawful) {xs : List α}
    (hfull : ∀ c ∈ xs, A.decompose c = [c]) (hord : Ordered A.weight xs) :
    Shuffle A.weight ((composeAll A.weight A.compose xs).flatMap A.decompose) xs := by
  induction xs with
  | nil => exact .nil
  | cons c rest ih =>
    obtain ⟨hc, hrest⟩ := List.forall_mem_cons.1 hfull
    have hord' : Ordered A.weight rest := List.IsChain.tail hord
    rw [composeAll]
    split
    · have h := hA.composeFrom_shuffle (s := c) (Between.empty (A.weight c)) hrest hord'
        fun x hx => List.IsChain.rel_head? hord hx
      rwa [hc] at h
    · rw [decomposed_cons_full hc]
      exact .cons c (ih hrest hord')

/-- **Normalizing keeps the ordered decomposition.** -/
theorem Lawful.decomposed_normalize (hA : A.Lawful) (xs : List α) :
    A.decomposed (A.normalize xs) = A.decomposed xs := by
  have hord : Ordered A.weight (A.decomposed xs) := reorder_ordered _
  have h := hA.composeAll_shuffle (fun c hc => hA.mem_decomposed hc) hord
  exact reorder_eq_iff.2 ⟨h, hord⟩

/-- **Normal forms.** Sequences normalize alike when their ordered decompositions agree. -/
theorem Lawful.normalize_eq_iff (hA : A.Lawful) {xs ys : List α} :
    A.normalize xs = A.normalize ys ↔ A.decomposed xs = A.decomposed ys := by
  constructor
  · intro h
    rw [← hA.decomposed_normalize xs, h, hA.decomposed_normalize]
  · intro h
    rw [normalize, h, normalize]

/-- A normalized sequence has no symbol that is neither full nor a composite. -/
theorem Lawful.normalize_forall (hA : A.Lawful) {P : α → Prop}
    (hfull : ∀ a, A.decompose a = [a] → P a) (hcomp : ∀ a b d, A.compose a b = some d → P d)
    (xs : List α) : ∀ x ∈ A.normalize xs, P x :=
  composeAll_forall hcomp fun _ hx => hfull _ (hA.mem_decomposed hx)

end Lawful

/-- Normalizing grows a size at most as much as decomposing does. -/
theorem size_normalize_le {size : α → Nat} {k : Nat}
    (hdec : ∀ a, ((A.decompose a).map size).sum ≤ k * size a)
    (hcomp : ∀ a b d, A.compose a b = some d → size d ≤ size a + size b) (xs : List α) :
    ((A.normalize xs).map size).sum ≤ k * (xs.map size).sum := by
  have hflat : ((xs.flatMap A.decompose).map size).sum ≤ k * (xs.map size).sum := by
    induction xs with
    | nil => simp
    | cons x xs ih =>
      have := hdec x
      simp only [List.flatMap_cons, List.map_append, List.sum_append, List.map_cons, List.sum_cons,
        Nat.mul_add]
      omega
  have hperm : ((A.decomposed xs).map size).sum = ((xs.flatMap A.decompose).map size).sum :=
    ((reorder_perm _).map size).sum_nat
  exact (composeAll_size hcomp _).trans (hperm ▸ hflat)

section Inert

/-- A starter that neither decomposes nor composes. -/
structure Inert (A : Alphabet α) (x : α) : Prop where
  weight : A.weight x = 0
  decompose : A.decompose x = [x]
  left : ∀ a, A.compose a x = none
  right : ∀ c, A.compose x c = none

/-- An inert symbol cuts a sequence in two that are normalized on their own. -/
theorem normalize_append_inert {x : α} (hx : Inert A x) (xs ys : List α) :
    A.normalize (xs ++ x :: ys) = A.normalize xs ++ x :: A.normalize ys := by
  unfold normalize decomposed
  rw [List.flatMap_append, decomposed_cons_full hx.decompose, reorder_append_starter _ _ hx.weight,
    composeAll_append_inert hx.weight hx.left hx.right]

end Inert

section Quick

/-- Symbols that are their own normal forms: a mark does not decompose, a starter composes
back from its decomposition, and none of them composes with what is before it. -/
structure Quick (A : Alphabet α) (yes : α → Prop) : Prop where
  not_part : ∀ a b c, A.compose a b = some c → ¬ yes b
  mark : ∀ u, yes u → A.weight u ≠ 0 → A.decompose u = [u]
  starter : ∀ u, yes u → A.weight u = 0 → ∃ d tail, A.decompose u = d :: tail ∧
    A.weight d = 0 ∧ yes d ∧ tail.foldlM A.compose d = some u ∧
    tail.Pairwise fun x y => A.weight x ≤ A.weight y

variable (A) in
/-- A decomposition's tail and the marks behind it, put in order. -/
def interleave (tail marks : List α) : List α :=
  tail.merge marks fun x y => decide (A.weight x ≤ A.weight y)

theorem interleave_shuffle {tail marks : List α}
    (htail : tail.Pairwise fun x y => A.weight x ≤ A.weight y) (hmarks : ∀ m ∈ marks, A.weight m ≠ 0) :
    Shuffle A.weight (A.interleave tail marks) (tail ++ marks) := by
  unfold interleave
  induction tail generalizing marks with
  | nil => simpa using (Shuffle.refl marks : Shuffle A.weight _ _)
  | cons a tail ih =>
    obtain ⟨ha, htail'⟩ := List.pairwise_cons.1 htail
    induction marks with
    | nil => simpa using (Shuffle.refl (a :: tail) : Shuffle A.weight _ _)
    | cons b marks ihb =>
      obtain ⟨hb, hmarks'⟩ := List.forall_mem_cons.1 hmarks
      rw [List.cons_merge_cons]
      split
      · exact .cons a (ih htail' hmarks)
      · next hlt =>
        have hba : A.weight b < A.weight a := by simpa using hlt
        refine (Shuffle.cons b (ihb hmarks')).trans (Shuffle.to_front ?_ marks).symm
        refine List.forall_mem_cons.2 ⟨⟨by omega, hb, by omega⟩, fun x hx => ?_⟩
        have := ha x hx
        exact ⟨by omega, hb, by omega⟩

theorem interleave_sorted {tail marks : List α}
    (htail : tail.Pairwise fun x y => A.weight x ≤ A.weight y)
    (hmarks : marks.Pairwise fun x y => A.weight x ≤ A.weight y) :
    (A.interleave tail marks).Pairwise fun x y => A.weight x ≤ A.weight y := by
  have h : (tail.merge marks fun x y => decide (A.weight x ≤ A.weight y)).Pairwise
      fun x y => decide (A.weight x ≤ A.weight y) = true :=
    List.pairwise_merge (fun a b c => by simpa using Nat.le_trans)
      (fun a b => by simpa using Nat.le_total _ _) tail marks (by simpa using htail)
      (by simpa using hmarks)
  simpa [interleave] using h

variable {yes : α → Prop} (hq : Quick A yes)
include hq

theorem Quick.compose_eq_none (s : α) {c : α} (hc : yes c) : A.compose s c = none :=
  Option.eq_none_iff_forall_not_mem.2 fun d hd => hq.not_part s c d hd hc

/-- Marks that pass the check are left where they are. -/
theorem Quick.composeFrom_marks (s : α) (between : List α) {marks : List α}
    (hmarks : ∀ m ∈ marks, A.weight m ≠ 0 ∧ yes m) (rest : List α) :
    composeFrom A.weight A.compose s between (marks ++ rest) =
      composeFrom A.weight A.compose s (between ++ marks) rest := by
  induction marks generalizing between with
  | nil => simp
  | cons m marks ih =>
    obtain ⟨⟨hm, hyes⟩, hmarks⟩ := List.forall_mem_cons.1 hmarks
    rw [List.cons_append, composeFrom_skip fun _ => hq.compose_eq_none s hyes, if_neg hm, ih _ hmarks,
      List.append_assoc]
    rfl

/-- The tail of a decomposition composes back, past the marks put between its symbols. -/
theorem Quick.composeFrom_interleave {s u : α} {between tail marks : List α}
    (hu : tail.foldlM A.compose s = some u)
    (htail : tail.Pairwise fun x y => A.weight x ≤ A.weight y)
    (hbetween : ∀ m ∈ between, ∀ a ∈ tail, A.weight m < A.weight a)
    (hmarks : ∀ m ∈ marks, A.weight m ≠ 0 ∧ yes m) (rest : List α) :
    composeFrom A.weight A.compose s between (A.interleave tail marks ++ rest) =
      composeFrom A.weight A.compose u (between ++ marks) rest := by
  unfold interleave
  induction tail generalizing s between marks with
  | nil =>
    obtain rfl : s = u := by simpa using hu
    rw [List.nil_merge]
    exact hq.composeFrom_marks s between hmarks rest
  | cons a tail ih =>
    obtain ⟨ha, htail'⟩ := List.pairwise_cons.1 htail
    obtain ⟨s₁, hs₁, hu₁⟩ : ∃ s₁, A.compose s a = some s₁ ∧ tail.foldlM A.compose s₁ = some u := by
      simpa [List.foldlM_cons, Option.bind_eq_some_iff] using hu
    have hopen : ∀ between : List α, (∀ m ∈ between, ∀ x ∈ a :: tail, A.weight m < A.weight x) →
        unblocked A.weight between a = true := by
      intro between hb
      unfold unblocked
      split
      · next m hm => simpa using hb m (List.mem_of_getLast? hm) a List.mem_cons_self
      · rfl
    have hstep : ∀ between marks, (∀ m ∈ between, ∀ x ∈ a :: tail, A.weight m < A.weight x) →
        (∀ m ∈ marks, A.weight m ≠ 0 ∧ yes m) →
        composeFrom A.weight A.compose s between
          (a :: (tail.merge marks fun x y => decide (A.weight x ≤ A.weight y)) ++ rest) =
        composeFrom A.weight A.compose u (between ++ marks) rest := by
      intro between marks hb hmarks
      rw [List.cons_append, composeFrom_compose (hopen between hb) hs₁]
      exact ih hu₁ htail' (fun m hm x hx => hb m hm x (List.mem_cons_of_mem _ hx)) hmarks
    induction marks generalizing between with
    | nil => simpa using hstep between [] hbetween (by simp)
    | cons b marks ihb =>
      rw [List.cons_merge_cons]
      split
      · exact hstep between (b :: marks) hbetween hmarks
      · next hlt =>
        have hba : A.weight b < A.weight a := by simpa using hlt
        obtain ⟨⟨hb, hyes⟩, hmarks'⟩ := List.forall_mem_cons.1 hmarks
        rw [List.cons_append, composeFrom_skip fun _ => hq.compose_eq_none s hyes, if_neg hb]
        have hgap : ∀ m ∈ between ++ [b], ∀ x ∈ a :: tail, A.weight m < A.weight x := ?_
        have h := ihb hgap hmarks'
        · rw [h, List.append_assoc]
          rfl
        · refine List.forall_mem_append.2 ⟨hbetween, fun m hm x hx => ?_⟩
          obtain rfl : m = b := by simpa using hm
          rcases List.mem_cons.1 hx with rfl | hx
          · exact hba
          · exact hba.trans_le (ha x hx)

omit hq in
/-- A sequence is its first symbol, the marks behind it, and a sequence that begins with a
starter, if any. -/
theorem split_marks (A : Alphabet α) (rest : List α) : ∃ marks xs, rest = marks ++ xs ∧
    (∀ m ∈ marks, A.weight m ≠ 0) ∧ ∀ x ∈ xs.head?, A.weight x = 0 := by
  induction rest with
  | nil => exact ⟨[], [], by simp⟩
  | cons c rest ih =>
    by_cases hc : A.weight c = 0
    · exact ⟨[], c :: rest, rfl, by simp, by simpa using hc⟩
    · obtain ⟨marks, xs, rfl, hmarks, hhead⟩ := ih
      exact ⟨c :: marks, xs, rfl, List.forall_mem_cons.2 ⟨hc, hmarks⟩, hhead⟩

omit hq in
theorem Ordered.pairwise_marks {marks : List α} (hmarks : ∀ m ∈ marks, A.weight m ≠ 0)
    (h : Ordered A.weight marks) : marks.Pairwise fun x y => A.weight x ≤ A.weight y := by
  apply List.isChain_iff_pairwise.1
  induction marks with
  | nil => exact .nil
  | cons m marks ih =>
    apply List.IsChain.cons (ih (List.forall_mem_cons.1 hmarks).2 (List.IsChain.tail h))
    intro x hx
    have hxm : x ∈ m :: marks := List.mem_cons_of_mem _ (List.mem_of_mem_head? hx)
    exact (List.IsChain.rel_head? h hx).resolve_left (hmarks x hxm)

/-- The decomposition of a sequence that begins with a starter does. -/
theorem Quick.decomposed_head {xs : List α} (hyes : ∀ x ∈ xs, yes x)
    (hhead : ∀ x ∈ xs.head?, A.weight x = 0) (hne : xs ≠ []) :
    ∃ d rest, A.decomposed xs = d :: rest ∧ A.weight d = 0 ∧ yes d := by
  obtain ⟨u, xs, rfl⟩ := List.exists_cons_of_ne_nil hne
  obtain ⟨d, tail, hdec, hd0, hdyes, -⟩ := hq.starter u (hyes u List.mem_cons_self) (hhead u rfl)
  refine ⟨d, reorder A.weight (tail ++ xs.flatMap A.decompose), ?_, hd0, hdyes⟩
  rw [decomposed, List.flatMap_cons, hdec]
  exact reorder_append_starter [] _ hd0

theorem Quick.ordered_append_decomposed {ys xs : List α} (hys : Ordered A.weight ys)
    (hyes : ∀ x ∈ xs, yes x) (hhead : ∀ x ∈ xs.head?, A.weight x = 0) :
    Ordered A.weight (ys ++ A.decomposed xs) := by
  refine List.isChain_append.2 ⟨hys, reorder_ordered _, fun a _ x hx => ?_⟩
  rcases eq_or_ne xs [] with rfl | hne
  · simp [decomposed] at hx
  · obtain ⟨d, rest, heq, hd, -⟩ := hq.decomposed_head hyes hhead hne
    rw [heq] at hx
    obtain rfl : d = x := by simpa using hx
    exact .inl hd

/-- A starter and its marks decompose into the tail and the marks, in order, behind the
first symbol of the starter's decomposition. -/
theorem Quick.decomposed_segment {u d : α} {tail marks xs : List α}
    (hdec : A.decompose u = d :: tail) (hd : A.weight d = 0)
    (htail : tail.Pairwise fun x y => A.weight x ≤ A.weight y)
    (hmarks : ∀ m ∈ marks, A.weight m ≠ 0 ∧ yes m) (hord : Ordered A.weight marks)
    (hyes : ∀ x ∈ xs, yes x) (hhead : ∀ x ∈ xs.head?, A.weight x = 0) :
    A.decomposed (u :: (marks ++ xs)) = d :: (A.interleave tail marks ++ A.decomposed xs) := by
  have hmarks0 : ∀ m ∈ marks, A.weight m ≠ 0 := fun m hm => (hmarks m hm).1
  have hfull : ∀ m ∈ marks, A.decompose m = [m] := fun m hm => hq.mark m (hmarks m hm).2 (hmarks0 m hm)
  refine reorder_eq_iff.2 ⟨?_, ?_⟩
  · rw [List.flatMap_cons, List.flatMap_append, flatMap_decompose_of_full hfull, hdec,
      List.cons_append, ← List.append_assoc]
    exact .cons d ((interleave_shuffle htail hmarks0).symm.append (reorder_shuffle _).symm)
  · have hsorted := interleave_sorted htail (Ordered.pairwise_marks hmarks0 hord)
    have hchain : Ordered A.weight (A.interleave tail marks) :=
      List.IsChain.imp (fun _ _ h => .inr h) (List.Pairwise.isChain hsorted)
    exact List.IsChain.cons (hq.ordered_append_decomposed hchain hyes hhead) fun x _ => .inr (by omega)

/-- From a starter on, an ordered sequence that passes the check composes back from its
decomposition, whatever starter comes before it. -/
theorem Quick.composeFrom_decomposed {xs : List α} (hyes : ∀ x ∈ xs, yes x)
    (hord : Ordered A.weight xs) (hhead : ∀ x ∈ xs.head?, A.weight x = 0) (s : α) (between : List α) :
    composeFrom A.weight A.compose s between (A.decomposed xs) = s :: between ++ xs := by
  induction hn : xs.length using Nat.strongRecOn generalizing xs s between with
  | ind n ih =>
    cases xs with
    | nil => simp [decomposed, composeFrom]
    | cons u rest =>
      obtain ⟨hu, hrest⟩ := List.forall_mem_cons.1 hyes
      obtain ⟨marks, xs, rfl, hmarks0, hhead'⟩ := split_marks A rest
      obtain ⟨hyesm, hyesx⟩ := List.forall_mem_append.1 hrest
      have hmarks : ∀ m ∈ marks, A.weight m ≠ 0 ∧ yes m := fun m hm => ⟨hmarks0 m hm, hyesm m hm⟩
      obtain ⟨d, tail, hdec, hd0, hdyes, hfold, htail⟩ := hq.starter u hu (hhead u rfl)
      have hord' : Ordered A.weight (marks ++ xs) := List.IsChain.tail hord
      have hlen : xs.length < n := by simp at hn; omega
      have hrec := ih xs.length hlen hyesx (List.IsChain.right_of_append hord') hhead' u marks rfl
      rw [hq.decomposed_segment hdec hd0 htail hmarks (List.IsChain.left_of_append hord') hyesx hhead',
        composeFrom_skip fun _ => hq.compose_eq_none s hdyes, if_pos hd0,
        hq.composeFrom_interleave hfold htail (by simp) hmarks, List.nil_append, hrec]
      rfl

/-- **The quick check is sound.** Ordered sequences of symbols that pass it are normal. -/
theorem Quick.normalize_eq {xs : List α} (hyes : ∀ x ∈ xs, yes x) (hord : Ordered A.weight xs) :
    A.normalize xs = xs := by
  obtain ⟨marks, xs, rfl, hmarks0, hhead⟩ := split_marks A xs
  obtain ⟨hyesm, hyesx⟩ := List.forall_mem_append.1 hyes
  have hstart : composeAll A.weight A.compose (A.decomposed xs) = xs := by
    rcases eq_or_ne xs [] with rfl | hne
    · rfl
    · obtain ⟨d, rest, heq, hd0, hdyes⟩ := hq.decomposed_head hyesx hhead hne
      have h := hq.composeFrom_decomposed hyesx (List.IsChain.right_of_append hord) hhead d []
      rw [heq, composeFrom_skip fun _ => hq.compose_eq_none d hdyes, if_pos hd0] at h
      rw [heq, composeAll, if_pos hd0]
      simpa using h
  have hdec : A.decomposed (marks ++ xs) = marks ++ A.decomposed xs := by
    have hfull : ∀ m ∈ marks, A.decompose m = [m] := fun m hm => hq.mark m (hyesm m hm) (hmarks0 m hm)
    refine reorder_eq_iff.2 ⟨?_, hq.ordered_append_decomposed (List.IsChain.left_of_append hord) hyesx hhead⟩
    rw [List.flatMap_append, flatMap_decompose_of_full hfull]
    exact Shuffle.append_left marks (reorder_shuffle _).symm
  have hcomp : ∀ ms : List α, (∀ m ∈ ms, A.weight m ≠ 0) → ∀ ys,
      composeAll A.weight A.compose (ms ++ ys) = ms ++ composeAll A.weight A.compose ys := by
    intro ms hms ys
    induction ms with
    | nil => rfl
    | cons m ms ih =>
      obtain ⟨hm, hms⟩ := List.forall_mem_cons.1 hms
      rw [List.cons_append, composeAll, if_neg hm, ih hms, List.cons_append]
  rw [normalize, hdec, hcomp marks hmarks0, hstart]

end Quick

end Alphabet

end Support.Canonical
