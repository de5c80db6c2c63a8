import Bytepair.Support.Run
import Mathlib.Order.Basic
import Mathlib.Order.Lattice
import Mathlib.Data.List.Perm.Basic

/-!
# Array binary min-heaps

The two sift loops of a min-heap kept in an array, over any element type and any
comparison that compares keys of a linear order. `push_spec` and `pop_spec` are what a
client uses: the heap keeps its elements and its order, and `pop` takes a least one.
-/

namespace Support.BinaryHeap
open Support

variable {α : Type}

/-- Exchange cells `i` and `j`. -/
def swap (h : List α) (i j : Nat) : Run (List α) := do
  let x ← index h i
  let y ← index h j
  let h ← store h i y
  store h j x

/-- One round of the upward sift at `i`. -/
def siftUpRound (less : α → α → Bool) : List α × Nat → Run (Flow (List α × Nat) (List α))
  | (h, i) =>
    if i = 0 then .ok (.done h)
    else do
      let p := (i - 1) / 2
      let x ← index h i
      let y ← index h p
      if less x y then
        let h ← swap h i p
        pure (.next (h, p))
      else pure (.done h)

/-- The candidate `c` if it is in the heap and below `m`, else `m`. -/
def lesser (less : α → α → Bool) (h : List α) (c m : Nat) : Run Nat :=
  if c < h.length then do
    let x ← index h c
    let y ← index h m
    pure (if less x y then c else m)
  else pure m

/-- One round of the downward sift at `i`. -/
def siftDownRound (less : α → α → Bool) : List α × Nat → Run (Flow (List α × Nat) (List α))
  | (h, i) => do
    let l := 2 * i + 1
    let r := l + 1
    let m ← lesser less h l i
    let m ← lesser less h r m
    if m = i then pure (.done h)
    else
      let h ← swap h i m
      pure (.next (h, m))

/-- Add `e` to a heap that has room for `cap` elements. -/
def push (less : α → α → Bool) (cap : Nat) (h : List α) (e : α) : Run (List α) := do
  let h' ← append cap h e
  loop (siftUpRound less) (h.length + 1) (h', h.length)

/-- Take the root; the last element takes its place and sinks. -/
def pop (less : α → α → Bool) (h : List α) : Run (α × List α) := do
  let top ← index h 0
  let last ← index h (h.length - 1)
  let h ← store h 0 last
  let h ← loop (siftDownRound less) h.length (h.dropLast, 0)
  pure (top, h)

attribute [grind =] siftUpRound lesser siftDownRound

section Order

variable {κ : Type} [LinearOrder κ] (key : α → κ)

/-- Cell `j` is not below cell `i`, where both exist. -/
def NotBelow (h : List α) (i j : Nat) : Prop :=
  ∀ x y, h[i]? = some x → h[j]? = some y → key x ≤ key y

/-- Every parent is at or below its children. -/
def Ordered (h : List α) : Prop :=
  ∀ j, 0 < j → NotBelow key h ((j - 1) / 2) j

/-- Only the edge into `i` may be out of order, and `i`'s parent is at or below `i`'s
children. -/
structure UpReady (h : List α) (i : Nat) : Prop where
  others : ∀ j, 0 < j → j ≠ i → NotBelow key h ((j - 1) / 2) j
  grand : ∀ j, 0 < j → (j - 1) / 2 = i → 0 < i → NotBelow key h ((i - 1) / 2) j

/-- Only the edges out of `i` may be out of order, and `i`'s parent is at or below `i`'s
children. -/
structure DownReady (h : List α) (i : Nat) : Prop where
  others : ∀ j, 0 < j → (j - 1) / 2 ≠ i → NotBelow key h ((j - 1) / 2) j
  grand : ∀ j, 0 < j → (j - 1) / 2 = i → 0 < i → NotBelow key h ((i - 1) / 2) j

variable {key}

theorem swap_lt {h : List α} {i j : Nat} (hi : i < h.length) (hj : j < h.length) :
    swap h i j = .ok ((h.set i h[j]).set j h[i]) := by
  have hj' : j < (h.set i h[j]).length := by simpa using hj
  simp only [swap, index_lt hi, index_lt hj, store_lt hi, store_lt hj', Run.ok_bind]

theorem getElem?_swap {h : List α} {i j : Nat} (hi : i < h.length) (hj : j < h.length) (k : Nat) :
    ((h.set i h[j]).set j h[i])[k]? =
      if k = j then h[i]? else if k = i then h[j]? else h[k]? := by
  simp only [List.getElem?_set, List.length_set]
  split
  · next e => subst e; simp [hi]
  · next e =>
    rw [if_neg (Ne.symm e)]
    split
    · next e' => subst e'; simp [hj]
    · next e' => simp [Ne.symm e']

/-- Exchanging `i` with its parent, which is above it, moves the doubt up. -/
theorem UpReady.move {h : List α} {i : Nat} (ready : UpReady key h i) (hpos : 0 < i)
    (hi : i < h.length) (hp : (i - 1) / 2 < h.length) (hlt : key h[i] < key h[(i - 1) / 2]) :
    UpReady key ((h.set i h[(i - 1) / 2]).set ((i - 1) / 2) h[i]) ((i - 1) / 2) := by
  have hpi : (i - 1) / 2 < i := by omega
  constructor
  · intro j hj hjp x y hx hy
    rw [getElem?_swap hi hp] at hx hy
    rw [if_neg hjp] at hy
    by_cases hji : j = i
    · subst hji
      rw [if_pos rfl] at hx hy
      simp only [List.getElem?_eq_getElem hi, List.getElem?_eq_getElem hp, Option.some.injEq] at hx hy
      subst hx hy
      exact hlt.le
    · rw [if_neg hji] at hy
      by_cases hpar : (j - 1) / 2 = (i - 1) / 2
      · rw [if_pos hpar, List.getElem?_eq_getElem hi] at hx
        cases hx
        have := ready.others j hj hji
        rw [hpar] at this
        exact hlt.le.trans (this _ _ (List.getElem?_eq_getElem hp) hy)
      · rw [if_neg hpar] at hx
        by_cases hgrand : (j - 1) / 2 = i
        · rw [if_pos hgrand] at hx
          exact ready.grand j hj hgrand hpos _ _ hx hy
        · rw [if_neg hgrand] at hx
          exact ready.others j hj hji _ _ hx hy
  · intro j hj hjp hpp x y hx hy
    have hup : ((i - 1) / 2 - 1) / 2 < (i - 1) / 2 := by omega
    rw [getElem?_swap hi hp, if_neg (by omega), if_neg (by omega)] at hx
    rw [getElem?_swap hi hp, if_neg (by omega)] at hy
    have habove := ready.others ((i - 1) / 2) hpp (by omega) x _ hx (List.getElem?_eq_getElem hp)
    by_cases hji : j = i
    · rw [if_pos hji, List.getElem?_eq_getElem hp] at hy
      cases hy
      exact habove
    · rw [if_neg hji] at hy
      have := ready.others j hj hji
      rw [hjp] at this
      exact habove.trans (this _ _ (List.getElem?_eq_getElem hp) hy)

/-- Exchanging `i` with its least child, which is below it, moves the doubt down. -/
theorem DownReady.move {h : List α} {i m : Nat} (ready : DownReady key h i) (hi : i < h.length)
    (hm : m < h.length) (hpos : 0 < m) (hchild : (m - 1) / 2 = i) (hlt : key h[m] < key h[i])
    (hleast : ∀ j, 0 < j → (j - 1) / 2 = i → NotBelow key h m j) :
    DownReady key ((h.set i h[m]).set m h[i]) m := by
  have him : i < m := by omega
  constructor
  · intro j hj hjm x y hx hy
    rw [getElem?_swap hi hm] at hx hy
    rw [if_neg hjm] at hx
    by_cases hpar : (j - 1) / 2 = i
    · rw [if_pos hpar, List.getElem?_eq_getElem hm] at hx
      cases hx
      by_cases hjm' : j = m
      · rw [if_pos hjm', List.getElem?_eq_getElem hi] at hy
        cases hy
        exact hlt.le
      · rw [if_neg hjm', if_neg (by omega)] at hy
        exact hleast j hj hpar _ _ (List.getElem?_eq_getElem hm) hy
    · rw [if_neg hpar] at hx
      rw [if_neg (by rintro rfl; exact hpar hchild)] at hy
      by_cases hji : j = i
      · rw [if_pos hji] at hy
        subst hji
        exact ready.grand m hpos hchild hj _ _ hx hy
      · rw [if_neg hji] at hy
        exact ready.others j hj hpar _ _ hx hy
  · intro j hj hjm hm0 x y hx hy
    rw [getElem?_swap hi hm, hchild, if_neg (by omega), if_pos rfl] at hx
    rw [getElem?_swap hi hm, if_neg (by omega), if_neg (by omega)] at hy
    have := ready.others j hj (by omega)
    rw [hjm] at this
    exact this _ _ hx hy

/-- Once the root is all that may be out of order, nothing is. -/
theorem UpReady.ordered_zero {h : List α} (ready : UpReady key h 0) : Ordered key h :=
  fun j hj => ready.others j hj (by omega)

/-- The root is a least element. -/
theorem Ordered.root_le {h : List α} (ord : Ordered key h) {x y : α} (hx : h[0]? = some x)
    (hy : y ∈ h) : key x ≤ key y := by
  obtain ⟨j, hj⟩ := List.mem_iff_getElem?.1 hy
  clear hy
  induction j using Nat.strongRecOn generalizing y with
  | ind j ih =>
    rcases Nat.eq_zero_or_pos j with rfl | hpos
    · rw [hx] at hj
      cases hj
      exact le_rfl
    · have hlt : j < h.length := (List.getElem?_eq_some_iff.1 hj).1
      have hp : (j - 1) / 2 < h.length := by omega
      have hroot := ih ((j - 1) / 2) (by omega) (List.getElem?_eq_getElem hp)
      exact hroot.trans (ord j hpos _ _ (List.getElem?_eq_getElem hp) hj)

variable {less : α → α → Bool} (hless : ∀ x y, less x y = decide (key x < key y))
include hless

/-- Sifting up puts the heap in order. -/
theorem siftUp_spec {h : List α} {i : Nat} (ready : UpReady key h i) (hi : i < h.length) :
    ∃ h', loop (siftUpRound less) (i + 1) (h, i) = .ok h' ∧ h'.Perm h ∧ Ordered key h' := by
  refine loop_rule (fun s => s.1.Perm h ∧ s.2 < s.1.length ∧ UpReady key s.1 s.2) Prod.snd
    (fun h' => h'.Perm h ∧ Ordered key h') ?_ (i + 1) (h, i) ⟨.refl _, hi, ready⟩ (Nat.lt_succ_self i)
  rintro ⟨g, k⟩ ⟨hperm, hk, ready⟩
  dsimp only at hperm hk ready
  rcases Nat.eq_zero_or_pos k with rfl | hpos
  · exact .inr ⟨g, rfl, hperm, ready.ordered_zero⟩
  · have hp : (k - 1) / 2 < g.length := by omega
    have hround : siftUpRound less (g, k) = if less g[k] g[(k - 1) / 2] then
        .ok (.next ((g.set k g[(k - 1) / 2]).set ((k - 1) / 2) g[k], (k - 1) / 2)) else .ok (.done g) := by
      simp only [siftUpRound, if_neg (Nat.ne_of_gt hpos), index_lt hk, index_lt hp, Run.ok_bind,
        swap_lt hk hp, Run.pure_eq]
    rw [hround, hless]
    by_cases hlt : key g[k] < key g[(k - 1) / 2]
    · refine .inl ⟨(_, (k - 1) / 2), by rw [decide_eq_true hlt, if_pos rfl],
        ⟨(List.set_set_perm hk hp).trans hperm, by simpa using hp, ready.move hpos hk hp hlt⟩, ?_⟩
      dsimp only
      omega
    · refine .inr ⟨g, by simp [hlt], hperm, fun j hj => ?_⟩
      by_cases hjk : j = k
      · subst hjk
        intro x y hx hy
        rw [List.getElem?_eq_getElem hp] at hx
        rw [List.getElem?_eq_getElem hk] at hy
        cases hx
        cases hy
        exact not_lt.1 hlt
      · exact ready.others j hj hjk

/-- The lesser of an element and a child, where there is that child. -/
theorem lesser_spec {h : List α} {c m : Nat} (hm : m < h.length) :
    ∃ m', lesser less h c m = .ok m' ∧ m' < h.length ∧ (m' = c ∨ m' = m) ∧
      NotBelow key h m' m ∧ NotBelow key h m' c ∧
      (m' ≠ m → ∀ x y, h[m']? = some x → h[m]? = some y → key x < key y) := by
  unfold lesser
  split
  · next hc =>
    rw [index_lt hc, index_lt hm]
    simp only [Run.ok_bind, Run.pure_eq, hless, decide_eq_true_eq]
    split
    · next hlt =>
      have hlt' : ∀ x y, h[c]? = some x → h[m]? = some y → key x < key y := by
        intro x y hx hy
        rw [List.getElem?_eq_getElem hc] at hx
        rw [List.getElem?_eq_getElem hm] at hy
        cases hx
        cases hy
        exact hlt
      exact ⟨c, rfl, hc, .inl rfl, fun x y hx hy => (hlt' x y hx hy).le,
        fun x y hx hy => by rw [hx] at hy; cases hy; exact le_rfl, fun _ => hlt'⟩
    · next hlt =>
      refine ⟨m, rfl, hm, .inr rfl, fun x y hx hy => by rw [hx] at hy; cases hy; exact le_rfl,
        fun x y hx hy => ?_, fun h => absurd rfl h⟩
      rw [List.getElem?_eq_getElem hm] at hx
      rw [List.getElem?_eq_getElem hc] at hy
      cases hx
      cases hy
      exact not_lt.1 hlt
  · next hc =>
    refine ⟨m, rfl, hm, .inr rfl, fun x y hx hy => by rw [hx] at hy; cases hy; exact le_rfl,
      fun x y hx hy => ?_, fun h => absurd rfl h⟩
    rw [List.getElem?_eq_none (by omega)] at hy
    cases hy

/-- Sifting down puts the heap in order. -/
theorem siftDown_spec {h : List α} {i : Nat} (ready : DownReady key h i) (hi : i < h.length) :
    ∃ h', loop (siftDownRound less) (h.length + 1) (h, i) = .ok h' ∧ h'.Perm h ∧ Ordered key h' := by
  refine loop_rule (fun s => s.1.Perm h ∧ s.2 < s.1.length ∧ DownReady key s.1 s.2)
    (fun s => h.length - s.2) (fun h' => h'.Perm h ∧ Ordered key h') ?_ (h.length + 1) (h, i)
    ⟨.refl _, hi, ready⟩ (by dsimp only; omega)
  rintro ⟨g, k⟩ ⟨hperm, hk, ready⟩
  dsimp only at hperm hk ready
  have hlen := hperm.length_eq
  obtain ⟨m₁, h₁, hm₁, hor₁, hk₁, hl₁, hlt₁⟩ := lesser_spec hless (c := 2 * k + 1) hk
  obtain ⟨m₂, h₂, hm₂, hor₂, hk₂, hr₂, hlt₂⟩ := lesser_spec hless (c := 2 * k + 1 + 1) hm₁
  have trans₂ : ∀ j, NotBelow key g m₁ j → NotBelow key g m₂ j := fun j hj x y hx hy =>
    (hk₂ _ _ hx (List.getElem?_eq_getElem hm₁)).trans (hj _ _ (List.getElem?_eq_getElem hm₁) hy)
  have hleast : ∀ j, 0 < j → (j - 1) / 2 = k → NotBelow key g m₂ j := by
    intro j hj hjk
    rcases (by omega : j = 2 * k + 1 ∨ j = 2 * k + 1 + 1) with rfl | rfl
    · exact trans₂ _ hl₁
    · exact hr₂
  by_cases hmk : m₂ = k
  · refine .inr ⟨g, by simp [siftDownRound, h₁, h₂, hmk], hperm, fun j hj => ?_⟩
    by_cases hjk : (j - 1) / 2 = k
    · rw [hjk, ← hmk]
      exact hleast j hj hjk
    · exact ready.others j hj hjk
  · have hlt : key g[m₂] < key g[k] := by
      have e₁ := List.getElem?_eq_getElem hm₁
      have e₂ := List.getElem?_eq_getElem hm₂
      have ek := List.getElem?_eq_getElem hk
      by_cases h21 : m₂ = m₁
      · subst h21
        exact hlt₁ hmk _ _ e₂ ek
      · exact (hlt₂ h21 _ _ e₂ e₁).trans_le (hk₁ _ _ e₁ ek)
    have hstep : siftDownRound less (g, k) = .ok (.next ((g.set k g[m₂]).set m₂ g[k], m₂)) := by
      simp [siftDownRound, h₁, h₂, hmk, swap_lt hk hm₂]
    refine .inl ⟨_, hstep, ⟨(List.set_set_perm hk hm₂).trans hperm, by simpa using hm₂, ?_⟩, ?_⟩
    · exact ready.move hk hm₂ (by omega) (by omega) hlt hleast
    · dsimp only
      omega

/-- `push` adds the element and keeps the order. -/
theorem push_spec {cap : Nat} {h : List α} (ord : Ordered key h) (hcap : h.length < cap) (e : α) :
    ∃ h', push less cap h e = .ok h' ∧ h'.Perm (e :: h) ∧ Ordered key h' := by
  have ready : UpReady key (h ++ [e]) h.length := by
    constructor
    · intro j hj hne x y hx hy
      have hlt : j < h.length := by
        have := (List.getElem?_eq_some_iff.1 hy).1
        simp at this
        omega
      rw [List.getElem?_append_left (by omega)] at hx
      rw [List.getElem?_append_left hlt] at hy
      exact ord j hj x y hx hy
    · intro j hj hjp _ x y _ hy
      have := (List.getElem?_eq_some_iff.1 hy).1
      simp at this
      omega
  obtain ⟨h', hrun, hperm, hord⟩ := siftUp_spec hless ready (by simp)
  exact ⟨h', by simp [push, append_lt hcap, hrun], hperm.trans (List.perm_append_singleton e h), hord⟩

/-- `pop` takes a least element and keeps the rest in order. -/
theorem pop_spec {h : List α} (ord : Ordered key h) (hne : h ≠ []) :
    ∃ top h', pop less h = .ok (top, h') ∧ h.Perm (top :: h') ∧ Ordered key h' ∧
      ∀ x ∈ h, key top ≤ key x := by
  obtain ⟨top, t, rfl⟩ := List.exists_cons_of_ne_nil hne
  have hroot : ∀ x ∈ top :: t, key top ≤ key x := fun x hx => ord.root_le rfl hx
  rcases List.eq_nil_or_concat t with rfl | ⟨s, last, rfl⟩
  · refine ⟨top, [], ?_, .refl _, fun j _ x y _ hy => by simp at hy, hroot⟩
    simp [pop, index, store, loop, siftDownRound, lesser]
  · rw [List.concat_eq_append] at *
    -- the last element moves to the root of what is left
    have ready : DownReady key (last :: s) 0 := by
      constructor
      · intro j hj hjp x y hx hy
        obtain ⟨j, rfl⟩ := Nat.exists_eq_add_one.2 hj
        obtain ⟨p, hp⟩ := Nat.exists_eq_add_one.2 (Nat.pos_of_ne_zero hjp)
        have hlt : j < s.length := by simpa using (List.getElem?_eq_some_iff.1 hy).1
        apply ord (j + 1) hj x y
        · rw [hp, List.getElem?_cons_succ] at hx ⊢
          rwa [List.getElem?_append_left (by omega)]
        · rw [List.getElem?_cons_succ] at hy ⊢
          rwa [List.getElem?_append_left hlt]
      · intro j _ _ h0
        exact absurd h0 (Nat.lt_irrefl 0)
    obtain ⟨h', hrun, hperm, hord⟩ := siftDown_spec hless ready (by simp)
    have hlast : index (top :: (s ++ [last])) (s.length + 1) = .ok last := index_of_some (by simp)
    refine ⟨top, h', ?_, ?_, hord, hroot⟩
    · have hdrop : (last :: (s ++ [last])).dropLast = last :: s := by
        rw [← List.cons_append, List.dropLast_concat]
      have hlen : (last :: s).length + 1 = (last :: (s ++ [last])).length := by simp
      rw [hlen] at hrun
      simp only [pop, List.length_cons, List.length_append, List.length_nil, Nat.add_sub_cancel,
        Nat.zero_add] at hlast ⊢
      rw [hlast]
      have hfirst : index (top :: (s ++ [last])) 0 = .ok top := index_of_some rfl
      simp only [hfirst, Run.ok_bind]
      rw [store_lt (by simp)]
      simp only [Run.ok_bind, List.set_cons_zero, hdrop]
      rw [hrun]
      rfl
    · exact .cons _ ((List.perm_append_singleton last s).trans hperm.symm)

end Order

/-! What a run that returns keeps, whatever the order of the heap. -/

section Elements

variable {less : α → α → Bool}

theorem swap_perm {h h' : List α} {i j : Nat} (hrun : swap h i j = .ok h') : h'.Perm h := by
  obtain ⟨x, hx, hrun⟩ := bind_eq_ok.1 hrun
  obtain ⟨y, hy, hrun⟩ := bind_eq_ok.1 hrun
  obtain ⟨hi, rfl⟩ := List.getElem?_eq_some_iff.1 (index_eq_ok.1 hx)
  obtain ⟨hj, rfl⟩ := List.getElem?_eq_some_iff.1 (index_eq_ok.1 hy)
  have hlt : j < (h.set i h[j]).length := by simpa using hj
  rw [store_lt hi, Run.ok_bind, store_lt hlt] at hrun
  cases hrun
  exact List.set_set_perm hi hj

/-- A round of sifting up, whatever the order, keeps the elements. -/
theorem siftUpRound_perm {h : List α} {i : Nat} {flow : Flow (List α × Nat) (List α)}
    (hrun : siftUpRound less (h, i) = .ok flow) :
    (∀ s, flow = .next s → s.1.Perm h) ∧ ∀ h', flow = .done h' → h'.Perm h := by
  have done : ∀ {flow : Flow (List α × Nat) (List α)}, (.ok (.done h) : Run _) = .ok flow →
      (∀ s, flow = .next s → s.1.Perm h) ∧ ∀ h', flow = .done h' → h'.Perm h := by
    rintro _ ⟨⟩
    constructor
    · rintro s ⟨⟩
    · rintro h' ⟨⟩
      exact .refl _
  rw [siftUpRound] at hrun
  split at hrun
  · exact done hrun
  · obtain ⟨x, -, hrun⟩ := bind_eq_ok.1 hrun
    obtain ⟨y, -, hrun⟩ := bind_eq_ok.1 hrun
    split at hrun
    · obtain ⟨h₁, hswap, hrun⟩ := bind_eq_ok.1 hrun
      cases hrun
      constructor
      · rintro s ⟨⟩
        exact swap_perm hswap
      · rintro h' ⟨⟩
    · exact done hrun

/-- So does a round of sifting down. -/
theorem siftDownRound_perm {h : List α} {i : Nat} {flow : Flow (List α × Nat) (List α)}
    (hrun : siftDownRound less (h, i) = .ok flow) :
    (∀ s, flow = .next s → s.1.Perm h) ∧ ∀ h', flow = .done h' → h'.Perm h := by
  obtain ⟨m, -, hrun⟩ := bind_eq_ok.1 hrun
  obtain ⟨m', -, hrun⟩ := bind_eq_ok.1 hrun
  split at hrun
  · cases hrun
    constructor
    · rintro s ⟨⟩
    · rintro h' ⟨⟩
      exact .refl _
  · obtain ⟨h₁, hswap, hrun⟩ := bind_eq_ok.1 hrun
    cases hrun
    constructor
    · rintro s ⟨⟩
      exact swap_perm hswap
    · rintro h' ⟨⟩

/-- A sift keeps the elements. -/
theorem sift_perm {body : List α × Nat → Run (Flow (List α × Nat) (List α))}
    (round : ∀ h i flow, body (h, i) = .ok flow →
      (∀ s, flow = .next s → s.1.Perm h) ∧ ∀ h', flow = .done h' → h'.Perm h)
    {bound : Nat} {g h' : List α} {i : Nat} (hrun : loop body bound (g, i) = .ok h') : h'.Perm g := by
  refine @loop_keeps _ _ body (fun s => s.1.Perm g) (fun h => h.Perm g) ?_ ?_ bound (g, i) h' (.refl g) hrun
  · exact fun s s' hs hround => ((round s.1 s.2 _ hround).1 s' rfl).trans hs
  · exact fun s h hs hround => ((round s.1 s.2 _ hround).2 h rfl).trans hs

/-- A push adds its element, whatever the order. -/
theorem push_perm {cap : Nat} {h h' : List α} {e : α} (hrun : push less cap h e = .ok h') : h'.Perm (e :: h) := by
  obtain ⟨h₁, happend, hrun⟩ := bind_eq_ok.1 hrun
  unfold append at happend
  split at happend
  · cases happend
    exact (sift_perm (fun _ _ _ => siftUpRound_perm) hrun).trans (List.perm_append_singleton e h)
  · cases happend

/-- A pop takes an element and adds none. -/
theorem pop_mem {h h' : List α} {top : α} (hrun : pop less h = .ok (top, h')) : top ∈ h ∧ ∀ x ∈ h', x ∈ h := by
  obtain ⟨top', htop, hrun⟩ := bind_eq_ok.1 hrun
  obtain ⟨last, hlast, hrun⟩ := bind_eq_ok.1 hrun
  obtain ⟨h₁, hstore, hrun⟩ := bind_eq_ok.1 hrun
  obtain ⟨h₂, hsift, hrun⟩ := bind_eq_ok.1 hrun
  cases hrun
  obtain ⟨-, rfl⟩ := store_eq_ok.1 hstore
  refine ⟨List.mem_of_getElem? (index_eq_ok.1 htop), fun x hx => ?_⟩
  have hx := (List.dropLast_sublist _).subset ((sift_perm (fun _ _ _ => siftDownRound_perm) hsift).mem_iff.1 hx)
  rcases List.mem_or_eq_of_mem_set hx with hold | rfl
  · exact hold
  · exact List.mem_of_getElem? (index_eq_ok.1 hlast)

end Elements

end Support.BinaryHeap
