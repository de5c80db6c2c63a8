import Mathlib.Tactic.Basic
import Mathlib.Logic.Basic
import Mathlib.Algebra.Group.Nat.Defs

/-!
# Checked runs

C leaves an out-of-bounds access and a loop that never exits undefined. A run of a
modelled function is a value of `Run`: either its result or the `Fault` at which the
C code leaves its contract. Arrays are lists of the cells that hold a value, so a
read of a cell nothing has written yet is a fault too. A `while` or `for (;;)` loop is
`loop` with a bound on its rounds; a run that uses up the bound is a fault, so a proof
that a run is `.ok` is a proof that the loop exits. `loop_rule` is the ranked
invariant rule every such proof goes through.
-/

namespace Support

section Outcome

variable {ε α β : Type}

@[simp] theorem ok_bind (a : α) (f : α → Except ε β) : ((Except.ok a : Except ε α) >>= f) = f a := rfl

/-- What ends well splits into its first part and the rest. -/
theorem bind_eq_ok {x : Except ε α} {f : α → Except ε β} {b : β} : (x >>= f) = .ok b ↔ ∃ a, x = .ok a ∧ f a = .ok b := by
  cases x with
  | error e => simp [bind, Except.bind]
  | ok a => simp

/-- An error that no part ends with is not that of the whole. -/
theorem bind_ne_error {x : Except ε α} {f : α → Except ε β} {e : ε} (hx : x ≠ .error e)
    (hf : ∀ a, x = .ok a → f a ≠ .error e) : (x >>= f) ≠ .error e := by
  cases x with
  | error e' => exact fun h => hx (by cases h; rfl)
  | ok a => exact hf a rfl

/-- Calls that all succeed. -/
theorem mapM_ok {f : α → Except ε β} {g : α → β} {xs : List α} (h : ∀ x ∈ xs, f x = .ok (g x)) :
    xs.mapM f = .ok (xs.map g) := by
  induction xs with
  | nil => rfl
  | cons x xs ih =>
    obtain ⟨hx, hxs⟩ := List.forall_mem_cons.1 h
    rw [List.mapM_cons, hx, ih hxs]
    rfl

end Outcome

/-- What C leaves undefined. -/
inductive Fault where
  | outOfBounds
  | nonTermination
  deriving DecidableEq, Repr

/-- A run: its result, or the fault it stops at. -/
abbrev Run := Except Fault

namespace Run

variable {α β γ : Type}

theorem ok_bind (a : α) (f : α → Run β) : ((Except.ok a : Run α) >>= f) = f a := rfl

@[simp] theorem error_bind (e : Fault) (f : α → Run β) :
    ((Except.error e : Run α) >>= f) = Except.error e := rfl

@[simp] theorem pure_eq (a : α) : (pure a : Run α) = Except.ok a := rfl

end Run

section Cells

variable {α : Type}

/-- Read cell `i`. -/
def index (xs : List α) (i : Nat) : Run α :=
  match xs[i]? with
  | some x => .ok x
  | none => .error .outOfBounds

/-- Overwrite cell `i`. -/
def store (xs : List α) (i : Nat) (x : α) : Run (List α) :=
  if i < xs.length then .ok (xs.set i x) else .error .outOfBounds

/-- Write the next cell of a region that has room for `cap` cells. -/
def append (cap : Nat) (xs : List α) (x : α) : Run (List α) :=
  if xs.length < cap then .ok (xs ++ [x]) else .error .outOfBounds

attribute [grind =] index store append

@[simp] theorem index_of_some {xs : List α} {i : Nat} {x : α} (h : xs[i]? = some x) :
    index xs i = .ok x := by
  simp [index, h]

/-- Reading in bounds. -/
theorem index_eq_ok {xs : List α} {i : Nat} {x : α} : index xs i = .ok x ↔ xs[i]? = some x := by
  unfold index
  split <;> simp_all

theorem index_lt {xs : List α} {i : Nat} (h : i < xs.length) : index xs i = .ok xs[i] :=
  index_of_some (List.getElem?_eq_getElem h)

theorem store_lt {xs : List α} {i : Nat} (h : i < xs.length) (x : α) :
    store xs i x = .ok (xs.set i x) := by
  simp [store, h]

/-- Writing in bounds. -/
theorem store_eq_ok {xs ys : List α} {i : Nat} {x : α} : store xs i x = .ok ys ↔ i < xs.length ∧ xs.set i x = ys := by
  unfold store
  split
  · next h => simp [h]
  · next h => simp [h]

theorem append_lt {cap : Nat} {xs : List α} (h : xs.length < cap) (x : α) :
    append cap xs x = .ok (xs ++ [x]) := by
  simp [append, h]

end Cells

section Loops

variable {σ β : Type}

/-- How a round of a loop ends: with the state of the next round, or with the result. -/
inductive Flow (σ β : Type) where
  | next (s : σ)
  | done (b : β)

/-- Run `body` from `s`, for at most `bound` rounds. -/
def loop (body : σ → Run (Flow σ β)) : Nat → σ → Run β
  | 0, _ => .error .nonTermination
  | bound + 1, s => do
    match ← body s with
    | .next s' => loop body bound s'
    | .done b => pure b

attribute [grind =] loop

/-- A round that goes on. -/
theorem loop_next {body : σ → Run (Flow σ β)} {s s' : σ} {bound : Nat}
    (h : body s = .ok (.next s')) : loop body (bound + 1) s = loop body bound s' := by
  simp [loop, h]

/-- A round that ends the loop. -/
theorem loop_done {body : σ → Run (Flow σ β)} {s : σ} {b : β} {bound : Nat}
    (h : body s = .ok (.done b)) : loop body (bound + 1) s = .ok b := by
  simp [loop, h]

/-- **The loop rule.** A round either keeps the invariant, at a lower rank, or ends with the
postcondition; then the loop exits within any bound above the rank. The rank may be of
something the state stands for and not of the state. -/
theorem loop_ranked {body : σ → Run (Flow σ β)} (Inv : σ → Nat → Prop) (Post : β → Prop)
    (round : ∀ s r, Inv s r →
      (∃ s' r', body s = .ok (.next s') ∧ Inv s' r' ∧ r' < r) ∨
      (∃ b, body s = .ok (.done b) ∧ Post b)) :
    ∀ bound s r, Inv s r → r < bound → ∃ b, loop body bound s = .ok b ∧ Post b := by
  intro bound
  induction bound with
  | zero => intro s r _ h; omega
  | succ bound ih =>
    intro s r hs hlt
    rcases round s r hs with ⟨s', r', hstep, hs', hrank⟩ | ⟨b, hdone, hb⟩
    · rw [loop_next hstep]
      exact ih s' r' hs' (by omega)
    · exact ⟨b, loop_done hdone, hb⟩

/-- The loop rule with a rank of the state. -/
theorem loop_rule {body : σ → Run (Flow σ β)} (Inv : σ → Prop) (rank : σ → Nat) (Post : β → Prop)
    (round : ∀ s, Inv s →
      (∃ s', body s = .ok (.next s') ∧ Inv s' ∧ rank s' < rank s) ∨
      (∃ b, body s = .ok (.done b) ∧ Post b)) :
    ∀ bound s, Inv s → rank s < bound → ∃ b, loop body bound s = .ok b ∧ Post b := by
  intro bound s hs hlt
  refine loop_ranked (fun s r => Inv s ∧ rank s = r) Post ?_ bound s (rank s) ⟨hs, rfl⟩ hlt
  rintro s r ⟨hs, rfl⟩
  rcases round s hs with ⟨s', hstep, hs', hrank⟩ | hdone
  · exact .inl ⟨s', rank s', hstep, ⟨hs', rfl⟩, hrank⟩
  · exact .inr hdone

/-- The loop rule for a loop that computes a function every round leaves alone. -/
theorem loop_eq {body : σ → Run (Flow σ β)} (Inv : σ → Prop) (rank : σ → Nat) (value : σ → β)
    (round : ∀ s, Inv s →
      (∃ s', body s = .ok (.next s') ∧ Inv s' ∧ rank s' < rank s ∧ value s' = value s) ∨
      body s = .ok (.done (value s)))
    {bound : Nat} {s : σ} (hs : Inv s) (hlt : rank s < bound) :
    loop body bound s = .ok (value s) := by
  obtain ⟨b, hb, rfl⟩ := loop_rule (fun t => Inv t ∧ value t = value s) rank (· = value s)
    (fun t ⟨ht, hv⟩ => by
      rcases round t ht with ⟨t', hstep, ht', hrank, hval⟩ | hdone
      · exact .inl ⟨t', hstep, ⟨ht', hval.trans hv⟩, hrank⟩
      · exact .inr ⟨_, hdone, hv⟩) bound s ⟨hs, rfl⟩ hlt
  exact hb

/-- `loop_eq` with nothing to assume of the state. -/
theorem loop_value {body : σ → Run (Flow σ β)} (rank : σ → Nat) (value : σ → β)
    (round : ∀ s,
      (∃ s', body s = .ok (.next s') ∧ rank s' < rank s ∧ value s' = value s) ∨
      body s = .ok (.done (value s)))
    {bound : Nat} {s : σ} (hlt : rank s < bound) : loop body bound s = .ok (value s) := by
  refine loop_eq (fun _ => True) rank value (fun s _ => ?_) trivial hlt
  rcases round s with ⟨s', hstep, hrank, hval⟩ | hdone
  · exact .inl ⟨s', hstep, trivial, hrank, hval⟩
  · exact .inr hdone

/-- What the rounds of a loop keep, a loop that exits has kept. -/
theorem loop_keeps {body : σ → Run (Flow σ β)} {Inv : σ → Prop} {Post : β → Prop}
    (next : ∀ s s', Inv s → body s = .ok (.next s') → Inv s')
    (done : ∀ s b, Inv s → body s = .ok (.done b) → Post b) {bound : Nat} {s : σ} {b : β} (hs : Inv s)
    (h : loop body bound s = .ok b) : Post b := by
  induction bound generalizing s with
  | zero => cases h
  | succ bound ih =>
    obtain ⟨flow, hflow, h⟩ := bind_eq_ok.1 h
    cases flow with
    | next s' => exact ih (next s s' hs hflow) h
    | done b' =>
      cases h
      exact done s _ hs hflow

/-- The states that a loop from `s` comes by. -/
inductive Visits (body : σ → Run (Flow σ β)) (s : σ) : σ → Prop where
  | start : Visits body s s
  | next {t t' : σ} : Visits body s t → body t = .ok (.next t') → Visits body s t'

/-- What a round keeps holds of every state that is visited. -/
theorem Visits.keeps {body : σ → Run (Flow σ β)} (Inv : σ → Prop)
    (next : ∀ t t', Inv t → body t = .ok (.next t') → Inv t') {s t : σ} (h : Visits body s t) (hs : Inv s) : Inv t := by
  induction h with
  | start => exact hs
  | next _ hround ih => exact next _ _ ih hround

end Loops

section Folds

variable {σ ι : Type}

/-- A `for` loop over a list keeps an invariant indexed by what is done. -/
theorem foldlM_rule {body : σ → ι → Run σ} (Inv : List ι → σ → Prop) :
    ∀ (todo done : List ι) (s : σ), Inv done s →
      (∀ pre i post s, done ++ todo = pre ++ i :: post → Inv pre s →
        ∃ s', body s i = .ok s' ∧ Inv (pre ++ [i]) s') →
      ∃ s', todo.foldlM body s = .ok s' ∧ Inv (done ++ todo) s' := by
  intro todo
  induction todo with
  | nil => intro done s hs _; exact ⟨s, rfl, by simpa using hs⟩
  | cons i todo ih =>
    intro done s hs round
    obtain ⟨s₁, h₁, hs₁⟩ := round done i todo s rfl hs
    obtain ⟨s₂, h₂, hs₂⟩ := ih (done ++ [i]) s₁ hs₁ (by simpa using round)
    exact ⟨s₂, by simp [List.foldlM_cons, h₁, h₂], by simpa using hs₂⟩

/-- A check of every element, up to the first that fails it. -/
def allM (xs : List ι) (check : ι → Run Bool) : Run Bool :=
  match xs with
  | [] => .ok true
  | x :: xs => do
    if ← check x then allM xs check else pure false

/-- Checks that all return, together. -/
theorem allM_spec {check : ι → Run Bool} {P : ι → Prop} {xs : List ι}
    (h : ∀ x ∈ xs, ∃ b, check x = .ok b ∧ (b = true ↔ P x)) :
    ∃ b, allM xs check = .ok b ∧ (b = true ↔ ∀ x ∈ xs, P x) := by
  induction xs with
  | nil => exact ⟨true, rfl, by simp⟩
  | cons x xs ih =>
    obtain ⟨⟨b, hb, hx⟩, hxs⟩ := List.forall_mem_cons.1 h
    obtain ⟨c, hc, hall⟩ := ih hxs
    rw [List.forall_mem_cons, ← hx, ← hall]
    cases b with
    | false => exact ⟨false, by simp [allM, hb], by simp⟩
    | true => exact ⟨c, by simp [allM, hb, hc], by simp⟩

/-- Where a split of a range of indices falls. -/
theorem range'_split {s n i : Nat} {pre post : List Nat} (h : List.range' s n = pre ++ i :: post) :
    i = s + pre.length ∧ pre.length < n := by
  have hlen : pre.length < (List.range' s n).length := by rw [h]; simp
  have hget : (List.range' s n)[pre.length]? = some i := by rw [h]; simp
  rw [List.length_range'] at hlen
  rw [List.getElem?_range' hlen] at hget
  simp only [Option.some.injEq] at hget
  omega

end Folds

end Support
