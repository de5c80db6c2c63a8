import Bytepair.Support.Run
import Mathlib.Algebra.BigOperators.Group.Finset.Sigma
import Mathlib.Algebra.BigOperators.Intervals

/-!
# Threads that share nothing they write

Threads, each of which is a loop, take their rounds in any order. `Rounds.results`: each ends with what its loop ends with
alone. `Rounds.bounded` and `Rounds.goes_on`: no order goes on for longer than the loops do together, and none gets stuck.
`sum_share`: work that is shared out in strides is shared out whole.
-/

namespace Support.Threads

variable {σ β : Type}

/-- A thread that goes on from a state, or has ended. -/
inductive Thread (σ β : Type) where
  | running (s : σ)
  | ended (b : β)

def Thread.of : Flow σ β → Thread σ β
  | .next s => .running s
  | .done b => .ended b

variable (body : σ → Support.Run (Flow σ β))

/-- Some thread takes a round. -/
inductive Step : List (Thread σ β) → List (Thread σ β) → Prop where
  | round {before after : List (Thread σ β)} {s : σ} {flow : Flow σ β} (h : body s = .ok flow) :
    Step (before ++ .running s :: after) (before ++ .of flow :: after)

/-- So many rounds, in any order. -/
inductive Rounds : Nat → List (Thread σ β) → List (Thread σ β) → Prop where
  | nil (ts : List (Thread σ β)) : Rounds 0 ts ts
  | cons {n : Nat} {ts us vs : List (Thread σ β)} (h : Step body ts us) (rest : Rounds n us vs) : Rounds (n + 1) ts vs

variable {body}

/-- What the loop of a thread is to end with, within so many rounds of it. -/
def Owes (body : σ → Support.Run (Flow σ β)) (b : β) (k : Nat) : Thread σ β → Prop
  | .running s => loop body k s = .ok b
  | .ended b' => b' = b

/-- A round takes a thread one round nearer to what it owes. -/
theorem Owes.round {s : σ} {flow : Flow σ β} {b : β} {k : Nat} (h : Owes body b k (.running s)) (hflow : body s = .ok flow) :
    ∃ k', k = k' + 1 ∧ Owes body b k' (.of flow) := by
  cases k with
  | zero => cases h
  | succ k =>
    refine ⟨k, rfl, ?_⟩
    cases flow with
    | next s' => exact (loop_next hflow).symm.trans h
    | done b' => exact Except.ok.inj ((loop_done hflow).symm.trans h)

/-- The threads, what each owes, and the rounds they have left together. -/
inductive Owing (body : σ → Support.Run (Flow σ β)) : List (Thread σ β) → List β → Nat → Prop where
  | nil : Owing body [] [] 0
  | cons {t : Thread σ β} {ts : List (Thread σ β)} {b : β} {bs : List β} {k n : Nat} (h : Owes body b k t) (rest : Owing body ts bs n) :
    Owing body (t :: ts) (b :: bs) (k + n)

theorem Owing.step {ts us : List (Thread σ β)} {bs : List β} {n : Nat} (h : Owing body ts bs n) (hstep : Step body ts us) :
    ∃ m, n = m + 1 ∧ Owing body us bs m := by
  obtain ⟨hflow⟩ := hstep
  rename_i before after s flow
  induction before generalizing bs n with
  | nil =>
    cases h with
    | cons hs rest =>
      obtain ⟨k, rfl, hnext⟩ := hs.round hflow
      exact ⟨_, Nat.add_right_comm _ _ _, .cons hnext rest⟩
  | cons t before ih =>
    cases h with
    | cons ht rest =>
      obtain ⟨m, rfl, hrest⟩ := ih rest
      exact ⟨_, rfl, .cons ht hrest⟩

/-- **Nothing else happens**: behind any rounds the threads owe the same, and have that many rounds less. -/
theorem Rounds.owing {ts us : List (Thread σ β)} {bs : List β} {n k : Nat} (hr : Rounds body k ts us) (h : Owing body ts bs n) :
    ∃ m, n = m + k ∧ Owing body us bs m := by
  induction hr generalizing n with
  | nil ts => exact ⟨n, rfl, h⟩
  | cons hstep _ ih =>
    obtain ⟨m, rfl, hnext⟩ := h.step hstep
    obtain ⟨m', rfl, hlast⟩ := ih hnext
    exact ⟨m', rfl, hlast⟩

theorem Owing.ended {bs bs' : List β} {n : Nat} (h : Owing body (bs'.map .ended) bs n) : bs' = bs := by
  induction bs' generalizing bs n with
  | nil =>
    cases h with
    | nil => rfl
  | cons b bs' ih =>
    cases h with
    | cons hb rest =>
      obtain rfl : b = _ := hb
      rw [ih rest]

/-- The threads at their start. -/
theorem owing_start {ts : List (Thread σ β)} {bs : List β} {k : Nat} (h : List.Forall₂ (fun t b => Owes body b k t) ts bs) :
    Owing body ts bs (ts.length * k) := by
  induction h with
  | nil =>
    rw [List.length_nil, Nat.zero_mul]
    exact .nil
  | @cons t b ts bs ht _ ih =>
    rw [List.length_cons, Nat.succ_mul, Nat.add_comm]
    exact .cons ht ih

section Runs

variable {ts us : List (Thread σ β)} {bs : List β} {k n : Nat}

/-- **The order does not matter**: when all threads have ended, each ended with what its loop ends with alone. -/
theorem Rounds.results (h : List.Forall₂ (fun t b => Owes body b k t) ts bs) {bs' : List β}
    (hr : Rounds body n ts (bs'.map .ended)) : bs' = bs := by
  obtain ⟨m, -, hlast⟩ := hr.owing (owing_start h)
  exact hlast.ended

/-- **No order goes on for ever.** -/
theorem Rounds.bounded (h : List.Forall₂ (fun t b => Owes body b k t) ts bs) (hr : Rounds body n ts us) :
    n ≤ ts.length * k := by
  obtain ⟨m, hm, -⟩ := hr.owing (owing_start h)
  omega

/-- **No order gets stuck**: a thread that has not ended can take a round. -/
theorem Rounds.goes_on (h : List.Forall₂ (fun t b => Owes body b k t) ts bs) (hr : Rounds body n ts us)
    {s : σ} (hs : .running s ∈ us) : ∃ vs, Step body us vs := by
  obtain ⟨m, -, hlast⟩ := hr.owing (owing_start h)
  have hround : ∃ flow, body s = .ok flow := by
    clear hr h
    induction hlast with
    | nil => cases hs
    | @cons t ts b bs k' n' ht _ ih =>
      rcases List.mem_cons.1 hs with rfl | hs
      · cases k' with
        | zero => cases ht
        | succ k' =>
          obtain ⟨flow, hflow, -⟩ := bind_eq_ok.1 ht
          exact ⟨flow, hflow⟩
      · exact ih hs
  obtain ⟨flow, hflow⟩ := hround
  obtain ⟨before, after, rfl⟩ := List.append_of_mem hs
  exact ⟨_, .round hflow⟩

end Runs

section Shares

/-- What a thread has before it at round `d`, of work that is shared out in strides of `k`. -/
def share (work : Nat → Nat) (n k d : Nat) : Nat := ∑ e ∈ Finset.Ico d n with e % k = d % k, work e

variable {work : Nat → Nat} {n k d : Nat}

theorem share_lt (hk : 0 < k) (h : d < n) : share work n k d = work d + share work n k (d + k) := by
  have hsplit : {e ∈ Finset.Ico d n | e % k = d % k} = insert d {e ∈ Finset.Ico (d + k) n | e % k = (d + k) % k} := by
    ext e
    rw [Finset.mem_insert, Finset.mem_filter, Finset.mem_filter, Finset.mem_Ico, Finset.mem_Ico, Nat.add_mod_right]
    refine ⟨fun ⟨⟨hde, hen⟩, hmod⟩ => ?_, ?_⟩
    · rcases Nat.eq_or_lt_of_le hde with rfl | hlt
      · exact .inl rfl
      · have hdvd : k ∣ e - d := Nat.dvd_of_mod_eq_zero (Nat.sub_mod_eq_zero_of_mod_eq hmod)
        have hle := Nat.le_of_dvd (Nat.sub_pos_of_lt hlt) hdvd
        exact .inr ⟨⟨by omega, hen⟩, hmod⟩
    · rintro (rfl | ⟨⟨hde, hen⟩, hmod⟩)
      · exact ⟨⟨Nat.le_refl _, h⟩, rfl⟩
      · exact ⟨⟨by omega, hen⟩, hmod⟩
  unfold share
  rw [hsplit, Finset.sum_insert]
  rw [Finset.mem_filter, Finset.mem_Ico]
  omega

theorem share_ge (h : n ≤ d) : share work n k d = 0 := by
  unfold share
  rw [Finset.Ico_eq_empty_of_le h]
  rfl

/-- The shares of all threads come to all the work. -/
theorem sum_share (work : Nat → Nat) (n : Nat) (hk : 0 < k) :
    ((List.range k).map (share work n k)).sum = ((List.range n).map work).sum := by
  rw [← List.sum_toFinset _ List.nodup_range, ← List.sum_toFinset _ List.nodup_range, List.toFinset_range, List.toFinset_range,
    ← Finset.sum_fiberwise_of_maps_to (fun e _ => Finset.mem_range.2 (Nat.mod_lt e hk)) work]
  apply Finset.sum_congr rfl
  intro t ht
  unfold share
  -- a number that is congruent to `t` is not below it
  apply Finset.sum_congr ?_ fun _ _ => rfl
  ext e
  rw [Finset.mem_filter, Finset.mem_filter, Finset.mem_Ico, Finset.mem_range, Nat.mod_eq_of_lt (Finset.mem_range.1 ht)]
  refine ⟨fun ⟨⟨_, hen⟩, hmod⟩ => ⟨hen, hmod⟩, fun ⟨hen, hmod⟩ => ⟨⟨hmod ▸ Nat.mod_le e k, hen⟩, hmod⟩⟩

end Shares
end Support.Threads
