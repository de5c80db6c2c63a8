import Bytepair.Census.Fragments
import Bytepair.Census.Prover
import Mathlib.Data.List.Induction
import Mathlib.Data.List.Infix

/-!
# The alignments of the prover

What `alignment_units` finds for a fragment of well-formed text: the one place where its first character can end, and
for each of its characters a set of classes that the character's own is in. It finds nothing only where the
fragment has more characters than the array for them: `proveImpossible_fragment`.
-/

namespace Bytepair
open Support

variable {T : Tables}

section Sets

theorem meets_or (a b c : Nat) : meets (a ||| b) c = (meets a c || meets b c) := by
  unfold meets
  rw [Nat.and_or_distrib_right, ← Bool.decide_or]
  apply decide_eq_decide.2
  rw [Ne, Nat.or_eq_zero_iff, not_and_or]

theorem meets_foldl (cps : List Nat) (bits c : Nat) :
    meets (cps.foldl (fun bits cp => bits ||| cpUnit T cp) bits) c =
      (meets bits c || cps.any fun cp => meets (cpUnit T cp) c) := by
  induction cps generalizing bits with
  | nil => rw [List.foldl_nil, List.any_nil, Bool.or_false]
  | cons cp cps ih => rw [List.foldl_cons, ih, meets_or, List.any_cons, Bool.or_assoc]

/-- The union has the classes of its code points and no others. -/
theorem meets_unionBits (cps : List Nat) (c : Nat) :
    meets (unionBits T cps).1 c = true ↔ ∃ cp ∈ cps, meets (cpUnit T cp) c = true := by
  have hzero : meets 0 c = false := by
    unfold meets
    rw [Nat.zero_and]
    rfl
  show meets (cps.foldl (fun bits cp => bits ||| cpUnit T cp) 0) c = true ↔ _
  rw [meets_foldl, hzero, Bool.false_or, List.any_eq_true]

theorem unionBits_qcno {cps : List Nat} (h : (unionBits T cps).2 = true) : ∀ cp ∈ cps, T.bpNfcQc cp = 0 := by
  have hall := (Bool.and_eq_true_iff.1 h).2
  intro cp hcp
  exact of_decide_eq_true (List.all_eq_true.1 hall cp hcp)

theorem cpUnit_self (u : Nat) : meets (cpUnit T u) (cpUnit T u) = true := by
  unfold cpUnit
  dsimp only
  split_ifs <;> rfl

theorem cpUnit_space (u : Nat) : meets (cpUnit T u) U_SP = true ↔ u = 0x20 := by
  unfold cpUnit
  dsimp only
  split_ifs with h
  · exact iff_of_true rfl h
  all_goals exact iff_of_false (by decide) h

/-- The set of classes has that of the unit, and that of the space for the space alone. -/
structure Admits (T : Tables) (bits u : Nat) : Prop where
  class_mem : ∀ c, meets (cpUnit T u) c = true → meets bits c = true
  space : meets bits U_SP = true → u = 0x20

theorem admits_cpUnit (u : Nat) : Admits T (cpUnit T u) u := ⟨fun _ h => h, (cpUnit_space u).1⟩

/-- The union over characters of more than one byte. -/
theorem admits_unionBits {cps : List Nat} {u : Nat} (hu : u ∈ cps) (hcps : ∀ cp ∈ cps, 0x80 ≤ cp) :
    Admits T (unionBits T cps).1 u where
  class_mem c hc := (meets_unionBits cps c).2 ⟨u, hu, hc⟩
  space hsp := by
    obtain ⟨cp, hcp, hspace⟩ := (meets_unionBits cps U_SP).1 hsp
    have hcp := hcps cp hcp
    rw [(cpUnit_space cp).1 hspace] at hcp
    omega

theorem Admits.ne_zero {bits u : Nat} (h : Admits T bits u) : bits ≠ 0 := by
  rintro rfl
  have hmeets := h.class_mem _ (cpUnit_self u)
  unfold meets at hmeets
  rw [Nat.zero_and] at hmeets
  cases hmeets

end Sets

section Leads

theorem utf8LenFromLead_eq (b : UInt8) :
    utf8LenFromLead b =
      if b.toNat < 0x80 then 1
      else if 0xC2 ≤ b.toNat ∧ b.toNat ≤ 0xDF then 2
      else if 0xE0 ≤ b.toNat ∧ b.toNat ≤ 0xEF then 3
      else if 0xF0 ≤ b.toNat ∧ b.toNat ≤ 0xF4 then 4
      else 0 := by
  simp only [utf8LenFromLead, UInt8.lt_iff_toNat_lt, UInt8.le_iff_toNat_le, UInt8.reduceToNat, Bool.and_eq_true,
    decide_eq_true_eq]

theorem utf8LenFromLead_cont {b : UInt8} (h : notCont b = false) : utf8LenFromLead b = 0 := by
  have hb := (notCont_eq_false_iff b).1 h
  rw [utf8LenFromLead_eq, if_neg (by omega), if_neg (by omega), if_neg (by omega), if_neg (by omega)]

/-- How many bytes the UTF-8 of a scalar value has, and what the last of them hold of it. -/
theorem encodeUnit_bytes {u : Nat} (hu : IsScalar u) :
    (u < 0x80 ∧ ∃ b₀, encodeUnit u = [b₀] ∧ b₀.toNat = u) ∨
    (0x80 ≤ u ∧ u < 0x800 ∧ ∃ b₀ b₁, encodeUnit u = [b₀, b₁] ∧ b₀.toNat = 0xC0 + u / 64 ∧ b₁.toNat = 0x80 + u % 64) ∨
    (0x800 ≤ u ∧ u < 0x10000 ∧ ∃ b₀ b₁ b₂, encodeUnit u = [b₀, b₁, b₂] ∧ b₀.toNat = 0xE0 + u / 4096 ∧
      b₁.toNat = 0x80 + u / 64 % 64 ∧ b₂.toNat = 0x80 + u % 64) ∨
    (0x10000 ≤ u ∧ u < 0x110000 ∧ ∃ b₀ b₁ b₂ b₃, encodeUnit u = [b₀, b₁, b₂, b₃] ∧ b₀.toNat = 0xF0 + u / 262144 ∧
      b₁.toNat = 0x80 + u / 4096 % 64 ∧ b₂.toNat = 0x80 + u / 64 % 64 ∧ b₃.toNat = 0x80 + u % 64) := by
  have ofNat : ∀ n, n < 256 → (UInt8.ofNat n).toNat = n := fun n hn => UInt8.toNat_ofNat_of_lt' hn
  have hlt := hu.lt
  rcases Nat.lt_or_ge u 0x80 with h1 | h1
  · exact .inl ⟨h1, _, encodeUnit_one h1, ofNat _ (by omega)⟩
  rcases Nat.lt_or_ge u 0x800 with h2 | h2
  · have e0 := ofNat (0xC0 + u / 64) (by omega)
    have e1 := ofNat (0x80 + u % 64) (by omega)
    exact .inr (.inl ⟨h1, h2, _, _, encodeUnit_two h1 h2 e0 e1, e0, e1⟩)
  rcases Nat.lt_or_ge u 0x10000 with h3 | h3
  · have e0 := ofNat (0xE0 + u / 4096) (by omega)
    have e1 := ofNat (0x80 + u / 64 % 64) (by omega)
    have e2 := ofNat (0x80 + u % 64) (by omega)
    exact .inr (.inr (.inl ⟨h2, h3, _, _, _, encodeUnit_three h2 h3 e0 e1 e2, e0, e1, e2⟩))
  · have e0 := ofNat (0xF0 + u / 262144) (by omega)
    have e1 := ofNat (0x80 + u / 4096 % 64) (by omega)
    have e2 := ofNat (0x80 + u / 64 % 64) (by omega)
    have e3 := ofNat (0x80 + u % 64) (by omega)
    exact .inr (.inr (.inr ⟨h3, hlt, _, _, _, _, encodeUnit_four h3 hlt e0 e1 e2 e3, e0, e1, e2, e3⟩))

/-- The first byte of a scalar value gives the number of its bytes. -/
theorem utf8LenFromLead_encodeUnit {u : Nat} (hu : IsScalar u) {b : UInt8} {t : List UInt8} (h : encodeUnit u = b :: t) :
    utf8LenFromLead b = (encodeUnit u).length := by
  rw [utf8LenFromLead_eq]
  rcases encodeUnit_bytes hu with ⟨hu', b₀, henc, h₀⟩ | ⟨hlo, hhi, b₀, b₁, henc, h₀, -⟩ |
    ⟨hlo, hhi, b₀, b₁, b₂, henc, h₀, -⟩ | ⟨hlo, hhi, b₀, b₁, b₂, b₃, henc, h₀, -⟩
  · rw [henc] at h ⊢
    cases h
    rw [if_pos (by omega)]
    rfl
  · rw [henc] at h ⊢
    cases h
    rw [if_neg (by omega), if_pos (by omega)]
    rfl
  · rw [henc] at h ⊢
    cases h
    rw [if_neg (by omega), if_neg (by omega), if_pos (by omega)]
    rfl
  · rw [henc] at h ⊢
    cases h
    rw [if_neg (by omega), if_neg (by omega), if_neg (by omega), if_pos (by omega)]
    rfl

theorem length_encodeUnit_eq_one {u : Nat} (hu : IsScalar u) : (encodeUnit u).length = 1 ↔ u < 0x80 := by
  rcases encodeUnit_bytes hu with ⟨hu', b₀, henc, -⟩ | ⟨hlo, -, b₀, b₁, henc, -⟩ |
    ⟨hlo, -, b₀, b₁, b₂, henc, -⟩ | ⟨hlo, -, b₀, b₁, b₂, b₃, henc, -⟩
  · exact iff_of_true (by rw [henc]; rfl) hu'
  all_goals
    refine iff_of_false ?_ (Nat.not_lt.2 (by omega))
    rw [henc]
    simp

theorem countP_encodeUnit {u : Nat} (hu : IsScalar u) : (encodeUnit u).countP notCont = 1 := by
  obtain ⟨b₀, conts, henc, hb₀, hconts⟩ := encodeUnit_shape hu.lt
  rw [henc, List.countP_cons_of_pos hb₀, List.countP_eq_zero.2]
  exact fun b hb => by rw [hconts b hb]; exact Bool.false_ne_true

end Leads

section Suffixes

theorem cont_eq {b : UInt8} (h : notCont b = false) : 0x80 ||| UInt8.ofNat (b.toNat % 64) = b := by
  obtain ⟨hlo, hhi⟩ := (notCont_eq_false_iff b).1 h
  have all : ∀ n : Fin 64, ((0x80 : UInt8) ||| UInt8.ofNat n.1).toNat = 0x80 + n.1 := by decide +kernel
  apply UInt8.toNat_inj.1
  rw [all ⟨b.toNat % 64, Nat.mod_lt _ (by decide)⟩]
  show 0x80 + b.toNat % 64 = b.toNat
  omega

/-- Some number is written as the bytes. -/
theorem contBytes_surjective {cs : List UInt8} (h : ∀ b ∈ cs, notCont b = false) :
    ∃ n < 64 ^ cs.length, contBytes cs.length n = cs := by
  induction cs using List.reverseRecOn with
  | nil => exact ⟨0, by simp, rfl⟩
  | append_singleton cs b ih =>
    obtain ⟨hcs, hb⟩ := List.forall_mem_append.1 h
    obtain ⟨n, hn, hn'⟩ := ih hcs
    refine ⟨n * 64 + b.toNat % 64, ?_, ?_⟩
    · rw [List.length_append, List.length_singleton, Nat.pow_succ]
      omega
    · rw [List.length_append, List.length_singleton, contBytes, show (n * 64 + b.toNat % 64) / 64 = n by omega,
        show (n * 64 + b.toNat % 64) % 64 = b.toNat % 64 by omega, hn', cont_eq (hb b (List.mem_singleton_self b))]

theorem completion_eq_some {need cp : Nat} {p : List UInt8} (h : completion need p = some cp) :
    IsScalar cp ∧ (encodeUnit cp).length = need := by
  unfold completion at h
  split at h
  · cases h
  · next b rest =>
    rcases bpUtf8Next_cases b rest with ⟨u, t, hu, -, hnext⟩ | ⟨-, hnext⟩
    · rw [hnext] at h
      simp only [Bool.and_eq_true, decide_eq_true_eq, Option.ite_none_right_eq_some] at h
      obtain ⟨⟨-, hneed⟩, hcp⟩ := h
      cases hcp
      exact ⟨hu, hneed⟩
    · rw [hnext] at h
      simp at h

theorem completion_encodeUnit {u : Nat} (hu : IsScalar u) :
    completion (encodeUnit u).length (encodeUnit u) = some u := by
  obtain ⟨b, rest, henc⟩ := List.exists_cons_of_ne_nil (encodeUnit_ne_nil u)
  have hnext := bpUtf8Next_encodeUnit hu (show b :: rest = encodeUnit u ++ [] by rw [henc, List.append_nil])
  rw [henc] at hnext ⊢
  rw [completion, hnext]
  simp [hu.ne_malformed]

variable {u : Nat} {b : UInt8} {rest c : List UInt8}

/-- The candidates for the first bytes of a character, which is one of them. -/
theorem suffixCandidates_spec (hu : IsScalar u) (h : encodeUnit u = b :: rest ++ c) (hc : c ≠ []) :
    u ∈ suffixCandidates (utf8LenFromLead b) (b :: rest) ∧
      ∀ cp ∈ suffixCandidates (utf8LenFromLead b) (b :: rest), 0x80 ≤ cp := by
  have hneed := utf8LenFromLead_encodeUnit hu h
  obtain ⟨b₀, conts, henc, -, hconts⟩ := encodeUnit_shape hu.lt
  have hlen : (encodeUnit u).length - (b :: rest).length = c.length := by
    rw [h, List.length_append, Nat.add_sub_cancel_left]
  rw [hneed]
  unfold suffixCandidates
  rw [hlen]
  constructor
  · have hcs : ∀ d ∈ c, notCont d = false := by
      intro d hd
      rw [henc, List.cons_append] at h
      exact hconts d (by rw [(List.cons.inj h).2]; simp [hd])
    obtain ⟨n, hn, hbytes⟩ := contBytes_surjective hcs
    apply List.mem_filterMap.2
    refine ⟨n, List.mem_range.2 hn, ?_⟩
    rw [hbytes, ← h, completion_encodeUnit hu]
  · intro cp hcp
    obtain ⟨n, -, hcompletion⟩ := List.mem_filterMap.1 hcp
    obtain ⟨hscalar, hlength⟩ := completion_eq_some hcompletion
    apply Nat.le_of_not_lt
    intro hlt
    rw [(length_encodeUnit_eq_one hscalar).2 hlt, h, List.length_append, List.length_cons] at hlength
    have hpos := List.length_pos_iff.2 hc
    omega

/-- **The first bytes of a character** at the end of a token. -/
theorem partialSuffixBits_spec (hu : IsScalar u) (h : encodeUnit u = b :: rest ++ c) (hc : c ≠ []) :
    Admits T (partialSuffixBits T b rest).1 u ∧ ((partialSuffixBits T b rest).2 = true → T.bpNfcQc u = 0) := by
  obtain ⟨hmem, hcps⟩ := suffixCandidates_spec hu h hc
  have hneed := utf8LenFromLead_encodeUnit hu h
  have hpos := List.length_pos_iff.2 hc
  obtain ⟨b₀, conts, henc, -, hconts⟩ := encodeUnit_shape hu.lt
  have hrest : rest.any notCont = false := by
    apply List.any_eq_false.2
    intro d hd
    rw [henc, List.cons_append] at h
    rw [hconts d (by rw [(List.cons.inj h).2]; simp [hd])]
    exact Bool.false_ne_true
  have hlong : ¬(decide (utf8LenFromLead b = 0) || decide (utf8LenFromLead b ≤ rest.length + 1)) = true := by
    rw [hneed, h, List.length_append, List.length_cons]
    simp only [Bool.or_eq_true, decide_eq_true_eq]
    omega
  have hbits : partialSuffixBits T b rest = unionBits T (suffixCandidates (utf8LenFromLead b) (b :: rest)) := by
    unfold partialSuffixBits
    rw [if_neg hlong, hrest, if_neg Bool.false_ne_true]
  rw [hbits]
  exact ⟨admits_unionBits hmem hcps, fun hqc => unionBits_qcno hqc u hmem⟩

end Suffixes

section Prefixes

/-- The number that continuation bytes hold. -/
theorem foldl_cont (low : Nat) (b : UInt8) : low <<< 6 ||| (b &&& 63).toNat = low * 64 + b.toNat % 64 := by
  have hlow : (b &&& 63).toNat = b.toNat % 64 := and_3F b
  rw [hlow, shift6_or (Nat.mod_lt _ (by decide))]

/-- The last bytes of a character hold its low bits. -/
theorem foldl_conts {u : Nat} (hu : IsScalar u) {a p : List UInt8} (h : encodeUnit u = a ++ p) (ha : a ≠ []) :
    p.foldl (fun low b => low <<< 6 ||| (b &&& 63).toNat) 0 = u % 64 ^ p.length := by
  simp only [foldl_cont]
  obtain ⟨d, a, rfl⟩ := List.exists_cons_of_ne_nil ha
  have tail : ∀ {b cs}, encodeUnit u = b :: cs → p ∈ cs.tails := by
    intro b cs henc
    rw [henc] at h
    exact (List.mem_tails _ _).2 ⟨a, (List.cons.inj h).2.symm⟩
  rcases encodeUnit_bytes hu with ⟨-, b₀, henc, -⟩ | ⟨-, -, b₀, b₁, henc, -, h₁⟩ |
    ⟨-, -, b₀, b₁, b₂, henc, -, h₁, h₂⟩ | ⟨-, -, b₀, b₁, b₂, b₃, henc, -, h₁, h₂, h₃⟩
  all_goals
    have hp := tail henc
    simp only [List.tails, List.mem_cons, List.not_mem_nil, or_false] at hp
  · rw [hp]
    exact (Nat.mod_one u).symm
  · rcases hp with rfl | rfl <;> simp only [List.foldl, List.length, Nat.reducePow] <;> omega
  · rcases hp with rfl | rfl | rfl <;> simp only [List.foldl, List.length, Nat.reducePow] <;> omega
  · rcases hp with rfl | rfl | rfl | rfl <;> simp only [List.foldl, List.length, Nat.reducePow] <;> omega

/-- A number is one of those that end in its low bits. -/
theorem mem_highCandidates {lo hi cp : Nat} (k : Nat) (hlo : lo ≤ cp) (hhi : cp ≤ hi) (hs : IsScalar cp) :
    cp ∈ highCandidates lo hi k (cp % 64 ^ k) := by
  have hpow : 64 ^ k = 2 ^ (6 * k) := (Nat.pow_mul 2 6 k).symm
  have hlow : cp % 64 ^ k < 2 ^ (6 * k) := by
    rw [hpow]
    exact Nat.mod_lt _ (Nat.two_pow_pos _)
  generalize hf : (fun high => high <<< (6 * k) ||| cp % 64 ^ k) = f
  have hvalue : ∀ high, f high = high * 2 ^ (6 * k) + cp % 64 ^ k := by
    intro high
    rw [← hf, ← Nat.shiftLeft_eq, Nat.shiftLeft_add_eq_or_of_lt hlow]
  have hcp : f (cp / 64 ^ k) = cp := by
    rw [hvalue, ← hpow, Nat.mul_comm]
    exact Nat.div_add_mod cp (64 ^ k)
  -- the numbers below it are in front of it, and none is above the bound
  have hle : cp / 64 ^ k + 1 ≤ hi >>> (6 * k) + 1 := by
    rw [Nat.shiftRight_eq_div_pow, hpow]
    exact Nat.succ_le_succ (Nat.div_le_div_right hhi)
  obtain ⟨more, hmore⟩ := Nat.exists_eq_add_of_le hle
  have hfront : ∀ x ∈ (List.range (cp / 64 ^ k + 1)).map f, decide (x ≤ hi) = true := by
    intro x hx
    obtain ⟨high, hhigh, rfl⟩ := List.mem_map.1 hx
    have hmul := Nat.mul_le_mul_right (2 ^ (6 * k)) (Nat.le_of_lt_succ (List.mem_range.1 hhigh))
    have hcp' := hcp
    rw [hvalue] at hcp'
    rw [decide_eq_true_eq, hvalue]
    omega
  unfold highCandidates
  rw [hf]
  apply List.mem_filter.2
  constructor
  · rw [hmore, List.range_add, List.map_append, List.takeWhile_append_of_pos hfront]
    apply List.mem_append_left
    exact List.mem_map.2 ⟨cp / 64 ^ k, List.mem_range.2 (Nat.lt_succ_self _), hcp⟩
  · unfold IsScalar at hs
    simp only [Bool.and_eq_true, Bool.not_eq_true', decide_eq_true_eq, Bool.and_eq_false_iff, decide_eq_false_iff_not]
    omega

theorem lengthRange_spec {u : Nat} (hu : IsScalar u) (h : 2 ≤ (encodeUnit u).length) :
    (lengthRange (encodeUnit u).length).1 ≤ u ∧ u ≤ (lengthRange (encodeUnit u).length).2 := by
  rcases encodeUnit_bytes hu with ⟨hu', b₀, henc, -⟩ | ⟨hlo, hhi, b₀, b₁, henc, -⟩ |
    ⟨hlo, hhi, b₀, b₁, b₂, henc, -⟩ | ⟨hlo, hhi, b₀, b₁, b₂, b₃, henc, -⟩
  · rw [henc] at h
    exact absurd h (Nat.not_succ_le_self 1)
  all_goals
    rw [henc]
    exact ⟨hlo, Nat.le_pred_of_lt hhi⟩

variable {u : Nat} {a p : List UInt8}

/-- The candidates for the last bytes of a character, which is one of them. -/
theorem prefixCandidates_spec (hu : IsScalar u) (h : encodeUnit u = a ++ p) (ha : a ≠ []) (hp : p ≠ []) :
    u ∈ prefixCandidates p ∧ ∀ cp ∈ prefixCandidates p, 0x80 ≤ cp := by
  have hlen := congrArg List.length h
  have hpos := List.length_pos_iff.2 ha
  have hpos' := List.length_pos_iff.2 hp
  have hfour := length_encodeUnit_le u
  rw [List.length_append] at hlen
  unfold prefixCandidates
  dsimp only
  rw [foldl_conts hu h ha]
  constructor
  · obtain ⟨hlo, hhi⟩ := lengthRange_spec hu (by omega)
    apply List.mem_flatMap.2
    refine ⟨(encodeUnit u).length, ?_, mem_highCandidates _ hlo hhi hu⟩
    rw [List.mem_range'_1]
    omega
  · intro cp hcp
    obtain ⟨m, hm, hcp⟩ := List.mem_flatMap.1 hcp
    have hlo := (List.mem_filter.1 hcp).2
    simp only [Bool.and_eq_true, decide_eq_true_eq] at hlo
    have hrange : 0x80 ≤ (lengthRange m).1 := by
      unfold lengthRange
      split_ifs <;> decide
    omega

/-- **The last bytes of a character** at the start of a token. -/
theorem partialPrefixBits_spec (hu : IsScalar u) (h : encodeUnit u = a ++ p) (ha : a ≠ []) (hp : p ≠ []) :
    Admits T (partialPrefixBits T p).1 u ∧ ((partialPrefixBits T p).2 = true → T.bpNfcQc u = 0) := by
  obtain ⟨hmem, hcps⟩ := prefixCandidates_spec hu h ha hp
  exact ⟨admits_unionBits hmem hcps, fun hqc => unionBits_qcno hqc u hmem⟩

end Prefixes

section Alignments

variable {u : Nat} {b : UInt8} {rest : List UInt8}

/-- A round over a whole character. -/
theorem alignFrom_unit (hu : IsScalar u) {t : List UInt8} (h : b :: rest = encodeUnit u ++ t) (fuel : Nat)
    (sets : List Nat) (qcno : Bool) :
    alignFrom T (fuel + 1) (b :: rest) sets qcno =
      if MAX_UNITS ≤ sets.length then none
      else alignFrom T fuel t (sets ++ [cpUnit T u]) (qcno || T.bpNfcQc u = 0) := by
  obtain ⟨b₀, conts, henc, -, -⟩ := encodeUnit_shape hu.lt
  have hhead : b = b₀ := by
    rw [henc, List.cons_append] at h
    exact (List.cons.inj h).1
  have hneed := utf8LenFromLead_encodeUnit hu (hhead ▸ henc)
  have hlen := congrArg List.length h
  rw [List.length_cons, List.length_append] at hlen
  have hpos := length_encodeUnit_pos u
  rw [alignFrom, hneed, bpUtf8Next_encodeUnit hu h]
  dsimp only
  rw [if_neg (by omega), if_pos (by omega), h, List.drop_left, if_neg]
  simp [hu.ne_malformed]

/-- The round over the first bytes of a character. -/
theorem alignFrom_cutoff (hu : IsScalar u) {c : List UInt8} (h : encodeUnit u = b :: rest ++ c) (hc : c ≠ [])
    (fuel : Nat) (sets : List Nat) (qcno : Bool) :
    alignFrom T (fuel + 1) (b :: rest) sets qcno =
      if MAX_UNITS ≤ sets.length then none
      else some (sets ++ [(partialSuffixBits T b rest).1], qcno || (partialSuffixBits T b rest).2) := by
  have hneed := utf8LenFromLead_encodeUnit hu h
  have hlen := congrArg List.length h
  have hpos := List.length_pos_iff.2 hc
  rw [List.length_append, List.length_cons] at hlen
  have hbits := (partialSuffixBits_spec (T := T) hu h hc).1.ne_zero
  rw [alignFrom, hneed]
  dsimp only
  rw [if_neg (by omega), if_neg (by omega), if_neg hbits]

/-- **The loop of an alignment** over the first bytes of some units: it comes to the end of its array, or to a set of
classes for each of the first of them. -/
theorem alignFrom_spec {us : List Nat} (hus : ∀ u ∈ us, IsScalar u) {s : List UInt8} (hs : s <+: encodeUnits us)
    {fuel : Nat} (hfuel : s.length ≤ fuel) {sets : List Nat} (hne : s ≠ [] ∨ sets ≠ []) (qcno : Bool) :
    alignFrom T fuel s sets qcno = none ∧ MAX_UNITS < sets.length + s.countP notCont ∨
    ∃ n bits qcno', alignFrom T fuel s sets qcno = some (sets ++ bits, qcno') ∧
      List.Forall₂ (Admits T) bits (us.take n) ∧ (qcno' = true → qcno = true ∨ ∃ u ∈ us.take n, T.bpNfcQc u = 0) := by
  induction us generalizing s fuel sets qcno with
  | nil =>
    obtain rfl := List.prefix_nil.1 hs
    have hsets : sets ≠ [] := hne.resolve_left (absurd rfl)
    refine .inr ⟨0, [], qcno, ?_, .nil, .inl⟩
    rw [List.append_nil]
    cases fuel <;> exact if_neg hsets
  | cons u us ih =>
    cases s with
    | nil =>
      have hsets : sets ≠ [] := hne.resolve_left (absurd rfl)
      refine .inr ⟨0, [], qcno, ?_, .nil, .inl⟩
      rw [List.append_nil]
      cases fuel <;> exact if_neg hsets
    | cons b rest =>
      obtain ⟨hu, hus⟩ := List.forall_mem_cons.1 hus
      obtain ⟨more, hmore⟩ := hs
      obtain ⟨fuel, rfl⟩ : ∃ k, fuel = k + 1 := ⟨fuel - 1, by rw [List.length_cons] at hfuel; omega⟩
      rw [encodeUnits_cons] at hmore
      -- the whole character, or not all its bytes
      have hcut : (∃ t, b :: rest = encodeUnit u ++ t ∧ t <+: encodeUnits us) ∨
          ∃ c, c ≠ [] ∧ encodeUnit u = b :: rest ++ c := by
        rcases List.append_eq_append_iff.1 hmore with ⟨c, hu', hmore'⟩ | ⟨t, hs, hus'⟩
        · rcases eq_or_ne c [] with rfl | hc
          · exact .inl ⟨[], by rw [hu', List.append_nil, List.append_nil], List.nil_prefix⟩
          · exact .inr ⟨c, hc, hu'⟩
        · exact .inl ⟨t, hs, ⟨more, hus'.symm⟩⟩
      rcases hcut with ⟨t, hs, ht⟩ | ⟨c, hc, hu'⟩
      · have hcount : (b :: rest).countP notCont = 1 + t.countP notCont := by
          rw [hs, List.countP_append, countP_encodeUnit hu]
        have hlen := congrArg List.length hs
        rw [List.length_append] at hlen
        have hpos := length_encodeUnit_pos u
        rw [alignFrom_unit hu hs, hcount]
        split
        · next hfull => exact .inl ⟨rfl, by omega⟩
        · rcases ih hus ht (show t.length ≤ fuel by omega)
            (.inr (List.append_ne_nil_of_right_ne_nil sets (List.cons_ne_nil (cpUnit T u) []))) (qcno || T.bpNfcQc u = 0) with ⟨hnone, hmax⟩ | ⟨n, bits, qcno', hsome, hbits, hqc⟩
          · rw [List.length_append, List.length_singleton] at hmax
            exact .inl ⟨hnone, by omega⟩
          · refine .inr ⟨n + 1, cpUnit T u :: bits, qcno', ?_, .cons (admits_cpUnit u) hbits, fun h => ?_⟩
            · rw [hsome, List.append_assoc]
              rfl
            · rcases hqc h with h | ⟨w, hw, hw'⟩
              · rw [Bool.or_eq_true, decide_eq_true_eq] at h
                exact h.imp_right fun h => ⟨u, List.mem_cons_self, h⟩
              · exact .inr ⟨w, List.mem_cons_of_mem u hw, hw'⟩
      · obtain ⟨hbits, hqc⟩ := partialSuffixBits_spec (T := T) hu hu' hc
        obtain ⟨b₀, conts, henc, hb₀, -⟩ := encodeUnit_shape hu.lt
        have hb : notCont b = true := by
          rw [henc, List.cons_append] at hu'
          rwa [← (List.cons.inj hu').1]
        rw [alignFrom_cutoff hu hu' hc, List.countP_cons_of_pos hb]
        split
        · next hfull => exact .inl ⟨rfl, by omega⟩
        · refine .inr ⟨1, [(partialSuffixBits T b rest).1], _, rfl, .cons hbits .nil, fun h => ?_⟩
          rw [Bool.or_eq_true] at h
          exact h.imp_right fun h => ⟨u, List.mem_cons_self, hqc h⟩

/-- Bytes are cut at the end of their first character, or not at all. -/
theorem alignmentUnits_none {s : List UInt8} {j : Nat} (hj : j < s.length) (hne : j ≠ (s.takeWhile (!notCont ·)).length) :
    alignmentUnits T s j = none := by
  have hcut : s.takeWhile (!notCont ·) ++ s.dropWhile (!notCont ·) = s := List.takeWhile_append_dropWhile
  have hconts := takeWhile_conts s
  have hrest := dropWhile_conts s
  generalize s.takeWhile (!notCont ·) = p at hcut hconts hne
  generalize s.dropWhile (!notCont ·) = r at hcut hrest
  subst hcut
  rcases Nat.lt_or_gt_of_ne hne with hlt | hgt
  · -- the byte behind the cut continues a character
    have hstuck : ∀ fuel sets qcno, fuel ≠ 0 → alignFrom T fuel ((p ++ r).drop j) sets qcno = none := by
      intro fuel sets qcno hfuel
      obtain ⟨fuel, rfl⟩ := Nat.exists_eq_succ_of_ne_zero hfuel
      have hb : notCont p[j] = false := hconts _ (List.getElem_mem hlt)
      rw [List.drop_eq_getElem_cons hj, List.getElem_append_left hlt, alignFrom, utf8LenFromLead_cont hb]
      rfl
    have hlen : (p ++ r).length ≠ 0 := by omega
    unfold alignmentUnits
    split
    · next hzero =>
      have hstuck := hstuck (p ++ r).length [] false hlen
      rwa [hzero, List.drop_zero] at hstuck
    · split
      · rfl
      · dsimp only
        split
        · rfl
        · exact hstuck _ _ _ hlen
  · -- the cut is behind a byte that begins a character
    cases r with
    | nil =>
      rw [List.append_nil] at hj
      omega
    | cons b r =>
      have hb : notCont b = true := hrest b rfl
      unfold alignmentUnits
      rw [if_neg (by omega), if_pos]
      rw [List.take_append, List.any_append, Bool.or_eq_true]
      right
      obtain ⟨d, hd⟩ : ∃ d, j - p.length = d + 1 := ⟨j - p.length - 1, by omega⟩
      rw [hd, List.take_succ_cons, List.any_cons, hb, Bool.true_or]

/-- The sets of classes of some units, and whether one of these is of quick-check No. -/
structure Reads (T : Tables) (us bits : List Nat) (qcno : Bool) : Prop where
  admits : List.Forall₂ (Admits T) bits us
  excluded : qcno = true → ∃ u ∈ us, T.bpNfcQc u = 0

/-- **The alignment of a fragment** that is not inside a character: all others are rejected, and this one is
read as the units that the fragment has bytes of, unless these are too many. -/
theorem alignmentUnits_fragment {us : List Nat} (hus : ∀ u ∈ us, IsScalar u) {s : List UInt8}
    (hs : s <:+: encodeUnits us) :
    (s.length ≤ 3 ∧ ∀ b ∈ s, notCont b = false) ∨
    ∃ k, k ≤ 3 ∧ k < s.length ∧ s.any notCont = true ∧ (∀ j < s.length, j ≠ k → alignmentUnits T s j = none) ∧
      (alignmentUnits T s k = none ∧ MAX_UNITS < charCount s ∨
        ∃ ws bits qcno, alignmentUnits T s k = some (bits, qcno) ∧ ws <:+: us ∧ Reads T ws bits qcno) := by
  apply (fragment_cases hus hs).imp_right
  rintro ⟨vs, ws, p, s', rfl, rfl, hp, hany, hws, hlead⟩
  obtain ⟨husv, husw⟩ := List.forall_mem_append.1 hus
  have hs' : s' ≠ [] := by
    rintro rfl
    cases hany
  have hpos := List.length_pos_iff.2 hs'
  have hconts : ∀ b ∈ p, notCont b = false := by
    rw [hp]
    exact takeWhile_conts _
  have hcount : (p ++ s').countP notCont = s'.countP notCont := by
    rw [List.countP_append, List.countP_eq_zero.2 fun b hb => by rw [hconts b hb]; exact Bool.false_ne_true, Nat.zero_add]
  have hunits : ∀ {fuel sets qcno}, s'.length ≤ fuel → alignFrom T fuel s' sets qcno = none ∧
      MAX_UNITS < sets.length + s'.countP notCont ∨
    ∃ n bits qcno', alignFrom T fuel s' sets qcno = some (sets ++ bits, qcno') ∧
      List.Forall₂ (Admits T) bits (ws.take n) ∧ (qcno' = true → qcno = true ∨ ∃ u ∈ ws.take n, T.bpNfcQc u = 0) :=
    fun hfuel => alignFrom_spec husw hws hfuel (.inl hs') _
  refine ⟨p.length, ?_, by rw [List.length_append]; omega, ?_, ?_, ?_⟩
  · rcases hlead with rfl | ⟨-, hle, -⟩
    · exact Nat.zero_le _
    · exact hle
  · rw [List.any_append, hany, Bool.or_true]
  · exact fun j hj hne => alignmentUnits_none hj (by rwa [← hp])
  · unfold alignmentUnits charCount
    rw [hcount, ← hp]
    rcases hlead with rfl | ⟨hne, -, vs', u, a, rfl, henc, ha⟩
    · rw [List.length_nil, if_pos rfl, List.nil_append, List.isEmpty_nil, if_pos rfl]
      rcases hunits (Nat.le_refl _) with ⟨hnone, hmax⟩ | ⟨n, bits, qcno, hsome, hbits, hqc⟩
      · exact .inl ⟨hnone, by simpa using hmax⟩
      · refine .inr ⟨ws.take n, bits, qcno, hsome, ?_, hbits, fun h => (hqc h).resolve_left Bool.false_ne_true⟩
        exact (List.take_prefix n ws).isInfix.trans (List.suffix_append vs ws).isInfix
    · obtain ⟨hbits, hqc⟩ := partialPrefixBits_spec (T := T) (husv u (by simp)) henc ha hne
      have hcont : p.any notCont = false := by
        apply List.any_eq_false.2
        exact fun b hb => by rw [hconts b hb]; exact Bool.false_ne_true
      rw [if_neg (List.length_pos_iff.2 hne).ne', List.take_left, hcont, if_neg Bool.false_ne_true, List.drop_left]
      dsimp only
      rw [if_neg hbits.ne_zero, if_neg (by rwa [List.isEmpty_iff])]
      rcases hunits (show s'.length ≤ (p ++ s').length by rw [List.length_append]; omega) with
        ⟨hnone, hmax⟩ | ⟨n, bits, qcno, hsome, hbits', hqc'⟩
      · exact .inl ⟨hnone, by simpa [Nat.add_comm] using hmax⟩
      · refine .inr ⟨u :: ws.take n, _, qcno, hsome, ?_, .cons hbits hbits', fun h => ?_⟩
        · obtain ⟨more, hmore⟩ := List.take_prefix n ws
          refine ⟨vs', more, ?_⟩
          conv_rhs => rw [← hmore]
          simp
        · rcases hqc' h with h | ⟨w, hw, hw'⟩
          · exact ⟨u, List.mem_cons_self, hqc h⟩
          · exact ⟨w, List.mem_cons_of_mem u hw, hw'⟩

end Alignments

section Impossible

/-- Where every alignment but one is rejected, the loop over them comes to what it finds at that one. -/
theorem tryAlignments_none {s : List UInt8} {ks : List Nat} (h : ∀ j ∈ ks, j < s.length → alignmentUnits T s j = none)
    (found : Bool × Bool) : tryAlignments T s ks found = .inr found := by
  induction ks with
  | nil => rfl
  | cons j ks ih =>
    obtain ⟨hj, hks⟩ := List.forall_mem_cons.1 h
    rw [tryAlignments]
    split
    · next hlt =>
      rw [hj hlt]
      exact ih hks
    · rfl

theorem tryAlignments_some {s : List UInt8} {k : Nat} (hk : k < s.length) {bits : List Nat} {qcno : Bool}
    (hbits : alignmentUnits T s k = some (bits, qcno)) {ks ks' : List Nat} (hks : ∀ j ∈ ks, j < k)
    (hothers : ∀ j < s.length, j ≠ k → alignmentUnits T s j = none) (hks' : ∀ j ∈ ks', k < j) :
    tryAlignments T s (ks ++ k :: ks') (false, false) =
      if fitsPretokenLanguage bits then if qcno then .inr (true, true) else .inl .none else .inr (true, false) := by
  induction ks with
  | nil =>
    have hrest : ∀ found, tryAlignments T s ks' found = .inr found :=
      tryAlignments_none fun j hj hlt => hothers j hlt (hks' j hj).ne'
    rw [List.nil_append, tryAlignments, if_pos hk, hbits]
    dsimp only
    rw [hrest, hrest]
  | cons j ks ih =>
    obtain ⟨hj, hks⟩ := List.forall_mem_cons.1 hks
    rw [List.cons_append, tryAlignments, if_pos (hj.trans hk), hothers j (hj.trans hk) hj.ne]
    exact ih hks

/-- **What the prover says of a fragment** that no contraction rules out. -/
theorem proveImpossible_fragment {us : List Nat} (hus : ∀ u ∈ us, IsScalar u) {s : List UInt8}
    (hs : s <:+: encodeUnits us) (hblocked : blockedByContraction T s = false) :
    proveImpossible T s = .none ∨ proveImpossible T s = .invalidUtf8 ∧ MAX_UNITS < charCount s ∨
    ∃ ws bits qcno, ws <:+: us ∧ Reads T ws bits qcno ∧
      proveImpossible T s = if fitsPretokenLanguage bits then if qcno then .nfcExcluded else .none else .pretokenShape := by
  unfold proveImpossible
  rw [hblocked, if_neg Bool.false_ne_true]
  rcases alignmentUnits_fragment (T := T) hus hs with ⟨hlen, hconts⟩ | ⟨k, hk, hlt, hany, hothers, hread⟩
  · left
    have hall : s.takeWhile (!notCont ·) = s := List.takeWhile_eq_self_iff.2 fun b hb => by rw [hconts b hb]; rfl
    have hany : s.any notCont = false := List.any_eq_false.2 fun b hb => by rw [hconts b hb]; exact Bool.false_ne_true
    rw [tryAlignments_none fun j _ hj => alignmentUnits_none hj (by rw [hall]; omega)]
    dsimp only
    rw [hany, Bool.not_false, Bool.and_true, decide_eq_true hlen]
    rfl
  · have hinside : (decide (s.length ≤ 3) && !s.any notCont) = false := by
      rw [hany, Bool.not_true, Bool.and_false]
    rw [hinside]
    right
    rcases hread with ⟨hnone, hmax⟩ | ⟨ws, bits, qcno, hsome, hws, hread⟩
    · left
      rw [tryAlignments_none]
      · exact ⟨rfl, hmax⟩
      · intro j _ hj
        rcases eq_or_ne j k with rfl | hne
        · exact hnone
        · exact hothers j hj hne
    · right
      refine ⟨ws, bits, qcno, hws, hread, ?_⟩
      obtain ⟨ks, ks', hcut, hks, hks'⟩ :
          ∃ ks ks', [0, 1, 2, 3] = ks ++ k :: ks' ∧ (∀ j ∈ ks, j < k) ∧ ∀ j ∈ ks', k < j := by
        obtain rfl | rfl | rfl | rfl : k = 0 ∨ k = 1 ∨ k = 2 ∨ k = 3 := by omega
        · exact ⟨[], [1, 2, 3], rfl, by decide, by decide⟩
        · exact ⟨[0], [2, 3], rfl, by decide, by decide⟩
        · exact ⟨[0, 1], [3], rfl, by decide, by decide⟩
        · exact ⟨[0, 1, 2], [], rfl, by decide, by decide⟩
      rw [hcut, tryAlignments_some hlt hsome hks hothers hks']
      cases fitsPretokenLanguage bits with
      | false => rfl
      | true => cases qcno <;> rfl

end Impossible

end Bytepair
