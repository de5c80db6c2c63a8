import Bytepair.Census.Align
import Bytepair.Scan.Shipped

/-!
# The language of the pretokens

The shapes of what the split regex matches, and that the relaxed language of the prover has every part of a
pretoken however its characters are cut (`fits_of_shape`). Where the prover finds a contraction in
front of letters, the regex has matched the contraction alone: `contraction_pretoken`.
-/

namespace Bytepair
open Support Support.Regex

/-- The letters of the contractions, in either case, and U+017F. -/
def contractionLetters : List Nat :=
  [0x73, 0x74, 0x72, 0x65, 0x76, 0x6D, 0x6C, 0x64, 0x53, 0x54, 0x52, 0x45, 0x56, 0x4D, 0x4C, 0x44, 0x17F]

/-- What the prover needs of the classes besides. -/
structure Tables.Worded (T : Tables) : Prop extends T.Splits where
  apostrophe : isOther T 0x27 = true
  letters : ∀ u ∈ contractionLetters, isL T u = true

theorem shipped_worded : shipped.Worded where
  toSplits := shipped_scannable.toSplits
  apostrophe := by decide +kernel
  letters := by decide +kernel

variable {T : Tables}

section Shapes

/-- A1 and A2, A3, A4, and A5 to A7. -/
inductive Shape (T : Tables) : List Nat → Prop
  | word (pre ls : List Nat) (hpre : pre = [] ∨ ∃ u, pre = [u] ∧ isL T u = false ∧ isN T u = false ∧ isCrLf u = false)
    (hls : ∀ u ∈ ls, isL T u = true) : Shape T (pre ++ ls)
  | number (u : Nat) (hu : isN T u = true) : Shape T [u]
  | symbols (pre os nls : List Nat) (hpre : pre = [] ∨ pre = [0x20]) (hne : os ≠ [])
    (hos : ∀ u ∈ os, isOther T u = true) (hnls : ∀ u ∈ nls, isCrLf u = true) : Shape T (pre ++ (os ++ nls))
  | space (ws : List Nat) (hws : ∀ u ∈ ws, isS T u = true) : Shape T ws

theorem mem_take_run {p : Nat → Bool} {us : List Nat} {n : Nat} (hn : n ≤ run p us) : ∀ u ∈ us.take n, p u = true := by
  intro u hu
  have hsub : us.take n <+: us.takeWhile p := by
    rw [takeWhile_eq_take]
    exact List.take_prefix_take_left hn
  exact List.mem_takeWhile_imp (hsub.subset hu)

theorem take_symbolUnits (us : List Nat) (k : Nat) :
    us.take (symbolUnits T us k) = us.take k ++ ((us.drop k).takeWhile (isOther T) ++
      (us.drop (k + run (isOther T) (us.drop k))).takeWhile isCrLf) := by
  unfold symbolUnits
  dsimp only
  rw [List.take_add, List.take_add, takeWhile_eq_take, takeWhile_eq_take, List.append_assoc]

/-- The letters of a contraction are letters. -/
theorem contractionUnits_letters (us : List Nat) :
    ∀ u ∈ us.take (contractionUnits us), u ∈ contractionLetters := by
  have letter : ∀ k, 0x20 ≤ k → k ∈ contractionLetters → k - 0x20 ∈ contractionLetters → ∀ u, caseless k u = true →
      u ∈ contractionLetters := by
    intro k hk hlower hupper u hu
    rw [caseless, Bool.or_eq_true, decide_eq_true_eq, decide_eq_true_eq] at hu
    rcases hu with rfl | hu
    · exact hlower
    · rwa [show u = k - 0x20 by omega]
  have letter := fun k (hk : 0x20 ≤ k ∧ k ∈ contractionLetters ∧ k - 0x20 ∈ contractionLetters) =>
    letter k hk.1 hk.2.1 hk.2.2
  fun_cases contractionUnits us with
  | case1 =>
    intro u hu
    cases hu
  | case2 c us hc =>
    simp only [Bool.or_eq_true, caselessS, decide_eq_true_eq] at hc
    rw [List.take_succ_cons, List.take_zero]
    rw [List.forall_mem_singleton]
    rcases hc with (((hc | rfl) | hc) | hc) | hc
    · exact letter 0x73 (by decide) c hc
    · decide
    · exact letter 0x74 (by decide) c hc
    · exact letter 0x6D (by decide) c hc
    · exact letter 0x64 (by decide) c hc
  | case3 c =>
    intro u hu
    cases hu
  | case4 c hc d us hcd =>
    simp only [Bool.or_eq_true, Bool.and_eq_true] at hcd
    rw [List.take_succ_cons, List.take_succ_cons, List.take_zero]
    rw [List.forall_mem_cons]
    rw [List.forall_mem_singleton]
    rcases hcd with (⟨hc, hd⟩ | ⟨hc, hd⟩) | ⟨hc, hd⟩
    · exact ⟨letter 0x72 (by decide) c hc, letter 0x65 (by decide) d hd⟩
    · exact ⟨letter 0x76 (by decide) c hc, letter 0x65 (by decide) d hd⟩
    · exact ⟨letter 0x6C (by decide) c hc, letter 0x6C (by decide) d hd⟩
  | case5 =>
    intro u hu
    cases hu

theorem whitespaceUnits_le (us : List Nat) : whitespaceUnits T us ≤ run (isS T) us := by
  have hle : newlineEnd (us.takeWhile (isS T)) ≤ run (isS T) us := (newlineEnd_spec _).1
  unfold whitespaceUnits
  dsimp only
  split_ifs <;> omega

/-- **A pretoken has one of the shapes.** -/
theorem shape_splitUnits (hT : T.Worded) {us : List Nat} (hne : us ≠ []) : Shape T (us.take (splitUnits T us)) := by
  obtain ⟨u, us, rfl⟩ := List.exists_cons_of_ne_nil hne
  have hword : ∀ n, n ≤ run (isL T) us → (isL T u = false → isN T u = false ∧ isCrLf u = false) →
      Shape T ((u :: us).take (1 + n)) := by
    intro n hn hu
    have hls := mem_take_run hn
    rw [Nat.add_comm, List.take_succ_cons]
    cases hL : isL T u with
    | true => exact .word [] _ (.inl rfl) (List.forall_mem_cons.2 ⟨hL, hls⟩)
    | false => exact .word [u] _ (.inr ⟨u, rfl, hL, hu hL⟩) hls
  simp only [splitUnits]
  generalize hm : (if u = 0x27 then contractionUnits us else 0) = m
  split_ifs with hcontraction hL hw hN hsp ho
  · have happ : u = 0x27 := by
      by_contra hne
      rw [if_neg hne] at hm
      exact hcontraction hm.symm
    rw [if_pos happ] at hm
    have hother : isOther T u = true := by
      rw [happ]
      exact hT.apostrophe
    obtain ⟨⟨hL, hN⟩, -⟩ : (isL T u = false ∧ isN T u = false) ∧ isS T u = false := by simpa [isOther] using hother
    have hcrlf : isCrLf u = false := by
      rw [happ]
      rfl
    rw [Nat.add_comm, List.take_succ_cons, ← hm]
    exact .word [u] _ (.inr ⟨u, rfl, hL, hN, hcrlf⟩) fun w hw => hT.letters w (contractionUnits_letters us w hw)
  · exact hword _ (Nat.le_refl _) fun h => absurd hL (by rw [h]; exact Bool.false_ne_true)
  · apply hword _ (Nat.le_refl _)
    intro _
    simpa using (Bool.and_eq_true_iff.1 hw).1
  · exact .number u hN
  · obtain ⟨hsp, hrun⟩ := Bool.and_eq_true_iff.1 hsp
    rw [take_symbolUnits]
    apply Shape.symbols [u]
    · exact .inr (by rw [of_decide_eq_true hsp])
    · exact List.ne_nil_of_length_pos (Nat.pos_of_ne_zero (of_decide_eq_true hrun))
    · exact fun w hw => List.mem_takeWhile_imp hw
    · exact fun w hw => List.mem_takeWhile_imp hw
  · rw [take_symbolUnits]
    apply Shape.symbols []
    · exact .inl rfl
    · rw [List.drop_zero, List.takeWhile_cons_of_pos ho]
      exact List.cons_ne_nil _ _
    · exact fun w hw => List.mem_takeWhile_imp hw
    · exact fun w hw => List.mem_takeWhile_imp hw
  · exact .space _ (mem_take_run (whitespaceUnits_le _))

end Shapes

section Classes

variable {u bits : Nat}

theorem cpUnit_eq (hT : T.Splits) (hS : isS T u = false) :
    cpUnit T u = if isL T u then U_L else if isN T u then U_N else U_O := by
  have hsp : u ≠ 0x20 := by
    rintro rfl
    rw [hT.space] at hS
    cases hS
  have hcrlf : isCrLf u = false := by
    cases hcr : isCrLf u with
    | false => rfl
    | true =>
      rw [hT.newline_space u hcr] at hS
      cases hS
  unfold isCrLf at hcrlf
  unfold isS at hS
  unfold cpUnit isL isN
  rw [if_neg hsp, hcrlf, if_neg Bool.false_ne_true]
  simp only [decide_eq_true_eq]
  rw [if_neg (of_decide_eq_false hS)]

/-- A space of some kind. -/
theorem cpUnit_isS (hT : T.Splits) (hS : isS T u = true) : meets (cpUnit T u) (U_SP ||| U_SO ||| U_SNL) = true := by
  have hL : isL T u = false := by
    cases hL : isL T u with
    | false => rfl
    | true => exact (hT.letter u hL).2.symm.trans hS |>.symm
  have hN : isN T u = false := by
    cases hN : isN T u with
    | false => rfl
    | true => exact (hT.number u hN).symm.trans hS |>.symm
  unfold isS at hS
  unfold isL at hL
  unfold isN at hN
  unfold cpUnit
  dsimp only
  rw [if_neg (of_decide_eq_false hL), if_neg (of_decide_eq_false hN), if_pos (of_decide_eq_true hS)]
  split_ifs <;> rfl

theorem cpUnit_isCrLf (h : isCrLf u = true) : cpUnit T u = U_SNL := by
  unfold isCrLf at h
  have hsp : u ≠ 0x20 := by
    rintro rfl
    cases h
  rw [cpUnit, if_neg hsp, if_pos h]

theorem Admits.letter (hT : T.Splits) (h : Admits T bits u) (hu : isL T u = true) : meets bits U_L = true := by
  apply h.class_mem
  rw [cpUnit_eq hT (hT.letter u hu).2, if_pos hu]
  rfl

theorem Admits.number (hT : T.Splits) (h : Admits T bits u) (hu : isN T u = true) : meets bits U_N = true := by
  have hL : isL T u = false := by
    cases hL : isL T u with
    | false => rfl
    | true => exact (hT.letter u hL).1.symm.trans hu |>.symm
  apply h.class_mem
  rw [cpUnit_eq hT (hT.number u hu), hL, if_neg Bool.false_ne_true, if_pos hu]
  rfl

theorem Admits.other (hT : T.Splits) (h : Admits T bits u) (hu : isOther T u = true) : meets bits U_O = true := by
  obtain ⟨⟨hL, hN⟩, hS⟩ : (isL T u = false ∧ isN T u = false) ∧ isS T u = false := by simpa [isOther] using hu
  apply h.class_mem
  rw [cpUnit_eq hT hS, hL, hN]
  rfl

theorem Admits.space_kind (hT : T.Splits) (h : Admits T bits u) (hu : isS T u = true) :
    meets bits (U_SP ||| U_SO ||| U_SNL) = true := h.class_mem _ (cpUnit_isS hT hu)

theorem Admits.crLf (h : Admits T bits u) (hu : isCrLf u = true) : meets bits U_SNL = true := by
  apply h.class_mem
  rw [cpUnit_isCrLf hu]
  rfl

/-- What can stand in front of a word. -/
theorem Admits.front (hT : T.Splits) (h : Admits T bits u) (hL : isL T u = false) (hN : isN T u = false)
    (hcrlf : isCrLf u = false) : meets bits (U_SP ||| U_SO ||| U_O) = true := by
  apply h.class_mem
  cases hS : isS T u with
  | false =>
    rw [cpUnit_eq hT hS, hL, hN]
    rfl
  | true =>
    unfold isS at hS
    unfold isL at hL
    unfold isN at hN
    unfold isCrLf at hcrlf
    unfold cpUnit
    rw [hcrlf, if_neg Bool.false_ne_true]
    dsimp only
    rw [if_neg (of_decide_eq_false hL), if_neg (of_decide_eq_false hN), if_pos (of_decide_eq_true hS)]
    split_ifs <;> rfl

theorem meets_mono {a b c : Nat} (h : b &&& c = b) (hab : meets a b = true) : meets a c = true := by
  unfold meets at *
  rw [decide_eq_true_eq] at *
  intro hzero
  apply hab
  rw [← h, Nat.and_comm b c, ← Nat.and_assoc, hzero, Nat.zero_and]

end Classes

section Fits

variable {us : List Nat}

theorem fits_letters (h : ∀ u ∈ us, meets u U_L = true) : fitsPretokenLanguage us = true := by
  have hall : us.all (meets · U_L) = true := List.all_eq_true.2 h
  unfold fitsPretokenLanguage
  dsimp only
  rw [hall]
  rfl

theorem fits_spaces (h : ∀ u ∈ us, meets u (U_SP ||| U_SO ||| U_SNL) = true) : fitsPretokenLanguage us = true := by
  have hall : us.all (meets · (U_SP ||| U_SO ||| U_SNL)) = true := List.all_eq_true.2 h
  unfold fitsPretokenLanguage
  dsimp only
  rw [hall, Bool.or_true]
  rfl

theorem fits_single {u : Nat} (h : meets u (U_N ||| U_SP ||| U_SO ||| U_O) = true) : fitsPretokenLanguage [u] = true := by
  unfold fitsPretokenLanguage
  dsimp only
  rw [List.headD_cons, h]
  simp

theorem fits_word {u : Nat} (hu : meets u (U_SP ||| U_SO ||| U_O) = true) (hne : us ≠ [])
    (h : ∀ u ∈ us, meets u U_L = true) : fitsPretokenLanguage (u :: us) = true := by
  have hall : us.all (meets · U_L) = true := List.all_eq_true.2 h
  have hlen : 2 ≤ (u :: us).length := Nat.succ_le_succ (List.length_pos_iff.2 hne)
  unfold fitsPretokenLanguage
  dsimp only
  rw [List.headD_cons, List.tail_cons, hu, hall, decide_eq_true hlen]
  simp

/-- Symbols and the newlines behind them. -/
theorem fits_symbols {pre os nls : List Nat} (hpre : pre = [] ∧ meets ((os ++ nls).headD 0) U_SP = false ∨
      ∃ u, pre = [u] ∧ meets u U_SP = true) (hne : os ≠ []) (hos : ∀ u ∈ os, meets u U_O = true)
    (hnls : ∀ u ∈ nls, meets u U_SNL = true) : fitsPretokenLanguage (pre ++ (os ++ nls)) = true := by
  have hsymbols : (if meets ((pre ++ (os ++ nls)).headD 0) U_SP then (pre ++ (os ++ nls)).tail
      else pre ++ (os ++ nls)) = os ++ nls := by
    rcases hpre with ⟨rfl, hno⟩ | ⟨u, rfl, hu⟩
    · rw [List.nil_append, hno, if_neg Bool.false_ne_true]
    · rw [List.singleton_append, List.headD_cons, if_pos hu, List.tail_cons]
  have hbehind : (os ++ nls).dropWhile (meets · U_O) = nls.dropWhile (meets · U_O) := List.dropWhile_append_of_pos hos
  have hsuffix : nls.dropWhile (meets · U_O) <:+ nls := List.dropWhile_suffix _
  have hend : (nls.dropWhile (meets · U_O)).dropWhile (meets · U_SNL) = [] :=
    List.dropWhile_eq_nil_iff.2 fun u hu => hnls u (hsuffix.subset hu)
  have hlen : 0 < (os ++ nls).length - (nls.dropWhile (meets · U_O)).length := by
    have hle := hsuffix.length_le
    have hpos := List.length_pos_iff.2 hne
    rw [List.length_append]
    omega
  unfold fitsPretokenLanguage
  dsimp only
  rw [hsymbols, hbehind, hend, decide_eq_true hlen]
  simp

/-- Sets of classes have what the units have. -/
theorem forall_of_admits {ws bits : List Nat} (h : List.Forall₂ (Admits T) bits ws) {P Q : Nat → Prop}
    (hPQ : ∀ b u, Admits T b u → P u → Q b) (hws : ∀ u ∈ ws, P u) : ∀ b ∈ bits, Q b := by
  induction h with
  | nil => exact List.forall_mem_nil _
  | cons hb _ ih =>
    obtain ⟨hu, hws⟩ := List.forall_mem_cons.1 hws
    exact List.forall_mem_cons.2 ⟨hPQ _ _ hb hu, ih hws⟩

/-- A run of others and the newlines behind it, as sets of classes. -/
theorem fits_other (hT : T.Splits) {os nls bits : List Nat} (h : List.Forall₂ (Admits T) bits (os ++ nls))
    (hne : os ≠ []) (hos : ∀ u ∈ os, isOther T u = true) (hnls : ∀ u ∈ nls, isCrLf u = true) :
    fitsPretokenLanguage bits = true ∧
      ∀ b, meets b U_SP = true → fitsPretokenLanguage (b :: bits) = true := by
  have hbo := List.forall₂_take_append bits os nls h
  have hbn := List.forall₂_drop_append bits os nls h
  rw [← List.take_append_drop os.length bits]
  generalize bits.take os.length = bo at hbo
  generalize bits.drop os.length = bn at hbn
  have hne' : bo ≠ [] := by
    rintro rfl
    exact hne (List.forall₂_nil_left_iff.1 hbo)
  have ho := forall_of_admits hbo (fun b u hb hu => hb.other hT hu) hos
  have hn := forall_of_admits hbn (fun b u hb hu => hb.crLf hu) hnls
  constructor
  · apply @fits_symbols [] _ _ (.inl ⟨rfl, ?_⟩) hne' ho hn
    cases hbo with
    | nil => exact absurd rfl hne'
    | @cons b o bo os hb _ =>
      rw [List.cons_append, List.headD_cons]
      apply Bool.eq_false_iff.2
      intro hsp
      have hother := hos o List.mem_cons_self
      rw [hb.space hsp] at hother
      simp [isOther, hT.space] at hother
  · exact fun b hb => @fits_symbols [b] _ _ (.inr ⟨b, rfl, hb⟩) hne' ho hn

/-- What a part of a sequence is matched with begins at the first element of it, or is matched with a part of the
rest. -/
theorem forall₂_infix_cons {α β : Type} {R : α → β → Prop} {bits : List α} {u : β} {ws us : List β}
    (h : List.Forall₂ R bits ws) (hws : ws <:+: u :: us) :
    bits = [] ∨ (∃ b bits' ws', bits = b :: bits' ∧ R b u ∧ ws' <+: us ∧ List.Forall₂ R bits' ws') ∨ ws <:+: us := by
  rcases List.infix_cons_iff.1 hws with hfirst | hlater
  · cases h with
    | nil => exact .inl rfl
    | @cons b w bits ws hb hbits =>
      obtain ⟨rfl, hrest⟩ := List.cons_prefix_cons.1 hfirst
      exact .inr (.inl ⟨b, bits, ws, rfl, hb, hrest, hbits⟩)
  · exact .inr (.inr hlater)

/-- **The relaxed language** has every part of a pretoken, whatever is known of the units. -/
theorem fits_of_shape (hT : T.Splits) {ps ws bits : List Nat} (hps : Shape T ps) (hws : ws <:+: ps)
    (h : List.Forall₂ (Admits T) bits ws) : fitsPretokenLanguage bits = true := by
  cases hps with
  | word pre ls hpre hls =>
    have hletters : ∀ {bits ws}, List.Forall₂ (Admits T) bits ws → ws <:+: ls → ∀ b ∈ bits, meets b U_L = true :=
      fun h hws => forall_of_admits h (fun b u hb hu => hb.letter hT hu) fun u hu => hls u (hws.subset hu)
    rcases hpre with rfl | ⟨u, rfl, hL, hN, hcrlf⟩
    · exact fits_letters (hletters h hws)
    · rcases forall₂_infix_cons h hws with rfl | ⟨b, bits, ws, rfl, hb, hrest, hbits⟩ | hlater
      · rfl
      · have hfront := hb.front hT hL hN hcrlf
        rcases eq_or_ne bits [] with rfl | hne
        · exact fits_single (meets_mono (by decide) hfront)
        · exact fits_word hfront hne (hletters hbits hrest.isInfix)
      · exact fits_letters (hletters h hlater)
  | number u hu =>
    rcases forall₂_infix_cons h hws with rfl | ⟨b, bits, ws, rfl, hb, hrest, hbits⟩ | hlater
    · rfl
    · obtain rfl := List.prefix_nil.1 hrest
      cases hbits
      exact fits_single (meets_mono (by decide) (hb.number hT hu))
    · obtain rfl := List.infix_nil.1 hlater
      cases h
      rfl
  | symbols pre os nls hpre hne hos hnls =>
    have hpart : ∀ {bits ws}, List.Forall₂ (Admits T) bits ws → ws <:+: os ++ nls → fitsPretokenLanguage bits = true := by
      intro bits ws h hws
      obtain ⟨os', nls', rfl, hos', hnls'⟩ := List.sublist_append_iff.1 hws.sublist
      have hnls' : ∀ u ∈ nls', isCrLf u = true := fun u hu => hnls u (hnls'.subset hu)
      rcases eq_or_ne os' [] with rfl | hne'
      · exact fits_spaces (forall_of_admits h (fun b u hb hu => hb.space_kind hT (hT.newline_space u hu)) hnls')
      · exact (fits_other hT h hne' (fun u hu => hos u (hos'.subset hu)) hnls').1
    rcases hpre with rfl | rfl
    · exact hpart h hws
    · rcases forall₂_infix_cons h hws with rfl | ⟨b, bits, ws, rfl, hb, hrest, hbits⟩ | hlater
      · rfl
      · have hsp : meets b U_SP = true := hb.class_mem _ ((cpUnit_space _).2 rfl)
        rcases eq_or_ne bits [] with rfl | hne'
        · exact fits_single (meets_mono (by decide) hsp)
        · -- the symbols come first, so there is one
          have hpos : 0 < ws.length := by
            rw [← hbits.length_eq]
            exact List.length_pos_iff.2 hne'
          have hrest : ws <+: os ++ nls := hrest
          rw [List.prefix_iff_eq_take.1 hrest, List.take_append] at hbits
          refine (fits_other hT hbits ?_ ?_ ?_).2 b hsp
          · apply List.ne_nil_of_length_pos
            rw [List.length_take]
            have := List.length_pos_iff.2 hne
            omega
          · exact fun u hu => hos u (List.mem_of_mem_take hu)
          · exact fun u hu => hnls u (List.mem_of_mem_take hu)
      · exact hpart h hlater
  | space _ hS => exact fits_spaces (forall_of_admits h (fun b u hb hu => hb.space_kind hT hu) fun u hu => hS u (hws.subset hu))

end Fits

section Contractions

/-- The prover tests for a contraction as the scanner does. -/
theorem contractionLength_apostrophe (rest : List UInt8) : contractionLength (0x27 :: rest) = tryContraction rest := by
  cases rest <;> rfl

theorem allLetters_units {n : Nat} {s : List UInt8} (hn : s.length ≤ n) (h : allLetters T n s = true) :
    ∀ u ∈ units s, IsScalar u ∧ isL T u = true := by
  induction n generalizing s with
  | zero =>
    obtain rfl := List.eq_nil_of_length_eq_zero (Nat.le_zero.1 hn)
    exact List.forall_mem_nil _
  | succ n ih =>
    cases s with
    | nil => exact List.forall_mem_nil _
    | cons b rest =>
      obtain ⟨u, tail, cp, adv, hnext, hdrop, -, hlen, hunits, hunit⟩ := read_unit b rest
      rw [allLetters, hnext] at h
      dsimp only at h
      rw [hdrop] at h
      rw [hunits]
      rcases hunit with ⟨hu, rfl⟩ | ⟨hu, -, rfl⟩
      · rw [if_neg hu.ne_malformed] at h
        split at h
        · cases h
        · split at h
          · cases h
          · next hL => exact List.forall_mem_cons.2 ⟨⟨hu, isL_eq_true.2 hL⟩, ih (by omega) h⟩
      · rw [if_pos rfl] at h
        cases h

theorem contractionUnits_append {us : List Nat} (h : contractionUnits us ≠ 0) (vs : List Nat) :
    contractionUnits (us ++ vs) = contractionUnits us := by
  revert h
  fun_cases contractionUnits us with
  | case1 => exact fun h => absurd rfl h
  | case2 c us hc =>
    intro _
    rw [List.cons_append]
    unfold contractionUnits
    exact if_pos hc
  | case3 c hc => exact fun h => absurd rfl h
  | case4 c hc d us hcd =>
    intro _
    rw [List.cons_append, List.cons_append]
    unfold contractionUnits
    rw [if_neg hc]
    exact if_pos hcd
  | case5 c hc d us hcd => exact fun h => absurd rfl h

theorem units_encodeUnits_append {us : List Nat} (hus : ∀ u ∈ us, IsScalar u) (t : List UInt8) :
    units (encodeUnits us ++ t) = us ++ units t := by
  induction us with
  | nil => rfl
  | cons u us ih =>
    obtain ⟨hu, hus⟩ := List.forall_mem_cons.1 hus
    rw [encodeUnits_cons, List.append_assoc, units_encodeUnit_append hu, ih hus, List.cons_append]

/-- In a pretoken an apostrophe with a letter behind it is the first unit. -/
theorem Shape.apostrophe (hT : T.Worded) {ps vs ws : List Nat} (hps : Shape T ps) {c : Nat} (hc : isL T c = true)
    (h : ps = vs ++ 0x27 :: c :: ws) : vs = [] := by
  obtain ⟨⟨hL, hN⟩, hS⟩ : (isL T 0x27 = false ∧ isN T 0x27 = false) ∧ isS T 0x27 = false := by
    simpa [isOther] using hT.apostrophe
  obtain ⟨-, hcS⟩ := hT.letter c hc
  have hmem : c ∈ ps := by
    rw [h]
    simp
  cases hps with
  | word pre ls hpre hls =>
    have hnot : 0x27 ∉ ls := by
      intro happ
      rw [hls _ happ] at hL
      cases hL
    cases vs with
    | nil => rfl
    | cons v vs =>
      rcases hpre with rfl | ⟨u, rfl, -⟩
      · have h : ls = v :: vs ++ 0x27 :: c :: ws := h
        exact absurd (show 0x27 ∈ ls by rw [h]; simp) hnot
      · have h : ls = vs ++ 0x27 :: c :: ws := (List.cons.inj h).2
        exact absurd (show 0x27 ∈ ls by rw [h]; simp) hnot
  | number u hu =>
    have hlen := congrArg List.length h
    simp only [List.length_append, List.length_cons, List.length_nil] at hlen
    omega
  | symbols pre os nls hpre hne hos hnls =>
    rcases List.mem_append.1 hmem with hmem | hmem
    · rcases hpre with rfl | rfl
      · cases hmem
      · rw [List.mem_singleton.1 hmem, hT.space] at hcS
        cases hcS
    · rcases List.mem_append.1 hmem with hmem | hmem
      · have hother := hos c hmem
        simp [isOther, hc] at hother
      · rw [hT.newline_space c (hnls c hmem)] at hcS
        cases hcS
  | space _ hS =>
    rw [hS c hmem] at hcS
    cases hcS

/-- What the prover has found in front of the letters. -/
theorem blockedByContraction_spec (hT : T.Worded) {s : List UInt8} (h : blockedByContraction T s = true) :
    ∃ ls, s = encodeUnits (0x27 :: ls) ∧ (∀ u ∈ ls, IsScalar u ∧ isL T u = true) ∧ contractionUnits ls ≠ 0 ∧
      contractionUnits ls < ls.length := by
  have happ : ∃ r, s = 0x27 :: r ∧ tryContraction r ≠ 0 ∧ tryContraction r < s.length ∧
      allLetters T s.length (s.drop (tryContraction r)) = true := by
    unfold blockedByContraction at h
    dsimp only at h
    split at h
    · cases h
    · next hm =>
      simp only [Bool.or_eq_true, decide_eq_true_eq, not_or, Nat.not_le] at hm
      obtain ⟨hm, hlt⟩ := hm
      rcases s with _ | ⟨x, r⟩
      · exact absurd rfl hm
      · obtain rfl : x = 0x27 := by
          by_contra hx
          apply hm
          unfold contractionLength
          split
          · next heq => exact absurd (List.cons.inj heq).1 hx
          · rfl
        rw [contractionLength_apostrophe] at h hm hlt
        exact ⟨r, rfl, hm, hlt, h⟩
  obtain ⟨r, rfl, hm, hlt, hletters⟩ := happ
  have hall := allLetters_units (by rw [List.length_drop]; omega) hletters
  rw [tryContraction_eq] at hm hlt hall
  split at hm
  · exact absurd rfl hm
  next hc =>
  rw [if_neg hc] at hlt hall
  obtain ⟨hdrop, -⟩ := units_drop r (contractionUnits (units r))
  rw [Nat.add_comm, List.drop_succ_cons, hdrop] at hall
  have hscalar : ∀ u ∈ units r, IsScalar u ∧ isL T u = true := by
    rw [← List.take_append_drop (contractionUnits (units r)) (units r)]
    apply List.forall_mem_append.2 ⟨fun u hu => ?_, hall⟩
    have hmem := contractionUnits_letters _ u hu
    have hsmall : ∀ u ∈ contractionLetters, IsScalar u := by decide
    exact ⟨hsmall u hmem, hT.letters u hmem⟩
  have happ : encodeUnit 0x27 = [0x27] := by decide
  refine ⟨units r, ?_, hscalar, hc, ?_⟩
  · rw [encodeUnits_cons, encodeUnits_units, happ]
    rfl
  · apply Nat.lt_of_not_le
    intro hle
    rw [List.take_of_length_le hle, unitBytes, encodeUnits_units, List.length_cons] at hlt
    omega

/-- **A contraction pre-empts the word.** No characters of a pretoken have the bytes of a contraction with letters behind
it. -/
theorem contraction_pretoken (hT : T.Worded) {us vs ms ws : List Nat} (hne : us ≠ [])
    (hcut : us.take (splitUnits T us) = vs ++ (ms ++ ws)) (hms : ∀ u ∈ ms, IsScalar u) {s : List UInt8}
    (hs : s <:+: encodeUnits ms) : blockedByContraction T s = false := by
  apply Bool.eq_false_iff.2
  intro hblocked
  obtain ⟨ls, rfl, hls, hc, hlt⟩ := blockedByContraction_spec hT hblocked
  obtain ⟨c, ls', rfl⟩ : ∃ c ls', ls = c :: ls' := by
    apply List.exists_cons_of_ne_nil
    rintro rfl
    exact hc rfl
  have happ : ∀ u ∈ 0x27 :: c :: ls', IsScalar u :=
    List.forall_mem_cons.2 ⟨.inl (by decide), fun u hu => (hls u hu).1⟩
  obtain ⟨a, b, h⟩ := hs
  rw [List.append_assoc] at h
  obtain ⟨fs, rest, rfl, -, hrest⟩ := encodeUnits_split hms h.symm (by
    have hcode : encodeUnit 0x27 = [0x27] := by decide
    rw [encodeUnits_cons, hcode]
    intro d hd
    cases hd
    decide)
  have hunits := congrArg units hrest
  rw [units_encodeUnits fun u hu => hms u (List.mem_append_right fs hu), units_encodeUnits_append happ] at hunits
  -- the apostrophe is where the pretoken begins, and the split takes the contraction there
  have hcut : us.take (splitUnits T us) = (vs ++ fs) ++ 0x27 :: c :: (ls' ++ units b ++ ws) := by
    rw [hcut, hunits]
    simp
  have hfirst := (shape_splitUnits hT hne).apostrophe hT (hls c List.mem_cons_self).2 hcut
  have hcut : us.take (splitUnits T us) = 0x27 :: (c :: ls' ++ (units b ++ ws)) := by
    rw [hcut, hfirst]
    simp
  have hsplit : splitUnits T us = 1 + contractionUnits (c :: ls') := by
    obtain ⟨more, hus'⟩ : ∃ more, us = 0x27 :: (c :: ls' ++ more) := by
      refine ⟨units b ++ ws ++ us.drop (splitUnits T us), ?_⟩
      conv_lhs => rw [← List.take_append_drop (splitUnits T us) us, hcut]
      simp
    rw [hus', splitUnits, if_pos rfl, contractionUnits_append hc, if_pos hc]
  have hlen := congrArg List.length hcut
  rw [List.length_take, List.length_cons, List.length_append, hsplit] at hlen
  omega

end Contractions

section Spans

/-- Where a match of the split regex is in a text. -/
theorem splitRegex_spans_mem (hT : T.Splits) {us ps : List Nat} (h : ps ∈ (splitRegex T).spans us) :
    ∃ ws, ws <:+ us ∧ ws ≠ [] ∧ ps = ws.take (splitUnits T ws) := by
  induction hn : us.length using Nat.strongRecOn generalizing us with
  | ind n ih =>
    rcases eq_or_ne us [] with rfl | hne
    · cases h
    · have hpos := splitUnits_pos (T := T) hne
      rw [spans_of_first hpos hne (first_splitRegex hT hne)] at h
      rcases List.mem_cons.1 h with rfl | h
      · exact ⟨us, List.suffix_rfl, hne, rfl⟩
      · have hlen : (us.drop (splitUnits T us)).length < n := by
          have := List.length_pos_iff.2 hne
          rw [List.length_drop]
          omega
        obtain ⟨ws, hws, hne', rfl⟩ := ih _ hlen h rfl
        exact ⟨ws, hws.trans (List.drop_suffix _ _), hne', rfl⟩

end Spans

end Bytepair
