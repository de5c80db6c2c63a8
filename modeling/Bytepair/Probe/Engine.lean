import Bytepair.Probe.Model

/-!
# The pre-tokenizer that is probed

It splits by the regex of profile 1, over classes of its own. `shape_of_kind` says how many pieces the strings of the
probe have, whatever these classes are: the shape tells the class, but for a CR or LF that is a number.
-/

namespace Bytepair.Probe
open Support Regex

/-- What the regex tells apart. -/
inductive Kind where
  | letter
  | number
  | space
  | other
  deriving DecidableEq

def Kind.bits : Kind → Nat
  | .letter => BP_CC_L
  | .number => BP_CC_N
  | .space => BP_CC_S
  | .other => 0

section Kinds

variable (kind : Nat → Kind)

/-- The class bits for a code point; a surrogate has none. -/
def kindBits (cp : Nat) : Nat :=
  if SURROGATE_FIRST ≤ cp ∧ cp ≤ SURROGATE_LAST then 0
  else if kind cp = .space ∧ isCrLf cp then BP_CC_S ||| BP_CC_NL
  else (kind cp).bits

/-- Tables with the classes of the kinds. -/
def kindTables : Tables where
  ccIndex := id
  ccBlocks := kindBits kind
  cccIndex _ := 0
  cccBlocks _ := 0
  qcCount := 0
  qcLo _ := 0
  qcHi _ := 0
  qcVal _ := 0
  decompCount := 0
  decompCp _ := 0
  decompOff _ := 0
  decompLen _ := 0
  decompPool _ := 0
  composeCount := 0
  composeKey _ := 0
  composeVal _ := 0

/-- The pieces of a string, split by the regex of profile 1 over the kinds. -/
def pieces (t : List Nat) : List (List Nat) := (splitRegex (kindTables kind)).spans t

/-- A pre-tokenizer that splits by the regex; its strings have scalar values only. -/
structure Engine (pre : List Nat → List (List Nat)) : Prop where
  splits : ∀ t, (∀ u ∈ t, IsScalar u) → pre t = pieces kind t

variable {kind}

theorem charClass_kind {cp : Nat} (h : cp ≤ 0x10FFFF) : (kindTables kind).bpCharClass cp = kindBits kind cp := by
  have hmod : cp &&& 0xFF = cp % 256 := Nat.and_two_pow_sub_one_eq_mod cp 8
  unfold Tables.bpCharClass kindTables
  dsimp only [id]
  rw [if_neg (by omega), hmod, ← Nat.shiftLeft_add_eq_or_of_lt (Nat.mod_lt cp (by decide : 0 < 2 ^ 8)), Nat.shiftLeft_eq,
    Nat.shiftRight_eq_div_pow]
  congr 1
  omega

theorem kindBits_scalar {cp : Nat} (h : IsScalar cp) :
    kindBits kind cp = if kind cp = .space ∧ isCrLf cp then BP_CC_S ||| BP_CC_NL else (kind cp).bits := by
  unfold kindBits SURROGATE_FIRST SURROGATE_LAST
  apply if_neg
  unfold IsScalar at h
  omega

theorem class_of_kind {cp : Nat} (h : IsScalar cp) : isL (kindTables kind) cp = decide (kind cp = .letter) ∧
    isN (kindTables kind) cp = decide (kind cp = .number) ∧ isS (kindTables kind) cp = decide (kind cp = .space) := by
  have hlt := h.lt
  simp only [isL, isN, isS, @charClass_kind kind cp (by omega), kindBits_scalar h]
  cases kind cp <;> cases isCrLf cp <;> decide

theorem isL_kind {cp : Nat} (h : IsScalar cp) : isL (kindTables kind) cp = decide (kind cp = .letter) := (class_of_kind h).1

theorem isN_kind {cp : Nat} (h : IsScalar cp) : isN (kindTables kind) cp = decide (kind cp = .number) := (class_of_kind h).2.1

theorem isS_kind {cp : Nat} (h : IsScalar cp) : isS (kindTables kind) cp = decide (kind cp = .space) := (class_of_kind h).2.2

theorem isOther_kind {cp : Nat} (h : IsScalar cp) : isOther (kindTables kind) cp = decide (kind cp = .other) := by
  unfold isOther
  rw [isL_kind h, isN_kind h, isS_kind h]
  cases kind cp <;> rfl

end Kinds

/-! The matches at the start of a text, by the class of its first unit. -/

section Matches

variable {T : Tables} {u : Nat} {us : List Nat}

theorem first_of_letter (hm : u = 0x27 → contractionUnits us = 0) (hL : isL T u = true) :
    (splitRegex T).first (u :: us) = some (1 + run (isL T) us) := by
  unfold splitRegex
  rw [first_alt, first_contraction, if_neg (fun h => h.2 (hm h.1)), Option.none_or, first_alt, first_word, if_pos hL,
    Option.some_or]

/-- A unit that may stand before a word, and the word. -/
theorem first_of_prefix (hm : u = 0x27 → contractionUnits us = 0) (hL : isL T u = false) (hN : isN T u = false)
    (hnl : isCrLf u = false) (hrun : run (isL T) us ≠ 0) :
    (splitRegex T).first (u :: us) = some (1 + run (isL T) us) := by
  unfold splitRegex
  rw [first_alt, first_contraction, if_neg (fun h => h.2 (hm h.1)), Option.none_or, first_alt, first_word, hL, hN, hnl,
    if_neg Bool.false_ne_true, if_pos (by simpa using hrun), Option.some_or]

/-- Where no word begins, the alternatives from A3 on are tried. -/
theorem first_no_word (hm : u = 0x27 → contractionUnits us = 0) (hL : isL T u = false)
    (hw : isN T u = true ∨ isCrLf u = true ∨ run (isL T) us = 0) :
    (splitRegex T).first (u :: us) = if isN T u then some 1 else
      ((symbolRegex T).first (u :: us)).or (((newlineRegex T).first (u :: us)).or
        (((trailingRegex T).first (u :: us)).or ((plus (one (isS T))).first (u :: us)))) := by
  unfold splitRegex
  rw [first_alt, first_contraction, if_neg (fun h => h.2 (hm h.1)), Option.none_or, first_alt, first_word, hL,
    if_neg Bool.false_ne_true, if_neg, Option.none_or, first_alt, first_one_cons, first_alt, first_alt, first_alt]
  · cases isN T u <;> rfl
  · rcases hw with h | h | h <;> simp [h]

theorem first_of_number (hm : u = 0x27 → contractionUnits us = 0) (hL : isL T u = false) (hN : isN T u = true) :
    (splitRegex T).first (u :: us) = some 1 := by
  rw [first_no_word hm hL (.inl hN), if_pos hN]

/-- Symbols from the first unit on, and the CR/LF run behind them. -/
theorem first_of_symbol (hm : u = 0x27 → contractionUnits us = 0) (hL : isL T u = false) (hN : isN T u = false)
    (hw : isCrLf u = true ∨ run (isL T) us = 0) (hother : isOther T u = true) (hspace : u = 0x20 → run (isOther T) us = 0) :
    (splitRegex T).first (u :: us) =
      some (1 + (run (isOther T) us + run isCrLf (us.drop (run (isOther T) us)))) := by
  have hmatch : (symbolRegex T).first (u :: us) =
      some (1 + (run (isOther T) us + run isCrLf (us.drop (run (isOther T) us)))) := by
    unfold symbolRegex
    rw [first_seq_opt_one, first_symbols, first_symbols, run_cons, if_pos hother, if_neg (Nat.succ_ne_zero _),
      List.drop_succ_cons, Nat.add_right_comm, Nat.add_comm _ 1]
    by_cases hu : u = 0x20
    · simp [hu, hspace hu]
    · simp [hu]
  rw [first_no_word hm hL (.inr hw), hN, if_neg Bool.false_ne_true, hmatch, Option.some_or]

/-- A space before symbols. -/
theorem first_of_space_symbol (hL : isL T 0x20 = false) (hN : isN T 0x20 = false) (hw : run (isL T) us = 0)
    (hrun : run (isOther T) us ≠ 0) :
    (splitRegex T).first (0x20 :: us) =
      some (1 + (run (isOther T) us + run isCrLf (us.drop (run (isOther T) us)))) := by
  have hmatch : (symbolRegex T).first (0x20 :: us) =
      some (1 + (run (isOther T) us + run isCrLf (us.drop (run (isOther T) us)))) := by
    unfold symbolRegex
    rw [first_seq_opt_one, first_symbols, if_neg hrun]
    simp
  rw [first_no_word (fun h => absurd h (by decide)) hL (.inr (.inr hw)), hN, if_neg Bool.false_ne_true, hmatch, Option.some_or]

/-- One unit of whitespace before a unit that is none. -/
theorem first_of_space {v : Nat} (hm : u = 0x27 → contractionUnits (v :: us) = 0) (hL : isL T u = false) (hN : isN T u = false)
    (hS : isS T u = true) (hw : isCrLf u = true ∨ isL T v = false) (hv : isS T v = false) (hnl : isCrLf v = false)
    (hspace : u = 0x20 → isOther T v = false) : (splitRegex T).first (u :: v :: us) = some 1 := by
  have hsymbol : (symbolRegex T).first (u :: v :: us) = none := by
    have hother : isOther T u = false := by simp [isOther, hS]
    unfold symbolRegex
    rw [first_seq_opt_one, first_symbols, first_symbols, run_cons, run_cons, hother]
    by_cases hu : u = 0x20
    · simp [hu, hspace hu]
    · simp [hu]
  have hrun : run (isS T) (u :: v :: us) = 1 := by
    rw [run_cons, run_cons, hS, hv]
    rfl
  have hnewline : (newlineRegex T).first (u :: v :: us) = if isCrLf u then some 1 else none := by
    unfold newlineRegex
    rw [first_seq_star_one, hrun, downTo_succ, List.findSome?_cons, List.drop_succ_cons, List.drop_zero, first_plus_one,
      run_cons, hnl]
    cases hu : isCrLf u <;> simp [downTo, first_plus_one, run_cons, hu, hnl]
  have hword : isN T u = true ∨ isCrLf u = true ∨ run (isL T) (v :: us) = 0 := by
    refine .inr (hw.imp_right fun h => ?_)
    rw [run_cons, h]
    rfl
  rw [first_no_word hm hL hword, hN, if_neg Bool.false_ne_true, hsymbol, Option.none_or, hnewline, first_trailing,
    first_plus_one, hrun]
  cases isCrLf u <;> simp

end Matches

section Shapes

variable {kind : Nat → Kind}

/-- A match, and the pieces behind it. -/
theorem length_pieces {u n : Nat} {us : List Nat} (h : (splitRegex (kindTables kind)).first (u :: us) = some (1 + n)) :
    (pieces kind (u :: us)).length = 1 + (pieces kind (us.drop n)).length := by
  unfold pieces
  rw [spans_of_first (by omega) (List.cons_ne_nil u us) h, List.length_cons, Nat.add_comm 1 n, List.drop_succ_cons,
    Nat.add_comm]

/-- The shape of a code point of a kind. -/
def probeShape (k : Kind) (cp : Nat) : Nat × Nat :=
  match k with
  | .letter => (1, 2)
  | .number => if isCrLf cp then (3, 2) else (3, 3)
  | .space => if isCrLf cp then (3, 2) else if cp = 0x20 then (2, 2) else (2, 3)
  | .other => if isCrLf cp then (3, 1) else (2, 1)

/-- The letters and the punctuation mark of the probe are what they look like. -/
structure Probes (kind : Nat → Kind) : Prop where
  letter : kind 0x61 = .letter
  mark : kind 0x21 = .other

variable (h : Probes kind) {cp : Nat} (hcp : IsScalar cp)

/-- The classes of a code point of a kind. -/
theorem classes_of {cp : Nat} (hcp : IsScalar cp) {k : Kind} (hk : kind cp = k) :
    isL (kindTables kind) cp = decide (k = .letter) ∧ isN (kindTables kind) cp = decide (k = .number) ∧
      isS (kindTables kind) cp = decide (k = .space) ∧ isOther (kindTables kind) cp = decide (k = .other) := by
  rw [isL_kind hcp, isN_kind hcp, isS_kind hcp, isOther_kind hcp, hk]
  exact ⟨rfl, rfl, rfl, rfl⟩

include h

theorem pieces_letter : (pieces kind [0x61]).length = 1 := by
  obtain ⟨hL, -, -, -⟩ := classes_of (by decide) h.letter
  exact length_pieces (first_of_letter (fun h => absurd h (by decide)) hL)

theorem pieces_mark : (pieces kind [0x21]).length = 1 := by
  obtain ⟨hL, hN, -, hO⟩ := classes_of (by decide) h.mark
  exact length_pieces (first_of_symbol (fun h => absurd h (by decide)) hL hN (.inr rfl) hO fun _ => rfl)

include hcp

/-- The pieces of `aXa`. -/
theorem pieces_between_letters : (pieces kind [0x61, cp, 0x61]).length = (probeShape (kind cp) cp).1 := by
  obtain ⟨aL, -, aS, aO⟩ := classes_of (by decide) h.letter
  have hm : cp = 0x27 → contractionUnits [0x61] = 0 := fun _ => by decide
  -- a run of letters first
  have hfirst := first_of_letter (fun h => absurd h (by decide) : 0x61 = 0x27 → contractionUnits [cp, 0x61] = 0) aL
  cases hk : kind cp with
  | letter =>
    obtain ⟨hL, -, -, -⟩ := classes_of hcp hk
    rw [run_cons, run_cons, hL, aL] at hfirst
    exact length_pieces hfirst
  | number =>
    obtain ⟨hL, hN, -, -⟩ := classes_of hcp hk
    rw [run_cons, hL] at hfirst
    have hrest : (pieces kind [cp, 0x61]).length = 1 + 1 := by
      rw [length_pieces (n := 0) (first_of_number hm hL hN), List.drop_zero, pieces_letter h]
    rw [length_pieces (n := 0) hfirst, List.drop_zero, hrest]
    cases hnl : isCrLf cp <;> simp [probeShape, hnl]
  | space =>
    obtain ⟨hL, hN, hS, -⟩ := classes_of hcp hk
    rw [run_cons, hL] at hfirst
    rw [length_pieces (n := 0) hfirst, List.drop_zero]
    cases hnl : isCrLf cp with
    | true =>
      have hspace := first_of_space hm hL hN hS (.inl hnl) aS (by decide) fun _ => aO
      rw [length_pieces (n := 0) hspace, List.drop_zero, pieces_letter h]
      simp [probeShape, hnl]
    | false =>
      have hword := first_of_prefix hm hL hN hnl (by rw [run_cons, aL]; exact Nat.succ_ne_zero _)
      rw [run_cons, aL] at hword
      rw [length_pieces (n := 1) hword]
      simp only [probeShape, hnl]
      by_cases hsp : cp = 0x20 <;> simp [hsp, pieces]
  | other =>
    obtain ⟨hL, hN, -, hO⟩ := classes_of hcp hk
    rw [run_cons, hL] at hfirst
    rw [length_pieces (n := 0) hfirst, List.drop_zero]
    cases hnl : isCrLf cp with
    | true =>
      have hsymbol := first_of_symbol hm hL hN (.inl hnl) hO fun _ => by rw [run_cons, aO]; rfl
      rw [run_cons, aO] at hsymbol
      rw [length_pieces (n := 0) hsymbol, List.drop_zero, pieces_letter h]
      simp [probeShape, hnl]
    | false =>
      have hword := first_of_prefix hm hL hN hnl (by rw [run_cons, aL]; exact Nat.succ_ne_zero _)
      rw [run_cons, aL] at hword
      rw [length_pieces (n := 1) hword]
      simp [probeShape, hnl, pieces]

omit hcp in
/-- What follows a mark and is no letter leaves it to the symbols. -/
theorem first_mark (hL : isL (kindTables kind) cp = false) : (splitRegex (kindTables kind)).first [0x21, cp, 0x21] =
    some (1 + (run (isOther (kindTables kind)) [cp, 0x21] +
      run isCrLf ([cp, 0x21].drop (run (isOther (kindTables kind)) [cp, 0x21])))) := by
  obtain ⟨mL, mN, -, mO⟩ := classes_of (by decide) h.mark
  apply first_of_symbol (fun h => absurd h (by decide)) mL mN (.inr _) mO fun h => absurd h (by decide)
  rw [run_cons, hL]
  rfl

omit hcp in
/-- A mark takes the CR or LF behind it. -/
theorem pieces_mark_newline (hL : isL (kindTables kind) cp = false) (hO : isOther (kindTables kind) cp = false)
    (hnl : isCrLf cp = true) : (pieces kind [0x21, cp, 0x21]).length = 2 := by
  have hfirst := first_mark h hL
  rw [run_cons, hO, if_neg Bool.false_ne_true, List.drop_zero, run_cons, hnl, if_pos rfl] at hfirst
  rw [length_pieces (n := 1) hfirst, List.drop_succ_cons, List.drop_zero, pieces_mark h]

omit hcp in
/-- A mark alone. -/
theorem pieces_mark_alone (hL : isL (kindTables kind) cp = false) (hO : isOther (kindTables kind) cp = false)
    (hnl : isCrLf cp = false) : (pieces kind [0x21, cp, 0x21]).length = 1 + (pieces kind [cp, 0x21]).length := by
  have hfirst := first_mark h hL
  rw [run_cons, hO, if_neg Bool.false_ne_true, List.drop_zero, run_cons, hnl, if_neg Bool.false_ne_true] at hfirst
  rw [length_pieces (n := 0) hfirst, List.drop_zero]

/-- The pieces of `!X!`. -/
theorem pieces_between_marks : (pieces kind [0x21, cp, 0x21]).length = (probeShape (kind cp) cp).2 := by
  obtain ⟨mL, mN, mS, mO⟩ := classes_of (by decide) h.mark
  have hm : cp = 0x27 → contractionUnits [0x21] = 0 := fun _ => by decide
  cases hk : kind cp with
  | letter =>
    obtain ⟨hL, -, -, -⟩ := classes_of hcp hk
    have hword := first_of_prefix (fun h => absurd h (by decide) : 0x21 = 0x27 → contractionUnits [cp, 0x21] = 0) mL mN
      (by decide) (by rw [run_cons, hL]; exact Nat.succ_ne_zero _)
    rw [run_cons, run_cons, hL, mL] at hword
    rw [length_pieces (n := 1) hword, List.drop_succ_cons, List.drop_zero, pieces_mark h]
    rfl
  | number =>
    obtain ⟨hL, hN, -, hO⟩ := classes_of hcp hk
    cases hnl : isCrLf cp with
    | true =>
      rw [pieces_mark_newline h hL hO hnl]
      simp [probeShape, hnl]
    | false =>
      rw [pieces_mark_alone h hL hO hnl, length_pieces (n := 0) (first_of_number hm hL hN), List.drop_zero, pieces_mark h]
      simp [probeShape, hnl]
  | space =>
    obtain ⟨hL, hN, hS, hO⟩ := classes_of hcp hk
    cases hnl : isCrLf cp with
    | true =>
      rw [pieces_mark_newline h hL hO hnl]
      simp [probeShape, hnl]
    | false =>
      rw [pieces_mark_alone h hL hO hnl]
      by_cases hblank : cp = 0x20
      · subst hblank
        have hword : (splitRegex (kindTables kind)).first [0x20, 0x21] = _ :=
          first_of_space_symbol hL hN (by rw [run_cons, mL]; rfl) (by rw [run_cons, mO]; exact Nat.succ_ne_zero _)
        rw [run_cons, mO] at hword
        rw [length_pieces (n := 1) hword]
        rfl
      · rw [length_pieces (n := 0) (first_of_space hm hL hN hS (.inr mL) mS (by decide) fun h => absurd h hblank),
          List.drop_zero, pieces_mark h]
        simp [probeShape, hnl, hblank]
  | other =>
    obtain ⟨hL, hN, -, hO⟩ := classes_of hcp hk
    have hfirst := first_mark h hL
    rw [run_cons, run_cons, hO, mO] at hfirst
    rw [length_pieces (n := 2) hfirst]
    cases hnl : isCrLf cp <;> simp [probeShape, hnl, pieces]

/-- **The shape of a code point.** -/
theorem shape_of_kind {pre : List Nat → List (List Nat)} (hpre : Engine kind pre) :
    shapeOf pre cp = probeShape (kind cp) cp := by
  have hstring : ∀ {v}, IsScalar v → pre [v, cp, v] = pieces kind [v, cp, v] := by
    intro v hv
    apply hpre.splits
    intro u hu
    rcases List.mem_cons.1 hu with rfl | hu
    · exact hv
    · rcases List.mem_cons.1 hu with rfl | hu
      · exact hcp
      · rwa [List.mem_singleton.1 hu]
  unfold shapeOf
  rw [hstring (by decide), hstring (by decide), pieces_between_letters h hcp, pieces_between_marks h hcp]

end Shapes

end Bytepair.Probe
