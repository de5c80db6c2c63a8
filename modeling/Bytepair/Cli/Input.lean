import Bytepair.Cli.Model

/-!
# What the command line reads

`readAll_spec`: whatever pieces a stream comes in, it is read as a whole. `parseIds_spec`: of a text of ids, only its runs
of digits matter, and whether a minus is right before one; the numeral parser never leaves the buffer.
-/

namespace Bytepair.Cli
open Support Support.Numeral

/-- The allocator grants every call to come. -/
def Granted (m : Answers) : Prop := ∀ k, m k = true

theorem ask_granted {m : Answers} (h : Granted m) : (ask m).1 = true ∧ Granted (ask m).2 := ⟨h 0, fun k => h (k + 1)⟩

/-- What `xmalloc` comes to. -/
theorem xmalloc_cases (m : Answers) :
    (xmalloc m = .ok (ask m).2 ∧ m 0 = true) ∨
      (xmalloc m = .error (fail 4 "bytepair: out of memory\n" []) ∧ m 0 = false) := by
  unfold xmalloc ask
  cases hm : m 0 with
  | true => exact .inl ⟨rfl, rfl⟩
  | false => exact .inr ⟨rfl, rfl⟩

section Read

variable {f : Stream} {m : Answers}

/-- What `read_all` keeps: what was read and what is to come are the stream, and there is room for the NUL. -/
structure Reads (f : Stream) (m : Answers) (r : Reading) : Prop where
  all : r.buf ++ r.f.rest = f.rest
  fails : r.f.fails = f.fails
  room : r.buf.length < r.cap
  granted : Granted m → Granted r.m

/-- A refusal: exit status 4, nothing printed, and not every call was granted. -/
def Refused (m : Answers) (e : Exit) : Prop := e.status = 4 ∧ e.out = [] ∧ ¬Granted m

theorem Refused.before {m m' : Answers} {e : Exit} (h : Refused m' e) (hm : Granted m → Granted m') : Refused m e := by
  obtain ⟨hstatus, hout, hno⟩ := h
  exact ⟨hstatus, hout, fun hg => hno (hm hg)⟩

theorem Reads.grow {r : Reading} (h : Reads f m r) :
    (∃ e, r.grow = .error e ∧ Refused m e) ∨
      ∃ r', r.grow = .ok r' ∧ Reads f m r' ∧ r'.f = r.f ∧ r'.buf = r.buf ∧ r'.buf.length + 1 < r'.cap := by
  have hroom := h.room
  unfold Reading.grow ask
  split
  · cases hm : r.m 0 with
    | false =>
      refine .inl ⟨_, rfl, rfl, rfl, fun hg => ?_⟩
      rw [h.granted hg 0] at hm
      cases hm
    | true =>
      refine .inr ⟨_, rfl, ⟨h.all, h.fails, ?_, fun hg k => h.granted hg (k + 1)⟩, rfl, rfl, ?_⟩
      · dsimp only
        omega
      · dsimp only
        omega
  · next hlt => exact .inr ⟨r, rfl, h, rfl, rfl, Nat.lt_of_not_le hlt⟩

/-- How the loop ends: refused, or with all bytes read. -/
def Ends (f : Stream) (m : Answers) (x : Except Exit Reading) : Prop :=
  (∀ e, x = .error e → Refused m e) ∧ ∀ r, x = .ok r → Reads f m r ∧ r.f.rest = []

/-- There is room for a byte and the NUL, so that nothing comes only behind all bytes. -/
theorem Reads.round {r : Reading} (h : Reads f m r) :
    (∃ r', readRound r = .ok (.next r') ∧ Reads f m r' ∧ r'.f.rest.length < r.f.rest.length) ∨
      ∃ x, readRound r = .ok (.done x) ∧ Ends f m x := by
  unfold readRound
  rcases h.grow with ⟨e, hgrow, hrefused⟩ | ⟨r', hgrow, hr', hf, -, hcap⟩
  · rw [hgrow]
    refine .inr ⟨_, rfl, ?_, ?_⟩
    · rintro e' ⟨⟩
      exact hrefused
    · rintro r' ⟨⟩
  · rw [hgrow, ← hf]
    unfold Stream.fread
    dsimp only
    have hpos : 0 < min (r'.cap - r'.buf.length - 1) (r'.f.chunks 0 + 1) := by omega
    have hle : min (r'.cap - r'.buf.length - 1) (r'.f.chunks 0 + 1) ≤ r'.cap - r'.buf.length - 1 := Nat.min_le_left _ _
    generalize min (r'.cap - r'.buf.length - 1) (r'.f.chunks 0 + 1) = n at hpos hle
    have hnext : Reads f m { r' with
        f := { r'.f with rest := r'.f.rest.drop n, chunks := fun k => r'.f.chunks (k + 1) }
        buf := r'.buf ++ r'.f.rest.take n } := by
      constructor
      · dsimp only
        rw [List.append_assoc, List.take_append_drop]
        exact hr'.all
      · exact hr'.fails
      · dsimp only
        rw [List.length_append, List.length_take]
        omega
      · exact hr'.granted
    by_cases hnone : (r'.f.rest.take n).length = 0
    · rw [if_pos hnone]
      rw [List.length_take] at hnone
      refine .inr ⟨_, rfl, ?_, ?_⟩
      · rintro e ⟨⟩
      · rintro r'' ⟨⟩
        refine ⟨hnext, List.eq_nil_of_length_eq_zero ?_⟩
        dsimp only
        rw [List.length_drop]
        omega
    · rw [if_neg hnone]
      rw [List.length_take] at hnone
      refine .inl ⟨_, rfl, hnext, ?_⟩
      dsimp only
      rw [List.length_drop]
      omega

/-- **A stream is read as a whole**, whatever pieces `fread` hands over: the buffer ends in a NUL behind all of it, unless
reading failed. -/
theorem readAll_spec (f : Stream) (m : Answers) : ∃ r, readAll f m = .ok r ∧ (∀ e, r = .error e → Refused m e) ∧
    ∀ text m', r = .ok (text, m') →
      text = (if f.fails then none else some (f.rest ++ [0], f.rest.length)) ∧ (Granted m → Granted m') := by
  unfold readAll
  rcases xmalloc_cases m with ⟨hmalloc, -⟩ | ⟨hmalloc, hno⟩
  · have hstart : Reads f m ⟨f, [], 1 <<< 20, (ask m).2⟩ :=
      ⟨rfl, rfl, Nat.one_shiftLeft 20 ▸ Nat.two_pow_pos 20, fun hg => (ask_granted hg).2⟩
    obtain ⟨x, hloop, hrefused, hread⟩ := loop_rule (Reads f m) (fun r => r.f.rest.length) (Ends f m)
      (fun r hr => hr.round) _ _ hstart (Nat.lt_succ_self _)
    rw [hmalloc]
    dsimp only
    rw [hloop, Run.ok_bind]
    cases x with
    | error e =>
      refine ⟨_, rfl, ?_, ?_⟩
      · rintro e' ⟨⟩
        exact hrefused e rfl
      · rintro text m' ⟨⟩
    | ok r =>
      obtain ⟨hr, hnil⟩ := hread r rfl
      have hall := hr.all
      rw [hnil, List.append_nil] at hall
      dsimp only
      unfold Stream.ferror
      rw [hr.fails, hnil]
      cases hfails : f.fails with
      | true =>
        refine ⟨_, rfl, ?_, ?_⟩
        · rintro e ⟨⟩
        · rintro text m' ⟨⟩
          exact ⟨rfl, hr.granted⟩
      | false =>
        rw [append_lt hr.room]
        refine ⟨_, rfl, ?_, ?_⟩
        · rintro e ⟨⟩
        · rintro text m' ⟨⟩
          exact ⟨by rw [hall]; rfl, hr.granted⟩
  · rw [hmalloc]
    refine ⟨_, rfl, ?_, ?_⟩
    · rintro e ⟨⟩
      exact ⟨rfl, rfl, fun hg => by rw [hg 0] at hno; cases hno⟩
    · rintro text m' ⟨⟩

end Read

section Numbers

/-- What is in front of the digits of a number: white space, and a sign. -/
def Numeric (g : List UInt8) : Prop :=
  ∃ ws, (∀ b ∈ ws, isSpace b = true) ∧ (g = ws ∨ g = ws ++ [0x2B] ∨ g = ws ++ [0x2D])

theorem skipSpace_append {ws : List UInt8} (hws : ∀ b ∈ ws, isSpace b = true) {b : UInt8} (hb : isSpace b = false)
    (bs : List UInt8) : skipSpace (ws ++ b :: bs) = .ok ws.length := by
  induction ws with
  | nil =>
    rw [List.nil_append, skipSpace, hb]
    rfl
  | cons w ws ih =>
    obtain ⟨hw, hws⟩ := List.forall_mem_cons.1 hws
    rw [List.cons_append, skipSpace, if_pos hw, ih hws]
    rfl

theorem takeDigits_append {ds : List UInt8} (hds : ∀ d ∈ ds, isDigit d = true) {b : UInt8} (hb : isDigit b = false)
    (bs : List UInt8) (n : Nat) : takeDigits n (ds ++ b :: bs) = .ok (value n ds, ds.length) := by
  induction ds generalizing n with
  | nil =>
    rw [List.nil_append, takeDigits, hb]
    rfl
  | cons d ds ih =>
    obtain ⟨hd, hds⟩ := List.forall_mem_cons.1 hds
    rw [List.cons_append, takeDigits, if_pos hd, ih hds, value_cons]
    rfl

theorem getElem?_length_append {α : Type} (xs : List α) (y : α) (ys : List α) : (xs ++ y :: ys)[xs.length]? = some y := by
  rw [List.getElem?_append_right (Nat.le_refl _), Nat.sub_self]
  rfl

theorem takeDigits_none {b : UInt8} (hb : isDigit b = false) (bs : List UInt8) (n : Nat) :
    takeDigits n (b :: bs) = .ok (n, 0) :=
  takeDigits_append (List.forall_mem_nil _) hb bs n

variable {ws cs : List UInt8} {c : UInt8} {n digits : Nat}

/-- A number behind white space and a sign. -/
theorem scanNumber_signed (hws : ∀ b ∈ ws, isSpace b = true) (hc : c = 0x2B ∨ c = 0x2D)
    (hdigits : takeDigits 0 cs = .ok (n, digits)) :
    scanNumber (ws ++ c :: cs) = .ok (if digits = 0 then none else some (c = 0x2D, n, ws.length + 1 + digits)) := by
  have hspace : isSpace c = false := by
    rcases hc with rfl | rfl
    · decide
    · decide
  have hsign : (c = 0x2B || c = 0x2D) = true := by rwa [Bool.or_eq_true, decide_eq_true_eq, decide_eq_true_eq]
  unfold scanNumber
  rw [skipSpace_append hws hspace, Run.ok_bind, index_of_some (getElem?_length_append ws c cs), Run.ok_bind]
  dsimp only
  rw [if_pos hsign, List.drop_append, List.drop_eq_nil_of_le (Nat.le_succ _), Nat.add_sub_cancel_left, List.nil_append,
    List.drop_succ_cons, List.drop_zero, hdigits]
  rfl

/-- A number behind white space alone. -/
theorem scanNumber_plain (hws : ∀ b ∈ ws, isSpace b = true) (hspace : isSpace c = false) (hc : c ≠ 0x2B ∧ c ≠ 0x2D)
    (hdigits : takeDigits 0 (c :: cs) = .ok (n, digits)) :
    scanNumber (ws ++ c :: cs) = .ok (if digits = 0 then none else some (false, n, ws.length + digits)) := by
  have hsign : (c = 0x2B || c = 0x2D) = false := by rw [decide_eq_false hc.1, decide_eq_false hc.2, Bool.or_false]
  unfold scanNumber
  rw [skipSpace_append hws hspace, Run.ok_bind, index_of_some (getElem?_length_append ws c cs), Run.ok_bind]
  dsimp only
  rw [if_neg (ne_true_of_eq_false hsign), List.drop_left, hdigits, decide_eq_false hc.2]
  rfl

theorem digit_plain {d : UInt8} (hd : isDigit d = true) : isSpace d = false ∧ d ≠ 0x2B ∧ d ≠ 0x2D := by
  unfold isDigit at hd
  unfold isSpace
  simp only [Bool.and_eq_true, decide_eq_true_eq, UInt8.le_iff_toNat_le, Bool.or_eq_false_iff, Bool.and_eq_false_iff,
    decide_eq_false_iff_not, ← UInt8.toNat_inj, ne_eq] at hd ⊢
  simp at hd ⊢
  omega

/-- A number at the head of a string is read, with its sign. -/
theorem scanNumber_numeric {g ds bs : List UInt8} {b : UInt8} (hg : Numeric g) (hne : ds ≠ [])
    (hds : ∀ d ∈ ds, isDigit d = true) (hb : isDigit b = false) :
    scanNumber (g ++ (ds ++ b :: bs)) = .ok (some (g.getLast? = some 0x2D, value 0 ds, g.length + ds.length)) := by
  have hdigits := takeDigits_append hds hb bs 0
  have hpos : ds.length ≠ 0 := Nat.ne_of_gt (List.length_pos_iff.2 hne)
  obtain ⟨ws, hws, rfl | rfl | rfl⟩ := hg
  · obtain ⟨d, ds, rfl⟩ := List.exists_cons_of_ne_nil hne
    obtain ⟨hd, hsign⟩ := digit_plain (hds d List.mem_cons_self)
    have hlast : g.getLast? ≠ some 0x2D := by
      intro hlast
      have hspace := hws _ (List.mem_of_getLast? hlast)
      exact absurd hspace (by decide)
    rw [List.cons_append] at hdigits ⊢
    rw [scanNumber_plain hws hd hsign hdigits, if_neg hpos, decide_eq_false hlast]
  · rw [List.append_assoc, List.singleton_append, scanNumber_signed hws (.inl rfl) hdigits, if_neg hpos,
      List.getLast?_concat, List.length_append]
    rfl
  · rw [List.append_assoc, List.singleton_append, scanNumber_signed hws (.inr rfl) hdigits, if_neg hpos,
      List.getLast?_concat, List.length_append]
    rfl

/-- Nothing is read where no number is. -/
theorem scanNumber_gap {g bs : List UInt8} {b : UInt8} (hg : ∀ c ∈ g, isDigit c = false) (hb : isSpace b = false)
    (hno : ¬Numeric g ∨ b = 0) : scanNumber (g ++ b :: bs) = .ok none := by
  have hws : ∀ c ∈ g.takeWhile isSpace, isSpace c = true := fun c hc => List.mem_takeWhile_imp hc
  obtain hnil | hne := eq_or_ne (g.dropWhile isSpace) []
  · have hall : g.takeWhile isSpace = g := by
      conv_rhs => rw [← @List.takeWhile_append_dropWhile _ isSpace g, hnil, List.append_nil]
    rw [hall] at hws
    obtain rfl := hno.resolve_left (not_not.2 ⟨g, hws, .inl rfl⟩)
    rw [scanNumber_plain hws hb (by decide) (takeDigits_none (by decide) bs 0)]
    rfl
  · have hc := List.head_dropWhile_not isSpace hne
    obtain ⟨c, cs, hcs⟩ := List.exists_cons_of_ne_nil hne
    simp only [hcs, List.head_cons] at hc
    have hsplit := @List.takeWhile_append_dropWhile _ isSpace g
    rw [hcs] at hsplit
    generalize g.takeWhile isSpace = ws at hws hsplit
    subst hsplit
    rw [List.append_assoc, List.cons_append]
    by_cases hsign : c = 0x2B ∨ c = 0x2D
    · -- a sign with nothing behind it is the front of a number
      have hnext : ∃ e es, cs ++ b :: bs = e :: es ∧ isDigit e = false := by
        cases cs with
        | nil =>
          have hnumeric : Numeric (ws ++ [c]) := by
            rcases hsign with rfl | rfl
            · exact ⟨ws, hws, .inr (.inl rfl)⟩
            · exact ⟨ws, hws, .inr (.inr rfl)⟩
          obtain rfl := hno.resolve_left (not_not.2 hnumeric)
          exact ⟨0, bs, rfl, by decide⟩
        | cons e es => exact ⟨e, es ++ b :: bs, rfl, hg e (by simp)⟩
      obtain ⟨e, es, hes, he⟩ := hnext
      rw [hes, scanNumber_signed hws hsign (takeDigits_none he es 0)]
      rfl
    · rw [not_or] at hsign
      rw [scanNumber_plain hws hc hsign (takeDigits_none (hg c (by simp)) _ 0)]
      rfl

/-- White space ends before the NUL of a string. -/
theorem skipSpace_ends (s : List UInt8) : ∃ k ≤ s.length, skipSpace (s ++ [0]) = .ok k := by
  induction s with
  | nil => exact ⟨0, Nat.le_refl _, rfl⟩
  | cons b s ih =>
    obtain ⟨k, hk, hskip⟩ := ih
    rw [List.cons_append, skipSpace]
    split
    · rw [hskip]
      exact ⟨k + 1, Nat.succ_le_succ hk, rfl⟩
    · exact ⟨0, Nat.zero_le _, rfl⟩

theorem takeDigits_ends (s : List UInt8) (n : Nat) : ∃ r, takeDigits n (s ++ [0]) = .ok r := by
  induction s generalizing n with
  | nil => exact ⟨_, rfl⟩
  | cons b s ih =>
    rw [List.cons_append, takeDigits]
    split
    · obtain ⟨r, hr⟩ := ih (10 * n + (b.toNat - 0x30))
      rw [hr]
      exact ⟨_, rfl⟩
    · exact ⟨_, rfl⟩

/-- A number is looked for in any string. -/
theorem scanNumber_ends (s : List UInt8) : ∃ r, scanNumber (s ++ [0]) = .ok r := by
  obtain ⟨k, hk, hskip⟩ := skipSpace_ends s
  unfold scanNumber
  have hlt : k < (s ++ [0]).length := by
    rw [List.length_append, List.length_singleton]
    omega
  rw [hskip, Run.ok_bind, index_lt hlt, Run.ok_bind]
  have hstart : (if (s ++ [0])[k] = 0x2B || (s ++ [0])[k] = 0x2D then k + 1 else k) ≤ s.length := by
    split
    · next hsign =>
      -- the NUL is no sign
      refine Nat.lt_of_le_of_ne hk fun heq => ?_
      subst heq
      rw [List.getElem_concat_length rfl] at hsign
      exact absurd hsign (by decide)
    · exact hk
  dsimp only
  generalize (if (s ++ [0])[k] = 0x2B || (s ++ [0])[k] = 0x2D then k + 1 else k) = start at hstart
  obtain ⟨r, hr⟩ := takeDigits_ends (s.drop start) 0
  rw [List.drop_append_of_le_length hstart, hr]
  exact ⟨_, rfl⟩

theorem strtoul32_ends (arg : List UInt8) : ∃ n, strtoul32 arg = .ok n := by
  obtain ⟨r, hr⟩ := scanNumber_ends arg
  unfold strtoul32 strtoull
  rw [hr, Run.ok_bind]
  rcases r with _ | ⟨negated, n, used⟩
  · exact ⟨_, rfl⟩
  · dsimp only
    split
    · exact ⟨_, rfl⟩
    · exact ⟨_, rfl⟩

end Numbers

section Ids

/-- The number that a run of digits stands for, by what is in front of it. -/
def numeral (p : List UInt8 × List UInt8) : Nat :=
  if 2 ^ 64 ≤ value 0 p.2 then 2 ^ 64 - 1
  else if p.1.getLast? = some 0x2D then (2 ^ 64 - value 0 p.2) % 2 ^ 64 else value 0 p.2

theorem strtoull_numeric {g ds bs : List UInt8} {b : UInt8} (hg : Numeric g) (hne : ds ≠ [])
    (hds : ∀ d ∈ ds, isDigit d = true) (hb : isDigit b = false) :
    strtoull (g ++ (ds ++ b :: bs)) = .ok (numeral (g, ds), g.length + ds.length) := by
  unfold strtoull numeral
  rw [scanNumber_numeric hg hne hds hb, Run.ok_bind]
  dsimp only
  split
  · rfl
  · simp only [decide_eq_true_eq]
    rfl

theorem strtoull_gap {g bs : List UInt8} {b : UInt8} (hg : ∀ c ∈ g, isDigit c = false) (hb : isSpace b = false)
    (hno : ¬Numeric g ∨ b = 0) : strtoull (g ++ b :: bs) = .ok (0, 0) := by
  unfold strtoull
  rw [scanNumber_gap hg hb hno]
  rfl

/-- What is in front of a number does not change when a byte is skipped that is not part of it. -/
theorem numeral_skip {c : UInt8} {g ds : List UInt8} (hno : ¬Numeric (c :: g)) : numeral (c :: g, ds) = numeral (g, ds) := by
  unfold numeral
  dsimp only
  have hlast : (c :: g).getLast? = some 0x2D ↔ g.getLast? = some 0x2D := by
    cases g with
    | nil =>
      refine iff_of_false ?_ (by simp)
      rintro ⟨⟩
      exact hno ⟨[], List.forall_mem_nil _, .inr (.inr rfl)⟩
    | cons d g => rw [List.getLast?_cons_cons]
  rw [if_congr hlast rfl rfl]

/-- The exit where a number is too large. -/
def tooLarge : Exit := fail 4 "bytepair: %s\n" [.text (bpStrerror .range)]

/-- How the loop ends where these numbers are ahead. -/
structure Parsed (ns : List Nat) (p : Parsing) (x : Except Exit (List Nat × Answers)) : Prop where
  ids : ∀ ids m, x = .ok (ids, m) → ids = p.ids ++ ns ∧ (∀ n ∈ ns, n < 2 ^ 32) ∧ (Granted p.m → Granted m)
  exits : ∀ e, x = .error e → (e = tooLarge ∧ ∃ n ∈ ns, 2 ^ 32 ≤ n) ∨ Refused p.m e

theorem Parsing.push_spec {p : Parsing} (h : p.ids.length ≤ p.cap) (hpos : 0 < p.cap) (val pos : Nat) :
    (∃ e, p.push val pos = .ok (.error e) ∧ Refused p.m e) ∨
      ∃ p', p.push val pos = .ok (.ok p') ∧ p'.pos = pos ∧ p'.ids = p.ids ++ [val] ∧ p'.ids.length ≤ p'.cap ∧ 0 < p'.cap ∧
        (Granted p.m → Granted p'.m) := by
  unfold Parsing.push ask
  dsimp only
  by_cases hfull : p.ids.length = p.cap
  · rw [if_pos hfull, if_pos hfull]
    dsimp only
    cases hm : p.m 0 with
    | false =>
      refine .inl ⟨_, rfl, rfl, rfl, fun hg => ?_⟩
      rw [hg 0] at hm
      cases hm
    | true =>
      rw [if_pos rfl, append_lt (show p.ids.length < p.cap * 2 by omega)]
      refine .inr ⟨_, rfl, rfl, rfl, ?_, ?_, fun hg k => hg (k + 1)⟩
      · dsimp only
        rw [List.length_append, List.length_singleton]
        omega
      · dsimp only
        omega
  · rw [if_neg hfull, if_neg hfull]
    dsimp only
    rw [if_pos rfl, append_lt (show p.ids.length < p.cap by omega)]
    refine .inr ⟨_, rfl, rfl, rfl, ?_, hpos, id⟩
    dsimp only
    rw [List.length_append, List.length_singleton]
    omega

variable {text : List UInt8} {len bound : Nat}

/-- A round that skips a byte. -/
theorem parse_skip {c : UInt8} {t : List UInt8} {ns : List Nat} {p : Parsing} (hnone : strtoull (c :: t ++ [0]) = .ok (0, 0))
    (htext : text.drop p.pos = c :: t ++ [0]) (hlen : p.pos + (c :: t).length = len)
    (hrest : text.drop (p.pos + 1) = t ++ [0] → p.pos + 1 + t.length = len →
      ∃ x, loop (parseRound text len) bound { p with pos := p.pos + 1 } = .ok x ∧ Parsed ns { p with pos := p.pos + 1 } x) :
    ∃ x, loop (parseRound text len) (bound + 1) p = .ok x ∧ Parsed ns p x := by
  rw [List.length_cons] at hlen
  have hround : parseRound text len p = .ok (.next { p with pos := p.pos + 1 }) := by
    unfold parseRound
    rw [if_pos (by omega), htext, hnone]
    rfl
  have hdrop : text.drop (p.pos + 1) = t ++ [0] := by
    rw [← List.drop_drop, htext]
    rfl
  obtain ⟨x, hx, hids, hexits⟩ := hrest hdrop (by omega)
  rw [loop_next hround]
  exact ⟨x, hx, hids, hexits⟩

/-- A round that reads a number. -/
theorem parse_number {g ds rest : List UInt8} {ns : List Nat} {p : Parsing}
    (hval : strtoull (g ++ (ds ++ rest) ++ [0]) = .ok (numeral (g, ds), g.length + ds.length)) (hne : ds ≠ [])
    (htext : text.drop p.pos = g ++ (ds ++ rest) ++ [0]) (hlen : p.pos + (g ++ (ds ++ rest)).length = len)
    (hids : p.ids.length ≤ p.cap) (hcap : 0 < p.cap)
    (hrest : ∀ p' : Parsing, text.drop p'.pos = rest ++ [0] → p'.pos + rest.length = len → p'.ids.length ≤ p'.cap → 0 < p'.cap →
      ∃ x, loop (parseRound text len) bound p' = .ok x ∧ Parsed ns p' x) :
    ∃ x, loop (parseRound text len) (bound + 1) p = .ok x ∧ Parsed (numeral (g, ds) :: ns) p x := by
  have hpos := List.length_pos_iff.2 hne
  rw [List.length_append, List.length_append] at hlen
  by_cases hlarge : 0xFFFFFFFF < numeral (g, ds)
  · have hround : parseRound text len p = .ok (.done (.error tooLarge)) := by
      unfold parseRound
      rw [if_pos (by omega), htext, hval, Run.ok_bind]
      dsimp only
      rw [if_neg (by omega), if_pos hlarge]
      rfl
    rw [loop_done hround]
    refine ⟨_, rfl, ?_, ?_⟩
    · rintro ids m ⟨⟩
    · rintro e ⟨⟩
      exact .inl ⟨rfl, _, List.mem_cons_self, hlarge⟩
  · rcases Parsing.push_spec hids hcap (numeral (g, ds)) (p.pos + (g.length + ds.length)) with
      ⟨e, hpush, hrefused⟩ | ⟨p', hpush, hpos', hids', hroom, hcap', hgranted⟩
    · have hround : parseRound text len p = .ok (.done (.error e)) := by
        unfold parseRound
        rw [if_pos (by omega), htext, hval, Run.ok_bind]
        dsimp only
        rw [if_neg (by omega), if_neg hlarge, hpush]
        rfl
      rw [loop_done hround]
      refine ⟨_, rfl, ?_, ?_⟩
      · rintro ids m ⟨⟩
      · rintro e' ⟨⟩
        exact .inr hrefused
    · have hround : parseRound text len p = .ok (.next p') := by
        unfold parseRound
        rw [if_pos (by omega), htext, hval, Run.ok_bind]
        dsimp only
        rw [if_neg (by omega), if_neg hlarge, hpush]
        rfl
      rw [loop_next hround]
      have hdrop : text.drop p'.pos = rest ++ [0] := by
        rw [hpos', ← List.drop_drop, htext, ← List.drop_drop, List.append_assoc, List.drop_left, List.append_assoc,
          List.drop_left]
      obtain ⟨x, hx, hparsed⟩ := hrest p' hdrop (by omega) hroom hcap'
      refine ⟨x, hx, ?_, ?_⟩
      · intro ids m hok
        obtain ⟨hall, hsmall, hm⟩ := hparsed.ids ids m hok
        rw [hids', List.append_assoc, List.singleton_append] at hall
        exact ⟨hall, List.forall_mem_cons.2 ⟨by omega, hsmall⟩, fun hg => hm (hgranted hg)⟩
      · intro e he
        rcases hparsed.exits e he with ⟨htoo, n, hn, hle⟩ | hrefused
        · exact .inl ⟨htoo, n, List.mem_cons_of_mem _ hn, hle⟩
        · exact .inr (hrefused.before hgranted)

/-- **The loop over a text of ids**, from where `t` is ahead: by induction on the rounds that are left. -/
theorem parse_loop {t : List UInt8} {ps : List (List UInt8 × List UInt8)} (ht : Runs t ps) {p : Parsing}
    (hbound : t.length < bound) (htext : text.drop p.pos = t ++ [0]) (hlen : p.pos + t.length = len)
    (hids : p.ids.length ≤ p.cap) (hcap : 0 < p.cap) :
    ∃ x, loop (parseRound text len) bound p = .ok x ∧ Parsed (ps.map numeral) p x := by
  induction bound generalizing t ps p with
  | zero => exact absurd hbound (Nat.not_lt_zero _)
  | succ bound ih =>
    cases ht with
    | gap hg =>
      cases t with
      | nil =>
        have hround : parseRound text len p = .ok (.done (.ok (p.ids, p.m))) := by
          unfold parseRound
          rw [if_neg (by rw [List.length_nil] at hlen; omega)]
          rfl
        rw [loop_done hround]
        refine ⟨_, rfl, ?_, ?_⟩
        · rintro ids m ⟨⟩
          exact ⟨(List.append_nil _).symm, List.forall_mem_nil _, id⟩
        · rintro e ⟨⟩
      | cons c t =>
        rw [List.length_cons] at hbound
        apply parse_skip (strtoull_gap hg (by decide) (.inr rfl)) htext hlen
        intro hdrop hlen'
        exact @ih t [] (.gap fun b hb => hg b (List.mem_cons_of_mem c hb)) { p with pos := p.pos + 1 } (by omega) hdrop hlen' hids
          hcap
    | @run g ds rest ps hg hne hds hrest ht =>
      -- behind the digits the text goes on with another byte, or the buffer with the NUL
      obtain ⟨b, bs, hnext, hb⟩ : ∃ b bs, rest ++ [0] = b :: bs ∧ isDigit b = false := by
        cases rest with
        | nil => exact ⟨0, [], rfl, by decide⟩
        | cons b bs => exact ⟨b, bs ++ [0], rfl, hrest b rfl⟩
      by_cases hnumeric : Numeric g
      · have hval : strtoull (g ++ (ds ++ rest) ++ [0]) = .ok (numeral (g, ds), g.length + ds.length) := by
          rw [List.append_assoc, List.append_assoc, hnext]
          exact strtoull_numeric hnumeric hne hds hb
        apply parse_number hval hne htext hlen hids hcap
        intro p' hdrop hlen' hids' hcap'
        rw [List.length_append, List.length_append] at hbound
        have hpos := List.length_pos_iff.2 hne
        exact ih ht (by omega) hdrop hlen' hids' hcap'
      · cases g with
        | nil => exact absurd ⟨[], List.forall_mem_nil _, .inl rfl⟩ hnumeric
        | cons c g =>
          obtain ⟨d, ds, rfl⟩ := List.exists_cons_of_ne_nil hne
          have hspace := (digit_plain (hds d List.mem_cons_self)).1
          have hnone : strtoull (c :: (g ++ (d :: ds ++ rest)) ++ [0]) = .ok (0, 0) := by
            have hgap := @strtoull_gap (c :: g) (ds ++ rest ++ [0]) d hg hspace (.inl hnumeric)
            simpa only [List.cons_append, List.append_assoc] using hgap
          rw [List.map_cons, numeral_skip hnumeric]
          rw [List.cons_append] at htext hlen hbound
          rw [List.length_cons] at hbound
          apply parse_skip hnone htext hlen
          intro hdrop hlen'
          have ht' := Runs.run (fun b hb => hg b (List.mem_cons_of_mem c hb)) hne hds hrest ht
          exact @ih _ _ ht' { p with pos := p.pos + 1 } (by omega) hdrop hlen' hids hcap

/-- **The ids of a text** are its runs of digits: the loop reads each of them, or exits where one is too large. -/
theorem parseIds_spec {t : List UInt8} {ps : List (List UInt8 × List UInt8)} (ht : Runs t ps) (m : Answers) :
    ∃ x, parseIds (t ++ [0]) t.length m = .ok x ∧
      (∀ ids m', x = .ok (ids, m') → ids = ps.map numeral ∧ (∀ n ∈ ps.map numeral, n < 2 ^ 32) ∧ (Granted m → Granted m')) ∧
      ∀ e, x = .error e → (e = tooLarge ∧ ∃ n ∈ ps.map numeral, 2 ^ 32 ≤ n) ∨ Refused m e := by
  unfold parseIds
  rcases xmalloc_cases m with ⟨hmalloc, -⟩ | ⟨hmalloc, hno⟩
  · rw [hmalloc]
    obtain ⟨x, hx, hparsed⟩ := @parse_loop (t ++ [0]) t.length (t.length + 1) t ps ht ⟨0, [], 1024, (ask m).2⟩
      (Nat.lt_succ_self _) rfl (Nat.zero_add _) (Nat.zero_le _) (show 0 < 1024 by decide)
    refine ⟨x, hx, fun ids m' hok => ?_, fun e he => ?_⟩
    · obtain ⟨hids, hsmall, hm⟩ := hparsed.ids ids m' hok
      exact ⟨hids, hsmall, fun hg => hm (ask_granted hg).2⟩
    · rcases hparsed.exits e he with htoo | hrefused
      · exact .inl htoo
      · exact .inr (hrefused.before fun hg => (ask_granted hg).2)
  · rw [hmalloc]
    refine ⟨_, rfl, ?_, ?_⟩
    · rintro ids m' ⟨⟩
    · rintro e ⟨⟩
      exact .inr ⟨rfl, rfl, fun hg => by rw [hg 0] at hno; cases hno⟩

end Ids

end Bytepair.Cli
