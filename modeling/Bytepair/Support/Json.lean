import Mathlib.Data.List.Basic

/-!
# JSON texts

The grammar of JSON: `Spells` relates a value to its texts. A text is a list of characters, a string of a value its
UTF-16 code units, a number its digits as they are written. `scan` reads a text knowing only where strings are and
whether a comma was last; `Spells.scan` says that it never meets a bracket that closes behind a comma.
-/

namespace Support

/-- A value. -/
inductive Json where
  | null
  | bool (b : Bool)
  | number (text : List Char)
  | string (units : List Nat)
  | array (values : List Json)
  | object (members : List (List Nat × Json))

namespace Json

section Grammar

/-- Insignificant whitespace. -/
def isSpace (c : Char) : Bool := c = ' ' || c = '\t' || c = '\n' || c = '\r'

def Blank (w : List Char) : Prop := ∀ c ∈ w, isSpace c = true

def Digits (ds : List Char) : Prop := ∀ c ∈ ds, c.isDigit = true

/-- A whole number without leading zeros. -/
inductive Whole : List Char → Prop where
  | zero : Whole ['0']
  | digits {d : Char} {ds : List Char} : d.isDigit = true → d ≠ '0' → Digits ds → Whole (d :: ds)

inductive Fraction : List Char → Prop where
  | none : Fraction []
  | some {ds : List Char} : ds ≠ [] → Digits ds → Fraction ('.' :: ds)

inductive Exponent : List Char → Prop where
  | none : Exponent []
  | some {e : Char} {sign ds : List Char} : e = 'e' ∨ e = 'E' → sign = [] ∨ sign = ['+'] ∨ sign = ['-'] → ds ≠ [] →
      Digits ds → Exponent (e :: (sign ++ ds))

inductive Numeral : List Char → Prop where
  | mk {sign whole fraction exponent : List Char} : sign = [] ∨ sign = ['-'] → Whole whole → Fraction fraction →
      Exponent exponent → Numeral (sign ++ whole ++ fraction ++ exponent)

def hexValue (c : Char) : Option Nat :=
  if c.isDigit then some (c.toNat - 48)
  else if 'a' ≤ c ∧ c ≤ 'f' then some (c.toNat - 87)
  else if 'A' ≤ c ∧ c ≤ 'F' then some (c.toNat - 55)
  else none

/-- The characters that a backslash and one letter stand for. -/
def shortEscapes : List (Char × Nat) :=
  [('"', 0x22), ('\\', 0x5C), ('/', 0x2F), ('b', 8), ('f', 0xC), ('n', 0xA), ('r', 0xD), ('t', 9)]

/-- The UTF-16 code units of a character. -/
def utf16 (c : Char) : List Nat :=
  if c.toNat < 0x10000 then [c.toNat]
  else [0xD800 + (c.toNat - 0x10000) / 0x400, 0xDC00 + (c.toNat - 0x10000) % 0x400]

/-- A character of a string, as it is or escaped. -/
inductive Piece : List Char → List Nat → Prop where
  | plain {c : Char} : 0x20 ≤ c.toNat → c ≠ '"' → c ≠ '\\' → Piece [c] (utf16 c)
  | short {c : Char} {u : Nat} : (c, u) ∈ shortEscapes → Piece ['\\', c] [u]
  | hex {a b c d : Char} {w x y z : Nat} : hexValue a = some w → hexValue b = some x → hexValue c = some y →
      hexValue d = some z → Piece ['\\', 'u', a, b, c, d] [((w * 16 + x) * 16 + y) * 16 + z]

/-- What stands between the quotation marks of a string. -/
inductive Body : List Char → List Nat → Prop where
  | nil : Body [] []
  | cons {p s : List Char} {us vs : List Nat} : Piece p us → Body s vs → Body (p ++ s) (us ++ vs)

def quoted (s : List Char) : List Char := '"' :: (s ++ ['"'])

/-- The parts of the grammar: a value, one with space around it, and what an array or an object has inside. -/
inductive Part where
  | value (v : Json)
  | padded (v : Json)
  | elements (vs : List Json)
  | members (ms : List (List Nat × Json))

/-- The text spells the part. -/
inductive Spells : Part → List Char → Prop where
  | null : Spells (.value .null) ['n', 'u', 'l', 'l']
  | true : Spells (.value (.bool true)) ['t', 'r', 'u', 'e']
  | false : Spells (.value (.bool false)) ['f', 'a', 'l', 's', 'e']
  | number {s : List Char} : Numeral s → Spells (.value (.number s)) s
  | string {s : List Char} {us : List Nat} : Body s us → Spells (.value (.string us)) (quoted s)
  | emptyArray {w : List Char} : Blank w → Spells (.value (.array [])) ('[' :: (w ++ [']']))
  | array {vs : List Json} {s : List Char} : Spells (.elements vs) s → Spells (.value (.array vs)) ('[' :: (s ++ [']']))
  | emptyObject {w : List Char} : Blank w → Spells (.value (.object [])) ('{' :: (w ++ ['}']))
  | object {ms : List (List Nat × Json)} {s : List Char} : Spells (.members ms) s →
      Spells (.value (.object ms)) ('{' :: (s ++ ['}']))
  | padded {l r s : List Char} {v : Json} : Blank l → Spells (.value v) s → Blank r → Spells (.padded v) (l ++ s ++ r)
  | element {v : Json} {s : List Char} : Spells (.padded v) s → Spells (.elements [v]) s
  | elements {v : Json} {vs : List Json} {s t : List Char} : Spells (.padded v) s → Spells (.elements vs) t →
      Spells (.elements (v :: vs)) (s ++ ',' :: t)
  | member {l r k s : List Char} {key : List Nat} {v : Json} : Blank l → Body k key → Blank r → Spells (.padded v) s →
      Spells (.members [(key, v)]) (l ++ quoted k ++ r ++ ':' :: s)
  | members {m : List Nat × Json} {ms : List (List Nat × Json)} {s t : List Char} : Spells (.members [m]) s →
      Spells (.members ms) t → Spells (.members (m :: ms)) (s ++ ',' :: t)

/-- The text is one JSON text, of the value. -/
def IsText (s : List Char) (v : Json) : Prop := Spells (.padded v) s

end Grammar

section Scan

/-- What `scan` knows: inside a string, behind a backslash, behind a comma, or that a bracket closed behind one. -/
inductive Reading where
  | plain
  | comma
  | string
  | escape
  | broken
  deriving DecidableEq

def Reading.read : Reading → Char → Reading
  | .plain, c => if c = '"' then .string else if c = ',' then .comma else .plain
  | .comma, c =>
    if c = '"' then .string else if isSpace c then .comma else if c = ']' ∨ c = '}' then .broken else .plain
  | .string, c => if c = '\\' then .escape else if c = '"' then .plain else .string
  | .escape, _ => .string
  | .broken, _ => .broken

def scan (r : Reading) (s : List Char) : Reading := s.foldl Reading.read r

theorem scan_append (r : Reading) (s t : List Char) : scan r (s ++ t) = scan (scan r s) t := List.foldl_append

theorem scan_cons (r : Reading) (c : Char) (s : List Char) : scan r (c :: s) = scan (r.read c) s := rfl

/-- Outside of a string. -/
def Reading.Outside (r : Reading) : Prop := r = .plain ∨ r = .comma

/-- A character that has no part in what `scan` looks for. -/
def Ordinary (c : Char) : Prop := isSpace c = false ∧ c ≠ '"' ∧ c ≠ ',' ∧ c ≠ ']' ∧ c ≠ '}'

/-- An ordinary character leaves the plain reading. -/
theorem read_ordinary {r : Reading} (hr : r.Outside) {c : Char} (hc : Ordinary c) : r.read c = .plain := by
  obtain ⟨hspace, hquote, hcomma, hbracket, hbrace⟩ := hc
  rcases hr with rfl | rfl
  · simp [Reading.read, hquote, hcomma]
  · simp [Reading.read, hquote, hspace, hbracket, hbrace]

/-- A word of ordinary characters leaves the plain reading. -/
theorem scan_ordinary {s : List Char} (hs : ∀ c ∈ s, Ordinary c) (hne : s ≠ []) {r : Reading} (hr : r.Outside) :
    scan r s = .plain := by
  induction s generalizing r with
  | nil => exact absurd rfl hne
  | cons c s ih =>
    obtain ⟨hc, hs⟩ := List.forall_mem_cons.1 hs
    rw [scan_cons, read_ordinary hr hc]
    cases s with
    | nil => rfl
    | cons c' s => exact ih hs (List.cons_ne_nil _ _) (.inl rfl)

/-- Whitespace changes nothing. -/
theorem scan_blank {w : List Char} (hw : Blank w) {r : Reading} (hr : r.Outside) : scan r w = r := by
  induction w with
  | nil => rfl
  | cons c w ih =>
    obtain ⟨hc, hw⟩ := List.forall_mem_cons.1 hw
    have hread : r.read c = r := by
      have hcases := hc
      unfold isSpace at hcases
      simp only [Bool.or_eq_true, decide_eq_true_eq] at hcases
      rcases hr with rfl | rfl
      · rcases hcases with ((rfl | rfl) | rfl) | rfl <;> decide
      · rcases hcases with ((rfl | rfl) | rfl) | rfl <;> decide
    rw [scan_cons, hread, ih hw]

theorem hexValue_ne {c : Char} {w : Nat} (h : hexValue c = some w) : c ≠ '\\' ∧ c ≠ '"' := by
  constructor
  · rintro rfl
    cases h
  · rintro rfl
    cases h

/-- Inside a string all but a quotation mark and a backslash is passed over. -/
theorem read_string {c : Char} (h : c ≠ '\\' ∧ c ≠ '"') : Reading.string.read c = .string := by
  simp [Reading.read, h.1, h.2]

/-- The body of a string leads from inside to inside, whatever it has escaped. -/
theorem Body.scan {s : List Char} {us : List Nat} (h : Body s us) : Json.scan .string s = .string := by
  induction h with
  | nil => rfl
  | cons hp _ ih =>
    rw [scan_append]
    cases hp with
    | plain hlow hquote hback => rwa [scan_cons, read_string ⟨hback, hquote⟩]
    | short => exact ih
    | @hex a b c d _ _ _ _ ha hb hc hd =>
      have hrun : Json.scan .string ['\\', 'u', a, b, c, d] = .string := by
        rw [scan_cons, scan_cons, scan_cons, scan_cons, scan_cons, scan_cons]
        change ((((Reading.string.read a).read b).read c).read d) = .string
        rw [read_string (hexValue_ne ha), read_string (hexValue_ne hb), read_string (hexValue_ne hc),
          read_string (hexValue_ne hd)]
      rwa [hrun]

/-- A whole string leads from outside to outside. -/
theorem scan_quoted {s : List Char} {us : List Nat} (h : Body s us) {r : Reading} (hr : r.Outside) :
    scan r (quoted s) = .plain := by
  have hopen : r.read '"' = .string := by
    rcases hr with rfl | rfl <;> rfl
  rw [quoted, scan_cons, hopen, scan_append, h.scan]
  rfl

theorem ordinary_digit {c : Char} (h : c.isDigit = true) : Ordinary c := by
  have hspace : isSpace c = false := by
    rw [Bool.eq_false_iff]
    intro hc
    simp only [isSpace, Bool.or_eq_true, decide_eq_true_eq] at hc
    rcases hc with ((rfl | rfl) | rfl) | rfl <;> cases h
  refine ⟨hspace, ?_, ?_, ?_, ?_⟩ <;> (rintro rfl; cases h)

/-- Whole numbers have ordinary characters alone. -/
theorem Whole.ordinary {s : List Char} (h : Whole s) : s ≠ [] ∧ ∀ c ∈ s, Ordinary c := by
  cases h with
  | zero => exact ⟨List.cons_ne_nil _ _, List.forall_mem_singleton.2 (ordinary_digit rfl)⟩
  | digits hd _ hds =>
    exact ⟨List.cons_ne_nil _ _, List.forall_mem_cons.2 ⟨ordinary_digit hd, fun c hc => ordinary_digit (hds c hc)⟩⟩

/-- So have numbers with a fraction or an exponent. -/
theorem Numeral.ordinary {s : List Char} (h : Numeral s) : s ≠ [] ∧ ∀ c ∈ s, Ordinary c := by
  obtain ⟨hsign, hwhole, hfraction, hexponent⟩ := h
  have hpart : ∀ {ds : List Char}, Digits ds → ∀ c ∈ ds, Ordinary c := fun hds c hc => ordinary_digit (hds c hc)
  refine ⟨by simp [hwhole.ordinary.1], ?_⟩
  refine List.forall_mem_append.2 ⟨List.forall_mem_append.2 ⟨List.forall_mem_append.2 ⟨?_, hwhole.ordinary.2⟩, ?_⟩, ?_⟩
  · rcases hsign with rfl | rfl
    · exact List.forall_mem_nil _
    · exact List.forall_mem_singleton.2 (by unfold Ordinary; decide)
  · cases hfraction with
    | none => exact List.forall_mem_nil _
    | some _ hds => exact List.forall_mem_cons.2 ⟨by unfold Ordinary; decide, hpart hds⟩
  · cases hexponent with
    | none => exact List.forall_mem_nil _
    | some he hsign _ hds =>
      refine List.forall_mem_cons.2 ⟨?_, List.forall_mem_append.2 ⟨?_, hpart hds⟩⟩
      · rcases he with rfl | rfl <;> (unfold Ordinary; decide)
      · rcases hsign with rfl | rfl | rfl
        · exact List.forall_mem_nil _
        · exact List.forall_mem_singleton.2 (by unfold Ordinary; decide)
        · exact List.forall_mem_singleton.2 (by unfold Ordinary; decide)

/-- **What a JSON text has inside** leads from outside of strings to outside of strings, and no bracket closes behind a
comma. -/
theorem Spells.scan {p : Part} {s : List Char} (h : Spells p s) {r : Reading} (hr : r.Outside) :
    Json.scan r s = .plain := by
  have hplain : Reading.plain.Outside := .inl rfl
  induction h generalizing r with
  | null => rcases hr with rfl | rfl <;> rfl
  | true => rcases hr with rfl | rfl <;> rfl
  | false => rcases hr with rfl | rfl <;> rfl
  | number hs => exact scan_ordinary hs.ordinary.2 hs.ordinary.1 hr
  | string hs => exact scan_quoted hs hr
  | emptyArray hw =>
    have hopen : r.read '[' = .plain := by rcases hr with rfl | rfl <;> rfl
    rw [scan_cons, hopen, scan_append, scan_blank hw hplain]
    rfl
  | array _ ih =>
    have hopen : r.read '[' = .plain := by rcases hr with rfl | rfl <;> rfl
    rw [scan_cons, hopen, scan_append, ih hplain]
    rfl
  | emptyObject hw =>
    have hopen : r.read '{' = .plain := by rcases hr with rfl | rfl <;> rfl
    rw [scan_cons, hopen, scan_append, scan_blank hw hplain]
    rfl
  | object _ ih =>
    have hopen : r.read '{' = .plain := by rcases hr with rfl | rfl <;> rfl
    rw [scan_cons, hopen, scan_append, ih hplain]
    rfl
  | padded hl _ hrest ih => rw [scan_append, scan_append, scan_blank hl hr, ih hr, scan_blank hrest hplain]
  | element _ ih => exact ih hr
  | elements _ _ ihs iht =>
    rw [scan_append, ihs hr, scan_cons]
    exact iht (.inr rfl)
  | member hl hk hrest _ ih =>
    rw [scan_append, scan_append, scan_append, scan_blank hl hr, scan_quoted hk hr, scan_blank hrest hplain, scan_cons]
    exact ih hplain
  | members _ _ ihs iht =>
    rw [scan_append, ihs hr, scan_cons]
    exact iht (.inr rfl)

/-- A text in which a bracket closes behind a comma is no JSON text. -/
theorem not_isText_of_broken {s : List Char} (h : scan .plain s = .broken) : ¬∃ v, IsText s v := by
  rintro ⟨v, hv⟩
  cases h.symm.trans (Spells.scan hv (.inl rfl))

end Scan

section Write

/-- A number that is not 0 does not begin with 0. -/
theorem toDigits_head {n : Nat} (h : 0 < n) : ∃ d ds, Nat.toDigits 10 n = d :: ds ∧ d ≠ '0' := by
  induction n using Nat.strongRecOn with
  | ind n ih =>
    rcases Nat.lt_or_ge n 10 with hlt | hge
    · refine ⟨n.digitChar, [], Nat.toDigits_of_lt_base hlt, ?_⟩
      rw [Ne, Nat.digitChar_eq_zero]
      omega
    · obtain ⟨d, ds, hfront, hd⟩ := ih (n / 10) (by omega) (by omega)
      refine ⟨d, ds ++ [(n % 10).digitChar], ?_, hd⟩
      rw [Nat.toDigits_of_base_le (by decide) hge, hfront]
      rfl

/-- The decimal digits of a number are a whole number of the grammar. -/
theorem whole_toDigits (n : Nat) : Whole (Nat.toDigits 10 n) := by
  have hdigits : Digits (Nat.toDigits 10 n) := fun c hc => Nat.isDigit_of_mem_toDigits (by decide) (by decide) hc
  rcases Nat.eq_zero_or_pos n with rfl | hpos
  · exact .zero
  · obtain ⟨d, ds, heq, hd⟩ := toDigits_head hpos
    rw [heq] at hdigits ⊢
    obtain ⟨hfirst, hds⟩ := List.forall_mem_cons.1 hdigits
    exact .digits hfirst hd hds

/-- And so a number, of no sign, fraction or exponent. -/
theorem numeral_toDigits (n : Nat) : Numeral (Nat.toDigits 10 n) := by
  have h := Numeral.mk (.inl rfl) (whole_toDigits n) .none .none
  rwa [List.nil_append, List.append_nil, List.append_nil] at h

/-- Characters that need no escape stand for themselves. -/
theorem body_plain {s : List Char} (h : ∀ c ∈ s, 0x20 ≤ c.toNat ∧ c.toNat < 0x10000 ∧ c ≠ '"' ∧ c ≠ '\\') :
    Body s (s.map Char.toNat) := by
  induction s with
  | nil => exact .nil
  | cons c s ih =>
    obtain ⟨⟨hlow, hhigh, hquote, hback⟩, hs⟩ := List.forall_mem_cons.1 h
    have hpiece := Piece.plain hlow hquote hback
    rw [utf16, if_pos hhigh] at hpiece
    exact .cons hpiece (ih hs)

/-- A member as it is written without space, and what it spells. -/
structure Member where
  name : List Char
  key : List Nat
  text : List Char
  value : Json

def Member.written (m : Member) : List Char := quoted m.name ++ ':' :: m.text

def Member.Ok (m : Member) : Prop := Body m.name m.key ∧ Spells (.value m.value) m.text

theorem blank_nil : Blank [] := List.forall_mem_nil _

theorem blank_of_all {w : List Char} (h : w.all isSpace = true) : Blank w := List.all_eq_true.1 h

/-- No space is needed around a value. -/
theorem Spells.unpadded {v : Json} {s : List Char} (h : Spells (.value v) s) : Spells (.padded v) s := by
  have hpadded := Spells.padded blank_nil h blank_nil
  rwa [List.nil_append, List.append_nil] at hpadded

/-- A member that is written without space is a member of the grammar. -/
theorem Member.Ok.spells {m : Member} (h : m.Ok) : Spells (.members [(m.key, m.value)]) m.written := by
  have hmember := Spells.member blank_nil h.1 blank_nil h.2.unpadded
  rwa [List.nil_append, List.append_nil] at hmember

/-- Members with commas between them. -/
theorem spells_members {ms : List Member} (hne : ms ≠ []) (hms : ∀ m ∈ ms, m.Ok) :
    Spells (.members (ms.map fun m => (m.key, m.value))) ([','].intercalate (ms.map Member.written)) := by
  induction ms with
  | nil => exact absurd rfl hne
  | cons m ms ih =>
    obtain ⟨hm, hms⟩ := List.forall_mem_cons.1 hms
    cases ms with
    | nil =>
      rw [List.map_singleton, List.map_singleton, List.intercalate_singleton]
      exact hm.spells
    | cons m' ms =>
      have hrest := ih (List.cons_ne_nil _ _) hms
      have hnonempty : (m' :: ms).map Member.written ≠ [] := List.cons_ne_nil _ _
      rw [List.map_cons, List.map_cons (f := Member.written), List.intercalate_cons_of_ne_nil hnonempty, List.append_assoc]
      exact .members hm.spells hrest

end Write

end Json

end Support
