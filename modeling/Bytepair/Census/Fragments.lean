import Bytepair.Utf8
import Mathlib.Data.List.TakeWhile

/-!
# Fragments of well-formed text

Bytes that are cut out of well-formed UTF-8. A byte that does not continue a character begins one, so a fragment is
the last bytes of a character, whole characters and the first bytes of one, or it is inside a character:
`fragment_cases`. Where the first character ends is read off the fragment alone.
-/

namespace Bytepair
open Support

/-- The text is well-formed UTF-8. -/
def WellFormed (t : List UInt8) : Prop := ∀ u ∈ units t, IsScalar u

/-- The bytes are a part of some well-formed text. -/
def Fragment (s : List UInt8) : Prop := ∃ x, WellFormed x ∧ s <:+: x

/-- How many characters a fragment has bytes of. -/
def charCount (s : List UInt8) : Nat := s.countP notCont + if (s.takeWhile (!notCont ·)).isEmpty then 0 else 1

section WellFormed

theorem wellFormed_encodeUnits {us : List Nat} (hus : ∀ u ∈ us, IsScalar u) : WellFormed (encodeUnits us) := by
  unfold WellFormed
  rwa [units_encodeUnits hus]

theorem fragment_iff {s : List UInt8} : Fragment s ↔ ∃ us, (∀ u ∈ us, IsScalar u) ∧ s <:+: encodeUnits us := by
  constructor
  · rintro ⟨x, hx, hs⟩
    exact ⟨units x, hx, by rwa [encodeUnits_units]⟩
  · rintro ⟨us, hus, hs⟩
    exact ⟨encodeUnits us, wellFormed_encodeUnits hus, hs⟩

theorem Fragment.mono {s t : List UInt8} (ht : Fragment t) (hs : s <:+: t) : Fragment s := by
  obtain ⟨x, hx, htx⟩ := ht
  exact ⟨x, hx, hs.trans htx⟩

end WellFormed

section Boundaries

/-- A byte that does not continue a character begins one. -/
theorem encodeUnits_split {us : List Nat} (hus : ∀ u ∈ us, IsScalar u) {a r : List UInt8}
    (h : encodeUnits us = a ++ r) (hr : ∀ b ∈ r.head?, notCont b = true) :
    ∃ vs ws, us = vs ++ ws ∧ encodeUnits vs = a ∧ encodeUnits ws = r := by
  induction us generalizing a with
  | nil =>
    obtain ⟨rfl, rfl⟩ := List.append_eq_nil_iff.1 h.symm
    exact ⟨[], [], rfl, rfl, rfl⟩
  | cons u us ih =>
    obtain ⟨hu, hus⟩ := List.forall_mem_cons.1 hus
    rw [encodeUnits_cons] at h
    rcases List.append_eq_append_iff.1 h with ⟨a', rfl, hrest⟩ | ⟨c, hu', rfl⟩
    · obtain ⟨vs, ws, rfl, rfl, hws⟩ := ih hus hrest
      exact ⟨u :: vs, ws, rfl, encodeUnits_cons u vs, hws⟩
    · obtain ⟨b₀, conts, henc, -, hconts⟩ := encodeUnit_shape hu.lt
      cases a with
      | nil =>
        refine ⟨[], u :: us, rfl, rfl, ?_⟩
        rw [encodeUnits_cons, hu', List.nil_append]
      | cons b a =>
        cases c with
        | nil => exact ⟨[u], us, rfl, by rw [encodeUnits_cons, hu']; simp [encodeUnits], rfl⟩
        | cons d c =>
          rw [henc] at hu'
          have hd := hconts d (by rw [(List.cons.inj hu').2]; simp)
          have hd' := hr d rfl
          rw [hd] at hd'
          cases hd'

/-- The bytes that continue a character at the end of a text are the last ones of its last character. -/
theorem encodeUnits_conts {us : List Nat} (hus : ∀ u ∈ us, IsScalar u) {a p : List UInt8}
    (h : encodeUnits us = a ++ p) (hne : p ≠ []) (hp : ∀ b ∈ p, notCont b = false) :
    ∃ vs u a', us = vs ++ [u] ∧ encodeUnit u = a' ++ p ∧ a' ≠ [] := by
  rcases List.eq_nil_or_concat us with rfl | ⟨vs, u, rfl⟩
  · exact absurd (List.append_eq_nil_iff.1 h.symm).2 hne
  · have hu := hus u (by simp)
    rw [List.concat_eq_append, encodeUnits_append] at h
    have hlast : encodeUnits [u] = encodeUnit u := by simp [encodeUnits]
    rw [hlast] at h
    obtain ⟨b₀, conts, henc, hb₀, -⟩ := encodeUnit_shape hu.lt
    -- the first byte of the character is none of the bytes
    have hnot : ∀ c, p ≠ c ++ encodeUnit u := by
      rintro c rfl
      have hmem := hp b₀ (by rw [henc]; simp)
      rw [hb₀] at hmem
      cases hmem
    refine ⟨vs, u, ?_⟩
    rcases List.append_eq_append_iff.1 h with ⟨a', -, hp'⟩ | ⟨c, -, hp'⟩
    · refine ⟨a', List.concat_eq_append, hp', ?_⟩
      rintro rfl
      exact hnot [] (by simpa using hp'.symm)
    · exact absurd hp' (hnot c)

theorem length_conts_le {u : Nat} {a p : List UInt8} (h : encodeUnit u = a ++ p) (ha : a ≠ []) : p.length ≤ 3 := by
  have hle := length_encodeUnit_le u
  have hpos := List.length_pos_iff.2 ha
  rw [h, List.length_append] at hle
  omega

end Boundaries

section Fragments

theorem takeWhile_conts (s : List UInt8) : ∀ b ∈ s.takeWhile (!notCont ·), notCont b = false := by
  intro b hb
  simpa using List.mem_takeWhile_imp hb

theorem dropWhile_conts (s : List UInt8) : ∀ b ∈ (s.dropWhile (!notCont ·)).head?, notCont b = true := by
  intro b hb
  have hnot := List.head?_dropWhile_not (!notCont ·) s
  rw [Option.mem_def.1 hb] at hnot
  simpa using hnot

/-- **A fragment** is inside a character, or it is cut at the end of its first character. -/
theorem fragment_cases {us : List Nat} (hus : ∀ u ∈ us, IsScalar u) {s : List UInt8} (hs : s <:+: encodeUnits us) :
    (s.length ≤ 3 ∧ ∀ b ∈ s, notCont b = false) ∨
    ∃ vs ws p s', us = vs ++ ws ∧ s = p ++ s' ∧ p = s.takeWhile (!notCont ·) ∧ s'.any notCont = true ∧
      s' <+: encodeUnits ws ∧
      (p = [] ∨ p ≠ [] ∧ p.length ≤ 3 ∧ ∃ vs' u a, vs = vs' ++ [u] ∧ encodeUnit u = a ++ p ∧ a ≠ []) := by
  obtain ⟨a, b, h⟩ := hs
  have hconts := takeWhile_conts s
  have hrest := dropWhile_conts s
  have hcut : s.takeWhile (!notCont ·) ++ s.dropWhile (!notCont ·) = s := List.takeWhile_append_dropWhile
  generalize hp : s.takeWhile (!notCont ·) = p at hcut hconts
  generalize s.dropWhile (!notCont ·) = s' at hcut hrest
  cases s' with
  | nil =>
    left
    rw [List.append_nil] at hcut
    subst hcut
    refine ⟨?_, hconts⟩
    rcases eq_or_ne p [] with rfl | hne
    · exact Nat.zero_le _
    -- with the bytes behind it that continue the character it is the end of one
    have hcut' : b.takeWhile (!notCont ·) ++ b.dropWhile (!notCont ·) = b := List.takeWhile_append_dropWhile
    rw [← hcut', ← List.append_assoc, List.append_assoc a] at h
    obtain ⟨vs, ws, rfl, hvs, -⟩ := encodeUnits_split hus h.symm (dropWhile_conts b)
    obtain ⟨-, u, a', -, hu, ha'⟩ := encodeUnits_conts (fun u hu => hus u (List.mem_append_left ws hu)) hvs
      (List.append_ne_nil_of_left_ne_nil hne _) (List.forall_mem_append.2 ⟨hconts, takeWhile_conts b⟩)
    have hle := length_conts_le hu ha'
    rw [List.length_append] at hle
    omega
  | cons c s' =>
    right
    subst hcut
    rw [← List.append_assoc, List.append_assoc] at h
    obtain ⟨vs, ws, rfl, hvs, hws⟩ := encodeUnits_split hus h.symm (by simpa using hrest)
    have hc : (c :: s').any notCont = true := by
      rw [List.any_cons, hrest c rfl, Bool.true_or]
    refine ⟨vs, ws, p, c :: s', rfl, rfl, rfl, hc, ⟨b, hws.symm⟩, ?_⟩
    rcases eq_or_ne p [] with rfl | hne
    · exact .inl rfl
    · obtain ⟨vs', u, a', rfl, hu, ha'⟩ :=
        encodeUnits_conts (fun u hu => hus u (List.mem_append_left ws hu)) hvs hne hconts
      exact .inr ⟨hne, length_conts_le hu ha', vs', u, a', rfl, hu, ha'⟩

/-- The first bytes of a text are whole characters and the first bytes of one. -/
theorem prefix_parts {ws : List Nat} (hws : ∀ u ∈ ws, IsScalar u) {s : List UInt8} (hs : s <+: encodeUnits ws) :
    ∃ ms q u c, s = encodeUnits ms ++ q ∧ (∀ m ∈ ms, IsScalar m) ∧ IsScalar u ∧ encodeUnit u = q ++ c ∧ c ≠ [] := by
  have hnothing : ∃ ms q u c, ([] : List UInt8) = encodeUnits ms ++ q ∧ (∀ m ∈ ms, IsScalar m) ∧ IsScalar u ∧
      encodeUnit u = q ++ c ∧ c ≠ [] :=
    ⟨[], [], 0x20, encodeUnit 0x20, rfl, List.forall_mem_nil _, .inl (by decide), rfl, encodeUnit_ne_nil _⟩
  induction ws generalizing s with
  | nil =>
    obtain rfl := List.prefix_nil.1 hs
    exact hnothing
  | cons w ws ih =>
    obtain ⟨hw, hws⟩ := List.forall_mem_cons.1 hws
    obtain ⟨more, hmore⟩ := hs
    rw [encodeUnits_cons] at hmore
    rcases List.append_eq_append_iff.1 hmore with ⟨c, hw', -⟩ | ⟨t, rfl, hws'⟩
    · rcases eq_or_ne c [] with rfl | hc
      · refine ⟨[w], [], 0x20, encodeUnit 0x20, ?_, List.forall_mem_singleton.2 hw, .inl (by decide), rfl,
          encodeUnit_ne_nil _⟩
        rw [List.append_nil] at hw'
        rw [← hw', List.append_nil]
        exact (List.append_nil _).symm
      · exact ⟨[], s, w, c, rfl, List.forall_mem_nil _, hw, hw', hc⟩
    · obtain ⟨ms, q, u, c, rfl, hms, hu⟩ := ih hws ⟨more, hws'.symm⟩
      exact ⟨w :: ms, q, u, c, by rw [encodeUnits_cons, List.append_assoc], List.forall_mem_cons.2 ⟨hw, hms⟩, hu⟩

/-- A fragment by its parts: the last bytes of a character, whole ones, and the first bytes of one. -/
theorem fragment_parts {s : List UInt8} (hs : Fragment s) :
    (∀ b ∈ s, notCont b = false) ∨
    ∃ p ms q, s = p ++ (encodeUnits ms ++ q) ∧ (∀ b ∈ p, notCont b = false) ∧ (∀ m ∈ ms, IsScalar m) ∧
      (∃ u a, IsScalar u ∧ encodeUnit u = a ++ p) ∧ ∃ u c, IsScalar u ∧ encodeUnit u = q ++ c ∧ c ≠ [] := by
  obtain ⟨us, hus, hs⟩ := fragment_iff.1 hs
  rcases fragment_cases hus hs with ⟨-, hconts⟩ | ⟨vs, ws, p, s', rfl, rfl, hp, -, hws, hlead⟩
  · exact .inl hconts
  · right
    obtain ⟨husv, husw⟩ := List.forall_mem_append.1 hus
    obtain ⟨ms, q, u, c, rfl, hms, hu, henc, hc⟩ := prefix_parts husw hws
    refine ⟨p, ms, q, rfl, ?_, hms, ?_, u, c, hu, henc, hc⟩
    · rw [hp]
      exact takeWhile_conts _
    · rcases hlead with rfl | ⟨-, -, vs', w, a, rfl, hw, -⟩
      · exact ⟨0x20, encodeUnit 0x20, .inl (by decide), (List.append_nil _).symm⟩
      · exact ⟨w, a, husv w (by simp), hw⟩

end Fragments

end Bytepair
