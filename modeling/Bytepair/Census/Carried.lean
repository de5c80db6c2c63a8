import Bytepair.Census.Language

/-!
# The units that bytes are of

Where bytes are in a text they are bytes of some of its units, `Carries`: the first unit has the first byte and the last
one the last. A well-formed text is cut into units as it is alone wherever it is a part of another, so that no unit
that carries it is malformed: `carries_scalar`.
-/

namespace Bytepair
open Support

/-- The bytes begin in the first unit and end in the last one. -/
def Carries (ms : List Nat) (s : List UInt8) : Prop :=
  ∃ a b, encodeUnits ms = a ++ (s ++ b) ∧ (∀ u ∈ ms.head?, a.length < (encodeUnit u).length) ∧
    ∀ u ∈ ms.getLast?, b.length < (encodeUnit u).length

section Carries

theorem encodeUnits_inside {us ms : List Nat} (h : ms <:+: us) : encodeUnits ms <:+: encodeUnits us := by
  obtain ⟨vs, ws, rfl⟩ := h
  rw [encodeUnits_append, encodeUnits_append]
  exact ⟨encodeUnits vs, encodeUnits ws, rfl⟩

theorem Carries.within {ms : List Nat} {s : List UInt8} (h : Carries ms s) : s <:+: encodeUnits ms := by
  obtain ⟨a, b, hbytes, -⟩ := h
  exact ⟨a, b, by rw [hbytes, List.append_assoc]⟩

/-- The units in front of the first byte can be left out. -/
theorem carries_front {us : List Nat} {s a b : List UInt8} (hne : s ≠ []) (h : encodeUnits us = a ++ (s ++ b)) :
    ∃ vs ms a', us = vs ++ ms ∧ encodeUnits ms = a' ++ (s ++ b) ∧ ∀ u ∈ ms.head?, a'.length < (encodeUnit u).length := by
  induction us generalizing a with
  | nil =>
    obtain ⟨-, hrest⟩ := List.append_eq_nil_iff.1 h.symm
    exact absurd (List.append_eq_nil_iff.1 hrest).1 hne
  | cons u us ih =>
    rcases Nat.lt_or_ge a.length (encodeUnit u).length with hlt | hge
    · refine ⟨[], u :: us, a, rfl, h, ?_⟩
      intro w hw
      cases hw
      exact hlt
    · rw [encodeUnits_cons] at h
      obtain ⟨a', rfl⟩ := List.prefix_of_prefix_length_le (List.prefix_append _ _) ⟨s ++ b, h.symm⟩ hge
      rw [List.append_assoc] at h
      obtain ⟨vs, ms, a'', rfl, hms⟩ := ih (List.append_cancel_left h)
      exact ⟨u :: vs, ms, a'', rfl, hms⟩

/-- So can those behind the last one. -/
theorem carries_back {us : List Nat} {s a b : List UInt8} (hne : s ≠ []) (h : encodeUnits us = a ++ (s ++ b)) :
    ∃ ms ws b', us = ms ++ ws ∧ encodeUnits ms = a ++ (s ++ b') ∧ ∀ u ∈ ms.getLast?, b'.length < (encodeUnit u).length := by
  induction us using List.reverseRecOn generalizing b with
  | nil =>
    obtain ⟨-, hrest⟩ := List.append_eq_nil_iff.1 h.symm
    exact absurd (List.append_eq_nil_iff.1 hrest).1 hne
  | append_singleton us u ih =>
    rcases Nat.lt_or_ge b.length (encodeUnit u).length with hlt | hge
    · refine ⟨us ++ [u], [], b, (List.append_nil _).symm, h, ?_⟩
      intro w hw
      rw [List.getLast?_concat] at hw
      cases hw
      exact hlt
    · have hlast : encodeUnits [u] = encodeUnit u := List.append_nil _
      rw [encodeUnits_append, hlast] at h
      have hsuffix : b <:+ encodeUnits us ++ encodeUnit u := by
        rw [h]
        exact (List.suffix_append s b).trans (List.suffix_append a _)
      obtain ⟨b', rfl⟩ := List.suffix_of_suffix_length_le (List.suffix_append _ _) hsuffix hge
      rw [← List.append_assoc s, ← List.append_assoc a] at h
      obtain ⟨ms, ws, b'', rfl, hms⟩ := ih (List.append_cancel_right h)
      exact ⟨ms, ws ++ [u], b'', List.append_assoc _ _ _, hms⟩

/-- **Bytes in a text are carried** by some of its units. -/
theorem exists_carries {us : List Nat} {s : List UInt8} (hne : s ≠ []) (h : s <:+: encodeUnits us) :
    ∃ ms, ms <:+: us ∧ Carries ms s := by
  obtain ⟨a, b, h⟩ := h
  rw [List.append_assoc] at h
  obtain ⟨vs, rest, a', rfl, hrest, hfirst⟩ := carries_front hne h.symm
  obtain ⟨ms, ws, b', rfl, hms, hlast⟩ := carries_back hne hrest
  refine ⟨ms, ⟨vs, ws, List.append_assoc _ _ _⟩, a', b', hms, ?_, hlast⟩
  intro u hu
  exact hfirst u (List.mem_head?_append_of_mem_head? hu)

end Carries

section Characters

/-- A byte that is not read as a character is tagged. -/
theorem units_cons_malformed {b : UInt8} {rest : List UInt8} (h : bpUtf8Next b rest = (malformed, 1)) :
    units (b :: rest) = (tagBase + b.toNat) :: units rest := by
  apply units_cons
  · rw [nextUnit, h, encodeUnit_tagged]
    rfl
  · rw [encodeUnit_tagged]
    rfl

/-- A text is cut into units behind what does not continue a character as if it began there. -/
theorem units_append {a r : List UInt8} (hr : ∀ b ∈ r.head?, notCont b = true) : units (a ++ r) = units a ++ units r := by
  induction hn : a.length using Nat.strongRecOn generalizing a with
  | ind n ih =>
    cases a with
    | nil => rfl
    | cons b rest =>
      rcases bpUtf8Next_cases b (rest ++ r) with ⟨u, t, hu, hcat, -⟩ | ⟨-, hnext⟩
      · have hcat : b :: rest ++ r = encodeUnit u ++ t := hcat
        have hprefix : encodeUnit u <+: b :: rest := by
          rcases List.append_eq_append_iff.1 hcat with ⟨c, hu', hr'⟩ | ⟨c, hrest, -⟩
          · -- what follows begins none of the bytes of a character
            obtain ⟨b₀, conts, henc, -, hconts⟩ := encodeUnit_shape hu.lt
            cases c with
            | nil =>
              rw [hu', List.append_nil]
            | cons d c =>
              have hd := hr d (by rw [hr']; rfl)
              rw [henc, List.cons_append] at hu'
              rw [hconts d (by rw [(List.cons.inj hu').2]; simp)] at hd
              cases hd
          · exact ⟨c, hrest.symm⟩
        obtain ⟨c, hrest⟩ := hprefix
        have hlt : c.length < n := by
          have hlen := congrArg List.length hrest
          have hpos := length_encodeUnit_pos u
          rw [List.length_append] at hlen
          omega
        rw [← hrest, List.append_assoc, units_encodeUnit_append hu, units_encodeUnit_append hu, ih _ hlt rfl,
          List.cons_append]
      · have halone : bpUtf8Next b rest = (malformed, 1) := by
          rcases bpUtf8Next_cases b rest with ⟨u, t, hu, hcat, -⟩ | ⟨-, hnext'⟩
          · have hcat' : b :: (rest ++ r) = encodeUnit u ++ (t ++ r) := by
              rw [← List.append_assoc, ← hcat, List.cons_append]
            rw [bpUtf8Next_encodeUnit hu hcat'] at hnext
            exact absurd (Prod.mk.inj hnext).1 hu.ne_malformed
          · exact hnext'
        have hlt : rest.length < n := by
          rw [List.length_cons] at hn
          omega
        rw [List.cons_append, units_cons_malformed hnext, units_cons_malformed halone, ih _ hlt rfl, List.cons_append]

/-- Well-formed bytes begin with one that does not continue a character. -/
theorem WellFormed.head {s : List UInt8} (h : WellFormed s) (hne : s ≠ []) (t : List UInt8) :
    ∀ d ∈ (s ++ t).head?, notCont d = true := by
  rw [← encodeUnits_units s]
  obtain ⟨u, us, hunits⟩ : ∃ u us, units s = u :: us := by
    apply List.exists_cons_of_ne_nil
    intro hnil
    exact hne (List.eq_nil_of_length_eq_zero (units_eq_nil.1 hnil))
  have hu : IsScalar u := h u (by rw [hunits]; exact List.mem_cons_self)
  obtain ⟨b₀, conts, henc, hb₀, -⟩ := encodeUnit_shape hu.lt
  rw [hunits, encodeUnits_cons, henc]
  intro d hd
  cases hd
  exact hb₀

theorem encodeUnits_eq_nil {us : List Nat} (h : encodeUnits us = []) : us = [] := by
  cases us with
  | nil => rfl
  | cons u us => exact absurd (List.append_eq_nil_iff.1 h).1 (encodeUnit_ne_nil u)

/-- Of two ways to begin the same units, one with some bytes more: where these end within the next unit, there are none. -/
theorem same_start {vs ns fs rest : List Nat} {a : List UInt8} (hcut : vs ++ ns = fs ++ rest)
    (hbytes : encodeUnits fs = encodeUnits vs ++ a) (hfirst : ∀ u ∈ ns.head?, a.length < (encodeUnit u).length) :
    a = [] ∧ ns = rest := by
  rcases List.append_eq_append_iff.1 hcut with ⟨m, rfl, hrest⟩ | ⟨m, rfl, hrest⟩
  · rw [encodeUnits_append] at hbytes
    have hm := List.append_cancel_left hbytes
    cases m with
    | nil => exact ⟨hm.symm, hrest⟩
    | cons u m =>
      have hlt := hfirst u (by rw [hrest]; rfl)
      rw [← hm, encodeUnits_cons, List.length_append] at hlt
      omega
  · rw [encodeUnits_append, List.append_assoc] at hbytes
    obtain ⟨hm, ha⟩ := List.append_eq_nil_iff.1 (List.self_eq_append_right.1 hbytes)
    rw [encodeUnits_eq_nil hm] at hrest
    exact ⟨ha, hrest.symm⟩

/-- Units with some bytes more than others have no unit more, where these begin within the last one. -/
theorem same_end {ms ws us rest : List Nat} {b : List UInt8} (hcut : ms ++ ws = us ++ rest)
    (hbytes : encodeUnits ms = encodeUnits us ++ b) (hlast : ∀ u ∈ ms.getLast?, b.length < (encodeUnit u).length) :
    ms <+: us := by
  rcases List.append_eq_append_iff.1 hcut with ⟨m, heq, -⟩ | ⟨m, rfl, -⟩
  · exact ⟨m, heq.symm⟩
  · rw [encodeUnits_append] at hbytes
    have hm := List.append_cancel_left hbytes
    rcases List.eq_nil_or_concat m with rfl | ⟨m, u, rfl⟩
    · rw [List.append_nil]
    · rw [List.concat_eq_append] at hlast hm
      have hlt := hlast u (by rw [← List.append_assoc, List.getLast?_concat]; rfl)
      have hone : encodeUnits [u] = encodeUnit u := List.append_nil _
      rw [← hm, encodeUnits_append, hone, List.length_append] at hlt
      omega

/-- **Whole characters are carried by characters**, in whatever bytes they are. -/
theorem carries_scalar {t s : List UInt8} (hs : WellFormed s) (hne : s ≠ []) {ms : List Nat} (hms : ms <:+: units t)
    (h : Carries ms s) : ∀ u ∈ ms, IsScalar u := by
  obtain ⟨vs, ws, hcut⟩ := hms
  obtain ⟨a, b, hbytes, hfirst, hlast⟩ := h
  rw [List.append_assoc] at hcut
  -- the units of the text are those in front, those of the bytes alone, and those behind
  have htext : t = (encodeUnits vs ++ a) ++ (s ++ (b ++ encodeUnits ws)) := by
    rw [← encodeUnits_units t, ← hcut, encodeUnits_append, encodeUnits_append, hbytes]
    simp only [List.append_assoc]
  have hunits := units_append (a := encodeUnits vs ++ a) (hs.head hne (b ++ encodeUnits ws))
  have hrest := units_encodeUnits_append hs (b ++ encodeUnits ws)
  rw [encodeUnits_units] at hrest
  rw [← htext, ← hcut, hrest] at hunits
  have hms_ne : ms ≠ [] := by
    rintro rfl
    exact hne (List.append_eq_nil_iff.1 (List.append_eq_nil_iff.1 hbytes.symm).2).1
  obtain ⟨w, ms, rfl⟩ := List.exists_cons_of_ne_nil hms_ne
  obtain ⟨rfl, hstart⟩ := same_start hunits (encodeUnits_units _) hfirst
  rw [List.nil_append, ← encodeUnits_units s] at hbytes
  have hbegin := same_end hstart hbytes hlast
  exact fun u hu => hs u (hbegin.subset hu)

end Characters

end Bytepair
