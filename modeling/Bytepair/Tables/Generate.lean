import Bytepair.Support.Dict
import Bytepair.Support.Expansion
import Bytepair.Support.Run
import Mathlib.Data.List.Nodup
import Mathlib.Data.List.Sort

/-!
# The generator: decompositions and pairs

What `tools/gen_tables.py` makes of parsed Unicode data before it lays out tables. A `dict` is its items in order, and
looking a key up finds its item. `SystemExit` carries its format string and what fills it. The recursion of `expand`
has a bound on its depth; Python's own limit on it is left out.
-/

namespace Bytepair.GenTables
open Support

/-- How the generator ends without tables. -/
inductive Failure where
  | systemExit (template : String) (args : List Nat)
  | recursion
  | valueError -- a number that is no byte, or an index behind the end
  | keyError
  deriving DecidableEq

def HANGUL_SYLLABLE_FIRST : Nat := 0xAC00
def HANGUL_SYLLABLE_LAST : Nat := 0xD7A3
def HANGUL_JAMO_L_FIRST : Nat := 0x1100
def HANGUL_JAMO_V_FIRST : Nat := 0x1161
def HANGUL_JAMO_T_FIRST : Nat := 0x11A7
def MAX_DECOMP : Nat := 4

/-- Parsed Unicode data: the one-step canonical decompositions, the combining classes that are not 0, the script
exclusions and `Full_Composition_Exclusion`. -/
structure Ucd where
  decomp : List (Nat × List Nat)
  ccc : List (Nat × Nat)
  exclusions : List Nat
  fce : List Nat
  keys : (decomp.map Prod.fst).Nodup

/-- `ccc.get(cp, 0)`. -/
def Ucd.cccGet (u : Ucd) (cp : Nat) : Nat := (u.ccc.lookup cp).getD 0

section Expand

variable (decomp : List (Nat × List Nat))

/-- `decomp.get(cp)`. -/
def oneStep (cp : Nat) : Option (List Nat) := decomp.lookup cp

/-- The memo of `expand`. -/
abbrev Cache := List (Nat × List Nat)

/-- The loop over the parts of a mapping. -/
def expandParts (expand : Cache → Nat → Except Failure (List Nat × Cache)) :
    Cache → List Nat → Except Failure (List Nat × Cache)
  | cache, [] => .ok ([], cache)
  | cache, part :: parts => do
    let (mid, cache) ← expand cache part
    let (out, cache) ← expandParts expand cache parts
    pure (mid ++ out, cache)

/-- `expand`, with the code points on the path from the outermost call. -/
def expand : Nat → List Nat → Cache → Nat → Except Failure (List Nat × Cache)
  | 0, _, _, _ => .error .recursion
  | depth + 1, seen, cache, cp =>
    match cache.lookup cp with
    | some result => .ok (result, cache)
    | none =>
      match oneStep decomp cp with
      | none => .ok ([cp], cache)
      | some mapping =>
        if seen.contains cp then .error (.systemExit "cyclic canonical decomposition at U+%04X" [cp])
        else do
          let (result, cache) ← expandParts (expand depth (cp :: seen)) cache mapping
          pure (result, (cp, result) :: cache)

/-- The loop of `expand_decompositions` over the keys that are left. -/
def expandFrom : Cache → List Nat → Except Failure (List (Nat × List Nat))
  | _, [] => .ok []
  | cache, cp :: cps =>
    if HANGUL_SYLLABLE_FIRST ≤ cp ∧ cp ≤ HANGUL_SYLLABLE_LAST then
      .error (.systemExit "unexpected Hangul syllable decomposition at U+%04X" [cp])
    else do
      let (expanded, cache) ← expand decomp (decomp.length + 1) [] cache cp
      if MAX_DECOMP < expanded.length then
        throw (.systemExit "U+%04X expands to %d codepoints, table holds %d" [cp, expanded.length, MAX_DECOMP])
      let full ← expandFrom cache cps
      pure ((cp, expanded) :: full)

/-- `expand_decompositions`. -/
def expandDecompositions : Except Failure (List (Nat × List Nat)) := expandFrom decomp [] (decomp.map Prod.fst)

attribute [grind =] expandParts expand expandFrom

end Expand

section Pairs

/-- The pairs of two code points and their composites, in order. -/
abbrev Pairs := List ((Nat × Nat) × Nat)

/-- The loop of `composition_pairs` over the items that are left: the pairs, and the code points that are excluded. -/
def pairsFrom (u : Ucd) : Pairs → List Nat → List (Nat × List Nat) → Except Failure (Pairs × List Nat)
  | pairs, excluded, [] => .ok (pairs, excluded)
  | pairs, excluded, (cp, mapping) :: items =>
    match mapping with
    | [a, b] =>
      if u.exclusions.contains cp || u.cccGet a ≠ 0 then pairsFrom u pairs (cp :: excluded) items
      else if (pairs.lookup (a, b)).isSome then
        .error (.systemExit "two primary composites for (U+%04X, U+%04X)" [a, b])
      else pairsFrom u (pairs ++ [((a, b), cp)]) excluded items
    | _ => pairsFrom u pairs (cp :: excluded) items

/-- `excluded ^ (fce & set(decomp))`, sorted. -/
def disagree (u : Ucd) (excluded : List Nat) : List Nat :=
  ((u.decomp.map Prod.fst).filter fun cp => excluded.contains cp != u.fce.contains cp).mergeSort

/-- The first code point of a pair is a leading or a vowel jamo, or the base of the trailing ones. -/
def hangulFirst (a : Nat) : Bool :=
  HANGUL_JAMO_L_FIRST ≤ a && a < HANGUL_JAMO_V_FIRST || HANGUL_JAMO_V_FIRST ≤ a && a ≤ HANGUL_JAMO_T_FIRST

/-- `composition_pairs`. -/
def compositionPairs (u : Ucd) : Except Failure Pairs := do
  let (pairs, excluded) ← pairsFrom u [] [] u.decomp
  let disagree := disagree u excluded
  if disagree ≠ [] then
    throw (.systemExit
      "composition-exclusion rule disagrees with Full_Composition_Exclusion for %d codepoints, first: %s"
      (disagree.length :: disagree.take 10))
  if pairs.any fun p => hangulFirst p.1.1 then throw (.systemExit "unexpected Hangul jamo composition pair" [])
  pure pairs

attribute [grind =] pairsFrom

end Pairs

section Expansion

variable {decomp : List (Nat × List Nat)}

/-- The memo holds full expansions. -/
def CacheOk (decomp : List (Nat × List Nat)) (cache : Cache) : Prop :=
  ∀ cp result, cache.lookup cp = some result → Expands (oneStep decomp) [cp] result

/-- A call of the recursion keeps the memo good and returns the full expansion. -/
def CallOk (decomp : List (Nat × List Nat)) (call : Cache → Nat → Except Failure (List Nat × Cache)) : Prop :=
  ∀ cache cp result cache', CacheOk decomp cache → call cache cp = .ok (result, cache') →
    CacheOk decomp cache' ∧ Expands (oneStep decomp) [cp] result

theorem cacheOk_nil : CacheOk decomp [] := by
  intro cp result h
  cases h

/-- A result that is kept is the expansion of its code point. -/
theorem CacheOk.cons {cache : Cache} (h : CacheOk decomp cache) {cp : Nat} {result : List Nat}
    (hcp : Expands (oneStep decomp) [cp] result) : CacheOk decomp ((cp, result) :: cache) := by
  intro x out hx
  rw [List.lookup_cons] at hx
  split at hx
  · next heq =>
    obtain rfl := eq_of_beq heq
    obtain rfl := Option.some.inj hx
    exact hcp
  · exact h x out hx

/-- The parts of a mapping are expanded one after another. -/
theorem expandParts_ok {call : Cache → Nat → Except Failure (List Nat × Cache)} (hcall : CallOk decomp call)
    {parts : List Nat} {cache cache' : Cache} {out : List Nat} (hcache : CacheOk decomp cache)
    (h : expandParts call cache parts = .ok (out, cache')) : CacheOk decomp cache' ∧ Expands (oneStep decomp) parts out := by
  induction parts generalizing cache out with
  | nil =>
    cases h
    exact ⟨hcache, .nil⟩
  | cons part parts ih =>
    rw [expandParts] at h
    obtain ⟨⟨mid, cache₁⟩, hpart, h⟩ := bind_eq_ok.1 h
    obtain ⟨⟨rest, cache₂⟩, hparts, h⟩ := bind_eq_ok.1 h
    cases h
    obtain ⟨hcache₁, hmid⟩ := hcall cache part mid cache₁ hcache hpart
    obtain ⟨hcache₂, hrest⟩ := ih hcache₁ hparts
    exact ⟨hcache₂, hmid.append hrest⟩

/-- What `expand` returns is the full expansion, from the memo or not. -/
theorem expand_ok (depth : Nat) (seen : List Nat) : CallOk decomp (expand decomp depth seen) := by
  induction depth generalizing seen with
  | zero => exact fun cache cp result cache' _ h => nomatch h
  | succ depth ih =>
    intro cache cp result cache' hcache h
    rw [expand] at h
    cases hmemo : cache.lookup cp with
    | some out =>
      rw [hmemo] at h
      cases h
      exact ⟨hcache, hcache cp result hmemo⟩
    | none =>
      rw [hmemo] at h
      dsimp only at h
      cases hstep : oneStep decomp cp with
      | none =>
        rw [hstep] at h
        cases h
        exact ⟨hcache, .single_leaf hstep⟩
      | some mapping =>
        rw [hstep] at h
        dsimp only at h
        split at h
        · cases h
        · obtain ⟨⟨out, cache₁⟩, hparts, h⟩ := bind_eq_ok.1 h
          cases h
          obtain ⟨hcache₁, hout⟩ := expandParts_ok (ih (cp :: seen)) hcache hparts
          have hcp := Expands.single_node hstep hout
          exact ⟨hcache₁.cons hcp, hcp⟩

/-- The parts never come to the limit of the recursion if no call does. -/
theorem expandParts_ends {call : Cache → Nat → Except Failure (List Nat × Cache)}
    (hcall : ∀ cache cp, call cache cp ≠ .error .recursion) (cache : Cache) (parts : List Nat) :
    expandParts call cache parts ≠ .error .recursion := by
  induction parts generalizing cache with
  | nil => exact nofun
  | cons part parts ih =>
    rw [expandParts]
    apply bind_ne_error (hcall cache part)
    intro r _
    exact bind_ne_error (ih r.2) fun r' _ => nofun

/-- The path has different keys on it, so the recursion is no deeper than there are keys. -/
theorem expand_ends {depth : Nat} {seen : List Nat} (hnodup : seen.Nodup) (hkeys : seen ⊆ decomp.map Prod.fst)
    (hdepth : decomp.length < depth + seen.length) (cache : Cache) (cp : Nat) :
    expand decomp depth seen cache cp ≠ .error .recursion := by
  induction depth generalizing seen cache cp with
  | zero =>
    have hle := List.Nodup.length_le_of_subset hnodup hkeys
    rw [List.length_map] at hle
    omega
  | succ depth ih =>
    rw [expand]
    split
    · exact nofun
    · split
      · exact nofun
      · next mapping hstep =>
        split
        · exact nofun
        · next hseen =>
          rw [List.contains_iff_mem] at hseen
          have hpath : ∀ cache x, expand decomp depth (cp :: seen) cache x ≠ .error .recursion := by
            apply ih
            · exact List.nodup_cons.2 ⟨hseen, hnodup⟩
            · exact List.cons_subset.2 ⟨key_mem hstep, hkeys⟩
            · rw [List.length_cons]
              omega
          exact bind_ne_error (expandParts_ends hpath cache mapping) fun r _ => nofun

end Expansion

section Laws

variable {decomp : List (Nat × List Nat)}

/-- No list of code points comes to the limit. -/
theorem expandFrom_ends (cps : List Nat) (cache : Cache) : expandFrom decomp cache cps ≠ .error .recursion := by
  induction cps generalizing cache with
  | nil => exact nofun
  | cons cp cps ih =>
    rw [expandFrom]
    split
    · exact nofun
    · apply bind_ne_error (expand_ends .nil (List.nil_subset _) (by simp) cache cp)
      intro r _
      dsimp only
      split
      · exact nofun
      · exact bind_ne_error (ih r.2) fun full _ => nofun

/-- What the loop returns has an item for each key, with its full expansion. -/
theorem expandFrom_ok {cps : List Nat} {cache : Cache} {full : List (Nat × List Nat)} (hcache : CacheOk decomp cache)
    (h : expandFrom decomp cache cps = .ok full) :
    full.map Prod.fst = cps ∧ ∀ item ∈ full, Expands (oneStep decomp) [item.1] item.2 ∧ item.2.length ≤ MAX_DECOMP ∧
      ¬(HANGUL_SYLLABLE_FIRST ≤ item.1 ∧ item.1 ≤ HANGUL_SYLLABLE_LAST) := by
  induction cps generalizing cache full with
  | nil =>
    cases h
    exact ⟨rfl, nofun⟩
  | cons cp cps ih =>
    rw [expandFrom] at h
    split at h
    · cases h
    · next hsyllable =>
      obtain ⟨⟨expanded, cache'⟩, hcp, h⟩ := bind_eq_ok.1 h
      dsimp only at h
      split at h
      · cases h
      · next hlen =>
        obtain ⟨rest, hrest, h⟩ := bind_eq_ok.1 h
        cases h
        obtain ⟨hcache', hexpanded⟩ := expand_ok _ _ cache cp expanded cache' hcache hcp
        obtain ⟨hkeys, hall⟩ := ih hcache' hrest
        refine ⟨by rw [List.map_cons, hkeys], List.forall_mem_cons.2 ⟨⟨hexpanded, ?_, hsyllable⟩, hall⟩⟩
        exact Nat.not_lt.1 hlen

/-- Every key of the map has an item in what is returned, and only keys. -/
theorem lookup_none_iff {β γ : Type} {items : List (Nat × β)} {full : List (Nat × γ)}
    (hkeys : full.map Prod.fst = items.map Prod.fst) (cp : Nat) : full.lookup cp = none ↔ items.lookup cp = none := by
  rw [lookup_eq_none, lookup_eq_none, hkeys]

/-- The full decomposition of a code point; one without an entry stands for itself. -/
def fullOf (full : List (Nat × List Nat)) (cp : Nat) : List Nat := (full.lookup cp).getD [cp]

/-- What was looked up is the full expansion. -/
theorem expands_fullOf {full : List (Nat × List Nat)} (h : expandDecompositions decomp = .ok full) (cp : Nat) :
    Expands (oneStep decomp) [cp] (fullOf full cp) := by
  obtain ⟨hkeys, hall⟩ := expandFrom_ok cacheOk_nil h
  unfold fullOf
  cases hfull : full.lookup cp with
  | none => exact .single_leaf ((lookup_none_iff hkeys cp).1 hfull)
  | some out =>
    exact (hall (cp, out) (mem_of_lookup hfull)).1

end Laws

section PairLaws

variable {u : Ucd}

/-- What the loop has collected: composites of pairs that begin with a starter, each pair once. -/
structure PairsOk (u : Ucd) (pairs : Pairs) : Prop where
  mapping : ∀ p ∈ pairs, (p.2, [p.1.1, p.1.2]) ∈ u.decomp
  starter : ∀ p ∈ pairs, u.cccGet p.1.1 = 0
  nodup : (pairs.map Prod.fst).Nodup

theorem pairsOk_nil : PairsOk u [] := by
  constructor
  · exact fun p hp => absurd hp List.not_mem_nil
  · exact fun p hp => absurd hp List.not_mem_nil
  · exact List.nodup_nil

/-- A new pair that begins with a starter can be added. -/
theorem PairsOk.push {pairs : Pairs} (h : PairsOk u pairs) {a b cp : Nat} (hmem : (cp, [a, b]) ∈ u.decomp)
    (hstarter : u.cccGet a = 0) (hnew : pairs.lookup (a, b) = none) : PairsOk u (pairs ++ [((a, b), cp)]) := by
  have hall : ∀ {P : (Nat × Nat) × Nat → Prop}, (∀ p ∈ pairs, P p) → P ((a, b), cp) → ∀ p ∈ pairs ++ [((a, b), cp)], P p := by
    intro P hpairs hlast p hp
    rcases List.mem_append.1 hp with hp | hp
    · exact hpairs p hp
    · rwa [List.mem_singleton.1 hp]
  constructor
  · exact hall h.mapping hmem
  · exact hall h.starter hstarter
  · rw [List.map_append, List.nodup_append]
    refine ⟨h.nodup, List.nodup_singleton _, ?_⟩
    rintro key hkey _ hlast rfl
    obtain ⟨p, hp, rfl⟩ := List.mem_map.1 hkey
    have hne := List.lookup_eq_none_iff.1 hnew p hp
    rw [List.mem_singleton.1 hlast] at hne
    simp at hne

/-- The loop over the mappings keeps that. -/
theorem pairsFrom_ok {items : List (Nat × List Nat)} {pairs pairs' : Pairs} {excluded excluded' : List Nat}
    (hitems : ∀ item ∈ items, item ∈ u.decomp) (hpairs : PairsOk u pairs)
    (h : pairsFrom u pairs excluded items = .ok (pairs', excluded')) : PairsOk u pairs' := by
  induction items generalizing pairs excluded with
  | nil =>
    cases h
    exact hpairs
  | cons item items ih =>
    obtain ⟨cp, mapping⟩ := item
    obtain ⟨hitem, hrest⟩ := List.forall_mem_cons.1 hitems
    unfold pairsFrom at h
    split at h
    · next a b =>
      split at h
      · exact ih hrest hpairs h
      · next hcond =>
        simp only [Bool.or_eq_true, decide_eq_true_eq, not_or, not_not] at hcond
        split at h
        · cases h
        · next hnew => exact ih hrest (hpairs.push hitem hcond.2 (Option.not_isSome_iff_eq_none.1 hnew)) h
    · exact ih hrest hpairs h

/-- So it is of the pairs in the end, and none of them begins as a Hangul syllable does. -/
theorem compositionPairs_ok {pairs : Pairs} (h : compositionPairs u = .ok pairs) :
    PairsOk u pairs ∧ ∀ p ∈ pairs, hangulFirst p.1.1 = false := by
  unfold compositionPairs at h
  obtain ⟨⟨pairs', excluded⟩, hrun, h⟩ := bind_eq_ok.1 h
  dsimp only at h
  split at h
  · cases h
  · split at h
    · cases h
    · next hjamo =>
      cases h
      refine ⟨pairsFrom_ok (fun _ => id) pairsOk_nil hrun, fun p hp => ?_⟩
      rw [Bool.not_eq_true, List.any_eq_false] at hjamo
      exact Bool.eq_false_iff.2 (hjamo p hp)

/-- What holds of the full decompositions and the pairs of accepted data. -/
structure Agree (u : Ucd) (full : List (Nat × List Nat)) (pairs : Pairs) : Prop where
  keys : full.map Prod.fst = u.decomp.map Prod.fst
  normal : ∀ item ∈ full, ∀ x ∈ item.2, oneStep u.decomp x = none
  expanded : ∀ item ∈ full, Expands (oneStep u.decomp) [item.1] item.2
  composed : ∀ a b c, ((a, b), c) ∈ pairs → fullOf full c = fullOf full a ++ fullOf full b
  starter : ∀ a b c, ((a, b), c) ∈ pairs → u.cccGet a = 0
  apart : ∀ a b c c', ((a, b), c) ∈ pairs → ((a, b), c') ∈ pairs → c = c'

theorem pairs_apart {pairs : Pairs} (h : (pairs.map Prod.fst).Nodup) {p q : (Nat × Nat) × Nat} (hp : p ∈ pairs)
    (hq : q ∈ pairs) (heq : p.1 = q.1) : p = q := List.inj_on_of_nodup_map h hp hq heq

/-- What is expanded and what is composed agree. -/
theorem agree {full : List (Nat × List Nat)} {pairs : Pairs} (hfull : expandDecompositions u.decomp = .ok full)
    (hpairs : compositionPairs u = .ok pairs) : Agree u full pairs := by
  obtain ⟨hkeys, hall⟩ := expandFrom_ok cacheOk_nil hfull
  obtain ⟨hok, -⟩ := compositionPairs_ok hpairs
  constructor
  · exact hkeys
  · exact fun item hitem => (hall item hitem).1.normal
  · exact fun item hitem => (hall item hitem).1
  · intro a b c hc
    have hstep : oneStep u.decomp c = some [a, b] := lookup_of_mem u.keys (hok.mapping _ hc)
    obtain ⟨mid, rest, hmid, hrest, heq⟩ := ((expands_fullOf hfull c).of_node hstep).split
    rw [heq, hmid.unique (expands_fullOf hfull a), hrest.unique (expands_fullOf hfull b)]
  · exact fun a b c hc => hok.starter _ hc
  · intro a b c c' hc hc'
    exact congrArg Prod.snd (pairs_apart hok.nodup hc hc' rfl)

/-- A code point is a part of a part, and so on, of itself. -/
def Cyclic (u : Ucd) : Prop := ∃ cp, Relation.TransGen (IsPart (oneStep u.decomp)) cp cp

/-- **Decompositions and pairs.** The expansion ends, a cycle is refused, and on accepted data the one-step map, the
full decompositions and the pairs agree. -/
theorem expansion_laws (u : Ucd) : expandDecompositions u.decomp ≠ .error .recursion ∧
    (Cyclic u → ∃ e, expandDecompositions u.decomp = .error e) ∧
    ∀ full pairs, expandDecompositions u.decomp = .ok full → compositionPairs u = .ok pairs → Agree u full pairs := by
  refine ⟨expandFrom_ends _ [], fun hcycle => ?_, fun full pairs => agree⟩
  cases hrun : expandDecompositions u.decomp with
  | ok full => exact absurd hcycle (acyclic_of_expands fun cp => ⟨_, expands_fullOf hrun cp⟩)
  | error e => exact ⟨e, rfl⟩

/-- The angstrom sign, and letters with one mark and with two. -/
def latin : Ucd where
  decomp := [(0x212B, [0xC5]), (0xC5, [0x41, 0x30A]), (0x1EA4, [0xC2, 0x301]), (0xC2, [0x41, 0x302]), (0x340, [0x300])]
  ccc := [(0x300, 230), (0x301, 230), (0x302, 230), (0x30A, 230)]
  exclusions := []
  fce := [0x212B, 0x340]
  keys := by decide

theorem expansion_laws_latin : Agree latin
    [(0x212B, [0x41, 0x30A]), (0xC5, [0x41, 0x30A]), (0x1EA4, [0x41, 0x302, 0x301]), (0xC2, [0x41, 0x302]), (0x340, [0x300])]
    [((0x41, 0x30A), 0xC5), ((0xC2, 0x301), 0x1EA4), ((0x41, 0x302), 0xC2)] :=
  (expansion_laws latin).2.2 _ _ (by decide +kernel) (by decide +kernel)

end PairLaws

end Bytepair.GenTables
