import Bytepair.Convert.Faithful
import Bytepair.Encode.Merges

/-!
# Byte-pair encoding by the book

`convert_merges`: a pretoken is encoded as the textbook does it over the source's merge list, on
texts rather than ids: begin with the characters of the bytes, and join the leftmost pair that
is earliest in the list until none is in it.
-/

namespace Bytepair.Convert
open Support

/-- The two texts an entry of the merge list joins. -/
def mergeTexts (entry : Json) : Option (Str × Str) := (mergeParts 0 entry).toOption

/-- Where a pair of texts is first in the merge list, and the text they are joined to. -/
def textRule (merges : List Json) (a b : Str) : Option (Nat × Str) :=
  (merges.findIdx? fun entry => mergeTexts entry = some (a, b)).map fun rank => (rank, a ++ b)

section Book

variable {s : Source} {p : Passes} {c : Contents} {v : BpVocab}

theorem mergeParts_eq_ok {rank : Nat} {entry : Json} {texts : Str × Str} :
    mergeParts rank entry = .ok texts ↔ mergeTexts entry = some texts := by
  have hsame : (mergeParts rank entry).toOption = mergeTexts entry := by
    unfold mergeTexts mergeParts
    split
    · split <;> rfl
    · rfl
    · rfl
    · rfl
  rw [← hsame]
  cases mergeParts rank entry with
  | error e => exact ⟨nofun, nofun⟩
  | ok q => exact ⟨fun h => congrArg some (Except.ok.inj h), fun h => congrArg Except.ok (Option.some.inj h)⟩

theorem textRule_eq_some {merges : List Json} {a b m : Str} {rank : Nat} (h : textRule merges a b = some (rank, m)) :
    m = a ++ b ∧ ∃ entry, merges[rank]? = some entry ∧ mergeParts rank entry = .ok (a, b) := by
  obtain ⟨i, hfind, h⟩ := Option.map_eq_some_iff.1 h
  cases h
  obtain ⟨hi, hentry, -⟩ := List.findIdx?_eq_some_iff_getElem.1 hfind
  exact ⟨rfl, merges[rank], List.getElem?_eq_getElem hi, mergeParts_eq_ok.2 (of_decide_eq_true hentry)⟩

/-- A text of the vocabulary, and its id. -/
def Source.HasText (s : Source) (text : Str) : Prop := ∃ id, vocabId s.vocab text = some id

def Source.idOf (s : Source) (text : Str) : Nat := (vocabId s.vocab text).getD 0

theorem Source.HasText.vocabId {text : Str} (h : s.HasText text) : vocabId s.vocab text = some (s.idOf text) := by
  obtain ⟨id, hid⟩ := h
  rw [Source.idOf, hid]
  rfl

/-- A handle merges by the list of a source: it has the ids of the texts, each text one, and between them the merges of the
list and no others. -/
structure Book (s : Source) (v : BpVocab) : Prop where
  known : ∀ {text id}, vocabId s.vocab text = some id → v.HasId id
  injective : ∀ {text text' id}, vocabId s.vocab text = some id → vocabId s.vocab text' = some id → text = text'
  joins : ∀ {rank entry}, s.merges[rank]? = some entry → ∃ a b m, Joins s.vocab rank entry a b m
  rule_iff : ∀ {a b rank m}, v.HasId a → v.HasId b → (v.rule a b = some (rank, m) ↔ s.Merge rank a b m)
  few : s.merges.length < 0xFFFFFFFF

/-- What the textbook joins is in the vocabulary. -/
theorem Book.text_closed (h : Book s v) (a b : Str) (rank : Nat) (m : Str) (hrule : textRule s.merges a b = some (rank, m)) :
    s.HasText m := by
  obtain ⟨rfl, entry, hentry, hparts⟩ := textRule_eq_some hrule
  obtain ⟨_, _, id, left, right, hparts', -, -, hid⟩ := h.joins hentry
  rw [hparts] at hparts'
  cases hparts'
  exact ⟨id, hid⟩

/-- **The rule of the handle is the textbook's.** -/
theorem Book.text_agrees (h : Book s v) {a b : Str} (ha : s.HasText a) (hb : s.HasText b) :
    v.rule (s.idOf a) (s.idOf b) = (textRule s.merges a b).map fun q => (q.1, s.idOf q.2) := by
  have ha := ha.vocabId
  have hb := hb.vocabId
  have hrule : ∀ {rank m}, v.rule (s.idOf a) (s.idOf b) = some (rank, m) ↔ s.Merge rank (s.idOf a) (s.idOf b) m :=
    h.rule_iff (h.known ha) (h.known hb)
  cases htext : textRule s.merges a b with
  | some q =>
    obtain ⟨rank, m⟩ := q
    obtain ⟨rfl, entry, hentry, hparts⟩ := textRule_eq_some htext
    have hm := (h.text_closed a b rank _ htext).vocabId
    exact hrule.2 ⟨entry, hentry, a, b, hparts, ha, hb, hm⟩
  | none =>
    cases hv' : v.rule (s.idOf a) (s.idOf b) with
    | none => rfl
    | some q =>
      obtain ⟨entry, hentry, left, right, hparts, hleft, hright, -⟩ := hrule.1 hv'
      obtain rfl := h.injective hleft ha
      obtain rfl := h.injective hright hb
      have hno := List.findIdx?_eq_none_iff.1 (Option.map_eq_none_iff.1 htext) entry (List.mem_of_getElem? hentry)
      exact absurd (mergeParts_eq_ok.1 hparts) (of_decide_eq_false hno)

/-- Every route sees all merges of the list. -/
theorem Book.route_eq (h : Book s v) (n : Nat) {a b : Nat} (ha : v.HasId a) (hb : v.HasId b) :
    routeRule v n a b = v.rule a b := by
  unfold routeRule
  split
  · rfl
  · cases hrule : v.rule a b with
    | none =>
      cases hshort : shortRule v a b with
      | none => rfl
      | some q =>
        rw [(shortRule_eq_some.1 hshort).1] at hrule
        cases hrule
    | some q =>
      obtain ⟨entry, hentry, -⟩ := (h.rule_iff ha hb).1 hrule
      obtain ⟨hrank, -⟩ := List.getElem?_eq_some_iff.1 hentry
      exact shortRule_eq_some.2 ⟨hrule, Nat.lt_trans hrank h.few⟩

/-- **Merging is by the book** where the bytes have the ids of their texts. -/
theorem Book.merges (h : Book s v) {host : Host} {image : List UInt8} (ho : Opens host image v) {p : List UInt8}
    (hbytes : ∀ b ∈ p, vocabId s.vocab [b2u b] = some (v.byteToken b)) (hlen : p.length < 2 ^ 31) :
    ∃ ids, Merges v p ids ∧
      ids.map some = (greedy (textRule s.merges) (p.map fun b => [b2u b])).map (vocabId s.vocab) := by
  have hv := ho.valid
  have htexts : ∀ text ∈ p.map fun b => [b2u b], s.HasText text := by
    intro text htext
    obtain ⟨b, hb, rfl⟩ := List.mem_map.1 htext
    exact ⟨_, hbytes b hb⟩
  have hids : (p.map fun b => [b2u b]).map s.idOf = p.map v.byteToken := by
    rw [List.map_map]
    apply List.map_congr_left
    intro b hb
    show (vocabId s.vocab [b2u b]).getD 0 = _
    rw [hbytes b hb]
    rfl
  have hmap : greedy (routeRule v p.length) (p.map v.byteToken) =
      (greedy (textRule s.merges) (p.map fun b => [b2u b])).map s.idOf := by
    rw [← hids]
    apply greedy_map (S := s.HasText)
    · exact fun a b rank m _ _ hrule => h.text_closed a b rank m hrule
    · intro a b ha hb
      rw [h.route_eq p.length (h.known ha.vocabId) (h.known hb.vocabId)]
      exact h.text_agrees ha hb
    · exact htexts
  have hpretoken := pretokenIds_eq hv hlen
  rw [hmap] at hpretoken
  refine ⟨_, (merges_iff ho hpretoken _).2 rfl, ?_⟩
  have hgreedy : ∀ text ∈ greedy (textRule s.merges) (p.map fun b => [b2u b]), s.HasText text :=
    greedy_forall _ (fun a b rank m _ _ hrule => h.text_closed a b rank m hrule) htexts
  rw [List.map_map]
  apply List.map_congr_left
  intro text htext
  exact (hgreedy text htext).vocabId.symm

theorem Built.book (h : Built s p c) (hc : c.Handle v) (hv : v.Valid) : Book s v where
  known hid := by
    obtain ⟨raw, rfl, -⟩ := h.decoded.bytes hid
    rw [BpVocab.HasId, hc.count]
    exact h.owns_lt (h.owns_text hid)
  injective hid hid' := h.decoded.injective hid hid'
  joins hentry := by
    obtain ⟨a, b, m, -, hjoins, -⟩ := h.filled.merge h.matched _ _ (List.mem_zipIdx_iff_getElem?.2 hentry)
    exact ⟨a, b, m, hjoins⟩
  rule_iff ha hb := h.rule_iff hc hv ha hb
  few := h.merges_lt hc hv

end Book

/-- The passes behind a converted image that opens. -/
theorem convert_opened {ceilLog2 : Nat → Nat} {raw : List UInt8} {doc : Json} {name : Str} {image : List UInt8}
    (h : convert ceilLog2 raw doc name = .ok image) {host : Host} {v : BpVocab} (ho : Opens host image v) :
    ∃ s p c, doc.source = some s ∧ Built s p c ∧ c.Handle v := by
  obtain ⟨s, p, c, hs, hb, hsized, himage, -⟩ := convert_built h
  exact ⟨s, p, c, hs, hb, Contents.handle hsized himage ho⟩

/-- **Encoding is by the book.** A pretoken below 2^31 bytes is emitted, by every context and on every route, as the ids of
the texts that the textbook's merges over the source's merge list come to, beginning with the texts of
its bytes. -/
theorem convert_merges {ceilLog2 : Nat → Nat} {raw : List UInt8} {doc : Json} {name : Str} {image : List UInt8}
    (h : convert ceilLog2 raw doc name = .ok image) {host : Host} {v : BpVocab} (ho : Opens host image v) {p : List UInt8}
    (hlen : p.length < 2 ^ 31) :
    ∃ s ids, doc.source = some s ∧ Merges v p ids ∧
      ids.map some = (greedy (textRule s.merges) (p.map fun b => [b2u b])).map (vocabId s.vocab) := by
  obtain ⟨s, passes, c, hs, hb, hc⟩ := convert_opened h ho
  have hbyte : ∀ b ∈ p, vocabId s.vocab [b2u b] = some (v.byteToken b) := by
    intro b _
    rw [BpVocab.byteToken, hc.byteId]
    exact hb.byte_id b
  obtain ⟨ids, hmerges, hids⟩ := (hb.book hc ho.valid).merges ho hbyte hlen
  exact ⟨s, ids, hs, hmerges, hids⟩

theorem convert_merges_toy : ∃ s ids, (toyDoc [addedEntryOf (str "<x>") 258]).source = some s ∧
    Merges toy.vocab [0x61, 0x62, 0x63, 0x61] ids ∧
      ids.map some = (greedy (textRule s.merges) ([0x61, 0x62, 0x63, 0x61].map fun b => [b2u b])).map (vocabId s.vocab) :=
  convert_merges toy_converts toy_opens (by decide)

end Bytepair.Convert
