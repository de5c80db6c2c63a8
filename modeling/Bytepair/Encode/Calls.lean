import Bytepair.Encode.Refine
import Bytepair.Encode.Decode

/-!
# Calls

A context as its callers see it: what it is made of by `bp_ctx_new` and any sequence of calls,
whatever the allocator answers. `reached_coherent` is the run lemma, `call_spec` the step:
a call that succeeds replies with `Call.value`, which is a function of the handle and the call.
-/

namespace Bytepair
open Support

section Ids

variable {v : BpVocab} {T : Tables}

/-- What `bp_encode` comes to. -/
def encodeIds (T : Tables) (v : BpVocab) (t : List UInt8) (flags : Nat) : Option (List Nat) :=
  if flags &&& BP_RAW ≠ 0 ∨ v.hdr.addedCount = 0 then segmentIds T v t else cutIds T v [] t

attribute [grind =] encodeIds

/-- What a call comes to, by what it is to come to. -/
inductive Encoded (v : BpVocab) (out : List Nat) (granted : Prop) :
    Option (List Nat) → Run (Except Err Nat × (BpCtx × List Nat)) → Prop
  | done (ids : List Nat) (c : BpCtx) (coherent : c.Coherent v) (grants : granted → c.scratch.Granted) :
    Encoded v out granted (some ids) (.ok (.ok ids.length, (c, filled out ids)))
  | refused (ids : Option (List Nat)) (c : BpCtx) (more : List Nat) (coherent : c.Coherent v) (h : ¬granted)
      (first : ∀ xs, ids = some xs → more <+: xs) :
    Encoded v out granted ids (.ok (.error .nomem, (c, filled out more)))
  | failed (e : Err) (c : BpCtx) (out' : List Nat) (coherent : c.Coherent v) :
    Encoded v out granted none (.ok (.error e, (c, out')))
  | fault (f : Fault) : Encoded v out granted none (.error f)

theorem encodeText_emits (hT : T.Sized) (hS : T.Scannable) (hv : v.Valid) (hm : v.MatcherOk) {c : BpCtx}
    (hc : c.Coherent v) (simd : Bool) (t : List UInt8) (flags : Nat) (buf es : List Nat) :
    Emits v buf es c.scratch.Granted (encodeIds T v t flags)
      (encodeText T simd c t (BpSink.holding buf es) flags) := by
  unfold encodeText encodeIds
  rw [hc.handle]
  split
  · exact encodeSegment_emits hT hS hv hc simd t buf es
  · exact encodeLoop_emits hT hS hv hm simd (t.length + 1) hc buf es [] t (Nat.lt_succ_self _)

theorem holding_nil (buf : List Nat) : BpSink.holding buf [] = ⟨buf, 0⟩ := by
  rw [BpSink.holding, filled_nil]
  rfl

/-- **`bp_encode`** on a coherent context. -/
theorem bpEncode_spec (hT : T.Sized) (hS : T.Scannable) (hv : v.Valid) (hm : v.MatcherOk) {c : BpCtx}
    (hc : c.Coherent v) (t : List UInt8) (out : List Nat) (flags : Nat) :
    Encoded v out c.scratch.Granted (encodeIds T v t flags) (bpEncode T c t out flags) := by
  unfold bpEncode
  dsimp only
  rw [← holding_nil]
  have h := encodeText_emits hT hS hv hm hc (c.v.useAvx2 && flags &&& BP_FORCE_SCALAR = 0 && !c.envForceScalar) t flags
    out []
  generalize encodeText T _ c t (BpSink.holding out []) flags = x at h
  generalize encodeIds T v t flags = ids at h
  cases h with
  | emitted ids c' coherent grants => exact .done ids c' coherent grants
  | refused ids c' more coherent hno first => exact .refused ids c' more coherent hno first
  | failed e c' s coherent => exact .failed e c' s.out coherent
  | fault f => exact .fault f

end Ids

/-- A call on a context, with what the caller hands over. -/
inductive Call where
  | encode (t : List UInt8) (out : List Nat) (flags : Nat)
  | count (t : List UInt8) (flags : Nat)
  | decode (ids : List Nat) (out : List UInt8) (flags : Nat)
  | pretoken (p : List UInt8) (out : List Nat)

/-- What the caller gets back. -/
inductive Reply where
  | ids (result : Except Err Nat) (out : List Nat)
  | bytes (result : Except Err Nat) (out : List UInt8)

def Reply.result : Reply → Except Err Nat
  | .ids result _ => result
  | .bytes result _ => result

def call (T : Tables) (c : BpCtx) : Call → Run (Reply × BpCtx)
  | .encode t out flags => do
    let (r, c, out) ← bpEncode T c t out flags
    pure (.ids r out, c)
  | .count t flags => do
    let (r, c, out) ← bpCount T c t flags
    pure (.ids r out, c)
  | .decode ids out flags => do
    let (r, out) ← bpDecode c ids out flags
    pure (.bytes r out, c)
  | .pretoken p out => do
    let (r, c, s) ← bpBpePretoken (c, ⟨out, 0⟩) p
    pure (.ids (r.map fun _ => s.total) s.out, c)

/-- The contexts of a handle, behind any calls. -/
inductive BpCtx.Reached (T : Tables) (v : BpVocab) : BpCtx → Prop
  | new {cacheLog2 : Int} {env : Option (List UInt8)} {answers : Nat → Bool} {c : BpCtx} :
    bpCtxNew v cacheLog2 env answers = some c → Reached T v c
  | call {c c' : BpCtx} {k : Call} {r : Reply} : Reached T v c → call T c k = .ok (r, c') → Reached T v c'

/-- The reply of a list of ids that went into a buffer. -/
def idsReply (out : List Nat) (ids : List Nat) : Reply := .ids (.ok ids.length) (filled out ids)

/-- The reply of a call that succeeds. -/
def Call.value (T : Tables) (v : BpVocab) : Call → Option Reply
  | .encode t out flags => (encodeIds T v t flags).map (idsReply out)
  | .count t flags => (encodeIds T v t flags).map (idsReply [])
  | .decode ids out flags =>
    match decodeIds v flags ids with
    | .ok bytes => some (.bytes (.ok bytes.length) (filled out bytes))
    | .error _ => none
  | .pretoken p out => (pretokenIds v p).map (idsReply out)

section Calls

variable {v : BpVocab} {T : Tables}

/-- What a call keeps and what it replies. -/
structure Answers (v : BpVocab) (value : Option Reply) (granted : Prop) (x : Run (Reply × BpCtx)) : Prop where
  coherent : ∀ r c, x = .ok (r, c) → c.Coherent v
  reply : ∀ r c n, x = .ok (r, c) → r.result = .ok n → value = some r
  granted : ∀ r, granted → value = some r → ∃ c, x = .ok (r, c) ∧ c.scratch.Granted

theorem Encoded.answers {out : List Nat} {granted : Prop} {ids : Option (List Nat)}
    {x : Run (Except Err Nat × (BpCtx × List Nat))} (h : Encoded v out granted ids x) :
    Answers v (ids.map (idsReply out)) granted (do
      let (r, c, out) ← x
      pure (.ids r out, c)) := by
  cases h with
  | done ids c coherent grants =>
    constructor
    · rintro r c' ⟨⟩
      exact coherent
    · rintro r c' n ⟨⟩ -
      rfl
    · rintro r hg ⟨⟩
      exact ⟨c, rfl, grants hg⟩
  | refused ids c more coherent hno first =>
    constructor
    · rintro r c' ⟨⟩
      exact coherent
    · rintro r c' n ⟨⟩ ⟨⟩
    · intro r hg
      exact absurd hg hno
  | failed e c out' coherent =>
    constructor
    · rintro r c' ⟨⟩
      exact coherent
    · rintro r c' n ⟨⟩ ⟨⟩
    · rintro r - ⟨⟩
  | fault f =>
    constructor
    · rintro r c' ⟨⟩
    · rintro r c' n ⟨⟩
    · rintro r - ⟨⟩

theorem pretoken_encoded (hv : v.Valid) {c : BpCtx} (hc : c.Coherent v) (p : List UInt8) (out : List Nat) :
    Encoded v out c.scratch.Granted (pretokenIds v p) (do
      let (r, c, s) ← bpBpePretoken (c, ⟨out, 0⟩) p
      pure (r.map fun _ => s.total, (c, s.out))) := by
  rw [← holding_nil]
  have h := bpBpePretoken_emits hv hc p out []
  generalize bpBpePretoken (c, BpSink.holding out []) p = x at h
  generalize pretokenIds v p = ids at h
  cases h with
  | emitted ids c' coherent grants => exact .done ids c' coherent grants
  | refused ids c' more coherent hno first => exact .refused ids c' more coherent hno first
  | failed e c' s coherent => exact .failed e c' s.out coherent
  | fault f => exact .fault f

/-- **A call** keeps the context coherent; if it succeeds it replies with its value, and if the
allocator grants all it succeeds where it has one. -/
theorem call_spec (hT : T.Sized) (hS : T.Scannable) (hv : v.Valid) (hm : v.MatcherOk) {c : BpCtx}
    (hc : c.Coherent v) (k : Call) : Answers v (k.value T v) c.scratch.Granted (call T c k) := by
  cases k with
  | encode t out flags => exact (bpEncode_spec hT hS hv hm hc t out flags).answers
  | count t flags => exact (bpEncode_spec hT hS hv hm hc t [] flags).answers
  | pretoken p out =>
    have h := (pretoken_encoded hv hc p out).answers
    have heq : call T c (.pretoken p out) = (do
        let (r, c, out) ← (do
          let (r, c, s) ← bpBpePretoken (c, ⟨out, 0⟩) p
          pure (r.map fun _ => s.total, (c, s.out)) : Run (Except Err Nat × (BpCtx × List Nat)))
        pure (.ids r out, c)) := by
      rw [call]
      generalize bpBpePretoken (c, ⟨out, 0⟩) p = x
      cases x <;> rfl
    rwa [heq]
  | decode ids out flags =>
    have h := bpDecode_eq hv hc.handle flags ids out
    rw [call, Call.value]
    cases hids : decodeIds v flags ids with
    | ok bytes =>
      rw [hids] at h
      rw [h]
      constructor
      · rintro r c' ⟨⟩
        exact hc
      · rintro r c' n ⟨⟩ -
        rfl
      · rintro r hg ⟨⟩
        exact ⟨c, rfl, hg⟩
    | error e =>
      rw [hids] at h
      obtain ⟨out', h⟩ := h
      rw [h]
      constructor
      · rintro r c' ⟨⟩
        exact hc
      · rintro r c' n ⟨⟩ ⟨⟩
      · rintro r - ⟨⟩

/-- **Every context that is reached is coherent.** -/
theorem reached_coherent (hT : T.Sized) (hS : T.Scannable) (hv : v.Valid) (hm : v.MatcherOk) {c : BpCtx}
    (h : c.Reached T v) : c.Coherent v := by
  induction h with
  | new hnew => exact bpCtxNew_coherent hnew
  | call _ hcall ih => exact (call_spec hT hS hv hm ih _).coherent _ _ hcall

end Calls

end Bytepair
