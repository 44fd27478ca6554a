import Mathlib.Data.Multiset.Range
import Parda.Mesh.Handoff

/-!
# The order of sends

`next_send_address` reads the counter when an envelope is composed, `send` advances it when one
is accepted, and the two are joined only by the address the envelope carries. Envelopes are
composed and sent in any order here, each any number of times, and the relay store is whatever
the rest of the device makes of it.
-/

namespace Parda.Mesh

open Protocol

/-- `sent` keeps, by its position among the composed envelopes, the bundle of the first accepted
send of each. -/
structure SendOrder where
  sender : MeshSender
  composed : List MessageEnvelope := []
  sent : List (ℕ × Bytes) := []

inductive SendOrderLabel where
  | compose (envelope : MessageEnvelope)
  | send (index : ℕ) (call : MeshCall)
  | relay (store : RelayStore)

namespace SendOrder

variable (c : Crates) (cfg : RelayConfig)

/-- An accepted send of the envelope at `index`. -/
def record (s : SendOrder) (index : ℕ) (call : MeshCall) (envelope : MessageEnvelope) :
    List (ℕ × Bytes) :=
  if index ∈ s.sent.map Prod.fst then s.sent
  else (framed c call.wrapMs envelope).toList.map (fun bytes => (index, bytes)) ++ s.sent

def step (s : SendOrder) : SendOrderLabel → SendOrder
  | .compose envelope =>
    let envelope :=
      { envelope with deadDropAddress := some (s.sender.transport.nextSendAddress c) }
    { s with composed := s.composed ++ [envelope] }
  | .send index call =>
    match s.composed[index]? with
    | none => s
    | some envelope =>
      match (MeshSender.layer c cfg call).send envelope s.sender with
      | (.ok (), sender) => { s with sender := sender, sent := s.record c index call envelope }
      | (.error _, _) => s
  | .relay store => { s with sender := { s.sender with store := store } }

/-- The destination address of a bundle. -/
def destinationOf (bytes : Bytes) : Option Address :=
  ((bytesAsBundle c bytes).toOption.bind fun bundle => (destinationAddress bundle).toOption)

/-- After `k` envelopes were accepted the counter is at `k`, and their bundles went to the
addresses below it, one each. -/
def Aligned (s : SendOrder) : Prop :=
  s.sender.transport.sendCounter = s.sent.length ∧
    (s.sent.map fun e => destinationOf c e.2 : Multiset (Option Address)) =
      (Multiset.range s.sent.length).map fun n => some (s.sender.transport.tagKey.addressFor c n)

/-- An envelope that is accepted was not accepted before, and carries the address that
`next_send_address` returns now. -/
def InTurn (s : SendOrder) : SendOrderLabel → Prop
  | .send index call =>
    ∀ envelope ∈ s.composed[index]?, Handoff.Takes c cfg call s.sender envelope →
      index ∉ s.sent.map Prod.fst ∧
        envelope.deadDropAddress = some (s.sender.transport.nextSendAddress c)
  | _ => True

variable {c cfg}

section Steps

open Handoff

variable {s : SendOrder} {index : ℕ} {call : MeshCall} {envelope : MessageEnvelope}

lemma step_of_not_takes (hindex : s.composed[index]? = some envelope)
    (h : ¬Takes c cfg call s.sender envelope) : s.step c cfg (.send index call) = s := by
  obtain ⟨e, hsend⟩ := send_of_not_takes h
  rw [step, hindex]
  simp only [hsend]

/-- A send that is accepted frames the envelope for the address it carries and advances the
counter. -/
lemma step_of_takes (laws : FramingLaws c) (hindex : s.composed[index]? = some envelope)
    (h : Takes c cfg call s.sender envelope) :
    ∃ address bytes, envelope.deadDropAddress = some address ∧
      framed c call.wrapMs envelope = some bytes ∧ destinationOf c bytes = some address ∧
      (s.step c cfg (.send index call)).sender.transport =
        { s.sender.transport with sendCounter := s.sender.transport.sendCounter + 1 } ∧
      (s.step c cfg (.send index call)).sent = s.record c index call envelope := by
  obtain ⟨bytes, hbytes, store, hsend⟩ := send_of_takes h
  obtain ⟨address, haddr, bundle, hbundle, hdest⟩ := isDestination_of_framed laws hbytes
  refine ⟨address, bytes, haddr, hbytes, ?_, ?_, ?_⟩
  · unfold destinationOf
    rw [hbundle]
    simp [Except.toOption, hdest]
  · rw [step, hindex]
    simp only [hsend]
  · rw [step, hindex]
    simp only [hsend]

/-- The property survives a step exactly when the step is in turn. -/
lemma aligned_step_iff (laws : FramingLaws c) (label : SendOrderLabel) (h : s.Aligned c) :
    (s.step c cfg label).Aligned c ↔ s.InTurn c cfg label := by
  cases label with
  | compose envelope => exact iff_of_true h trivial
  | relay store => exact iff_of_true h trivial
  | send index call =>
    dsimp only [InTurn]
    cases hindex : s.composed[index]? with
    | none =>
      rw [step, hindex]
      exact iff_of_true h (fun _ => nofun)
    | some envelope =>
      simp only [Option.mem_def, Option.some.injEq, forall_eq']
      by_cases htakes : Takes c cfg call s.sender envelope
      · obtain ⟨address, bytes, haddr, hframed, hdest, htransport, hsent⟩ :=
          step_of_takes laws hindex htakes
        obtain ⟨hcount, haddresses⟩ := h
        unfold Aligned
        rw [hsent, htransport, haddr]
        unfold record MeshTransport.nextSendAddress
        by_cases hold : index ∈ s.sent.map Prod.fst
        · -- a second send of the same envelope advances the counter past it
          rw [if_pos hold]
          refine iff_of_false (fun h' => ?_) (fun h' => (h' htakes).1 hold)
          have hcount' := h'.1
          dsimp only at hcount'
          omega
        · rw [if_neg hold, hframed, hcount]
          simp only [Option.toList_some, List.map_cons, List.map_nil, List.singleton_append,
            List.length_cons, Multiset.range_succ, Multiset.map_cons, ← haddresses, hdest,
            ← Multiset.cons_coe, Multiset.cons_inj_left, true_and, htakes, true_imp_iff, hold,
            not_false_eq_true]
      · rw [step_of_not_takes hindex htakes]
        exact iff_of_true h (fun htakes' => absurd htakes' htakes)

end Steps

/-- A new transport. -/
def start (tagKey : TagKey) (window decoysPerReal : ℕ) (store : RelayStore) : SendOrder where
  sender :=
    { transport := { tagKey := tagKey, window := window, decoysPerReal := decoysPerReal }
      store := store }

lemma aligned_start (tagKey : TagKey) (window decoysPerReal : ℕ) (store : RelayStore) :
    (start tagKey window decoysPerReal store).Aligned c :=
  ⟨rfl, rfl⟩

/-- The addresses stay aligned with the counter in every state exactly when every accepted send is
of an envelope not accepted before that carries the current address. -/
theorem everyState_aligned_iff (laws : FramingLaws c) (cfg : RelayConfig) (tagKey : TagKey)
    (window decoysPerReal : ℕ) (store : RelayStore) (labels : List SendOrderLabel) :
    Machine.EveryState (step c cfg) (Aligned c) (start tagKey window decoysPerReal store) labels ↔
      Machine.EveryStep (step c cfg) (InTurn c cfg) (start tagKey window decoysPerReal store)
        labels := by
  have hstep : ∀ (s : SendOrder) (label : SendOrderLabel), True → True := fun _ _ h => h
  have haligned : ∀ (s : SendOrder) (label : SendOrderLabel), True → s.Aligned c →
      ((s.step c cfg label).Aligned c ↔ s.InTurn c cfg label) :=
    fun _ label _ h => aligned_step_iff laws label h
  exact Machine.everyState_iff_everyStep hstep haligned trivial
    (aligned_start tagKey window decoysPerReal store) labels

section ComposedAhead

def sampleSendCall : MeshCall := ⟨1000, 1000, samplePollRng, .insertion⟩

def sampleStart : SendOrder := start ⟨List.Vector.replicate 32 5⟩ 8 7 {}

/-- Each envelope is sent before the next is composed. -/
def oneByOne : List SendOrderLabel :=
  [.compose (sampleEnvelope 1), .send 0 sampleSendCall, .compose (sampleEnvelope 2),
    .send 1 sampleSendCall]

/-- Both envelopes are composed before the first is sent. -/
def composedAhead : List SendOrderLabel :=
  [.compose (sampleEnvelope 1), .compose (sampleEnvelope 2), .send 0 sampleSendCall,
    .send 1 sampleSendCall]

theorem everyState_aligned_iff_oneByOne :
    Machine.EveryState (step localCrates {}) (Aligned localCrates) sampleStart oneByOne ↔
      Machine.EveryStep (step localCrates {}) (InTurn localCrates {}) sampleStart oneByOne :=
  everyState_aligned_iff localCrates_framing {} ⟨List.Vector.replicate 32 5⟩ 8 7 {} oneByOne

/-- Two envelopes composed ahead go to the same address, and the next address is skipped. -/
theorem not_aligned_composedAhead :
    ¬Machine.EveryState (step localCrates {}) (Aligned localCrates) sampleStart composedAhead := by
  intro h
  have hlast := h.last
  revert hlast
  unfold Aligned
  decide +kernel

end ComposedAhead

end SendOrder

end Parda.Mesh
