import Parda.Mesh.LocalCrates
import Parda.Mesh.Transport

/-!
# One-directional channels

Side `a` only sends, each time with the next send address, and side `b` only receives.
Both relays run sync sessions with any number of peers that send arbitrary messages and
abort at any point. The state logs what `a` has sent and what `b` has returned.
-/

namespace Parda.Mesh

open Protocol

/-- A device: its transport and its relay agent. -/
structure Party where
  transport : MeshTransport
  agent : Agent := {}

structure Channel where
  sender : Party
  receiver : Party
  sent : List SentBundle := []
  returned : List Claim := []

inductive ChannelLabel where
  | send (wrapMs admitMs : UInt64) (envelope : MessageEnvelope)
  | receive (rng : PollRng) (order : IterOrder)
  | senderRelay (i : ℕ) (event : SyncEvent)
  | receiverRelay (i : ℕ) (event : SyncEvent)
  | senderSweep (order : IterOrder) (nowMs : UInt64)
  | receiverSweep (order : IterOrder) (nowMs : UInt64)

/-- The relay configurations of the two sides. -/
structure ChannelConfig where
  sender : RelayConfig := {}
  receiver : RelayConfig := {}

namespace Channel

def sendStep (c : Crates) (cfg : ChannelConfig) (w : Channel) (wrapMs admitMs : UInt64)
    (envelope : MessageEnvelope) : Channel :=
  let t := w.sender.transport
  let envelope := t.composeAt c t.sendCounter envelope
  match t.send c cfg.sender wrapMs admitMs w.sender.agent.store envelope,
    wrap c wrapMs envelope (t.nextSendAddress c) with
  | .ok (t', s), .ok bytes =>
    { w with
      sender := ⟨t', { w.sender.agent with store := s }⟩
      sent := ⟨t.sendCounter, bytes, envelope⟩ :: w.sent }
  | _, _ => w

def receiveStep (c : Crates) (w : Channel) (rng : PollRng) (order : IterOrder) : Channel :=
  let r := w.receiver.transport.receive c rng order w.receiver.agent.store
  { w with
    receiver := ⟨r.1, { w.receiver.agent with store := r.2.1 }⟩
    returned := w.returned ++ r.2.2 }

def relayReceiver (c : Crates) (cfg : ChannelConfig) (w : Channel) (label : AgentLabel) : Channel :=
  { w with receiver := { w.receiver with agent := agentStep c cfg.receiver w.receiver.agent label } }

def relaySender (c : Crates) (cfg : ChannelConfig) (w : Channel) (label : AgentLabel) : Channel :=
  { w with sender := { w.sender with agent := agentStep c cfg.sender w.sender.agent label } }

def step (c : Crates) (cfg : ChannelConfig) (w : Channel) : ChannelLabel → Channel
  | .send wrapMs admitMs envelope => w.sendStep c cfg wrapMs admitMs envelope
  | .receive rng order => w.receiveStep c rng order
  | .senderRelay i event => w.relaySender c cfg (.session i event)
  | .receiverRelay i event => w.relayReceiver c cfg (.session i event)
  | .senderSweep order nowMs => w.relaySender c cfg (.sweep order nowMs)
  | .receiverSweep order nowMs => w.relayReceiver c cfg (.sweep order nowMs)

def start (t : TagKey) (window decoys : ℕ) : Channel where
  sender := { transport := { tagKey := t } }
  receiver := { transport := { tagKey := t, window := window, decoysPerReal := decoys } }

/-- The bundle stored at the receiver's relay. -/
def Holds (w : Channel) (bytes : Bytes) : Prop := w.receiver.agent.store.Holds bytes

instance decidableHolds (w : Channel) (bytes : Bytes) : Decidable (w.Holds bytes) :=
  inferInstanceAs (Decidable (w.receiver.agent.store.Holds bytes))

/-- The indices of the envelopes returned so far. -/
def returnedIndices (w : Channel) : Set ℕ := {n | ∃ claim ∈ w.returned, claim.index = n}

/-- What every reachable channel with the tag key `t` and the given window satisfies. -/
structure Inv (c : Crates) (cfg : ChannelConfig) (t : TagKey) (window : ℕ) (w : Channel) :
    Prop where
  senderKey : w.sender.transport.tagKey = t
  receiverKey : w.receiver.transport.tagKey = t
  receiverWindow : w.receiver.transport.window = window
  accounted : RelayStore.Accounted c cfg.receiver w.receiver.agent.store
  sentIndices : w.sent.map SentBundle.index = (List.range w.sender.transport.sendCounter).reverse
  framed : ∀ b ∈ w.sent, unwrap c b.bytes = .ok (t.addressFor c b.index, b.envelope)
  returnedFramed : ∀ claim ∈ w.returned, claim.index < u64Max ∧
    unwrap c claim.bytes = .ok (t.addressFor c claim.index, claim.envelope)
  claimed : w.receiver.transport.claimedIndices = w.returnedIndices
  lowUnclaimed : w.receiver.transport.lowWatermark ∉ w.receiver.transport.claimedAhead
  aheadPolled : ∀ n ∈ w.receiver.transport.claimedAhead,
    w.receiver.transport.lowWatermark ≤ n ∧ n < w.receiver.transport.windowEnd

section Invariant

variable {c : Crates} {cfg : ChannelConfig} {t : TagKey} {window : ℕ} {w : Channel}

lemma inv_start (decoys : ℕ) : Inv c cfg t window (start t window decoys) where
  senderKey := rfl
  receiverKey := rfl
  receiverWindow := rfl
  accounted := RelayStore.accounted_empty
  sentIndices := rfl
  framed b hb := by cases hb
  returnedFramed claim hc := by cases hc
  claimed := by
    ext n
    simp [MeshTransport.claimedIndices, returnedIndices, start]
  lowUnclaimed := Finset.notMem_empty _
  aheadPolled n hn := by cases hn

/-- The watermark is the lowest index not returned. -/
theorem Inv.lowWatermark_eq (hw : Inv c cfg t window w) :
    w.receiver.transport.lowWatermark = Frontier.frontier w.returnedIndices := by
  rw [← hw.claimed]
  exact (Frontier.frontier_claimed hw.lowUnclaimed).symm

lemma Inv.relayReceiver (hw : Inv c cfg t window w) (label : AgentLabel) :
    Inv c cfg t window (w.relayReceiver c cfg label) :=
  { hw with accounted := agentStep_accounted w.receiver.agent label hw.accounted }

lemma Inv.relaySender (hw : Inv c cfg t window w) (label : AgentLabel) :
    Inv c cfg t window (w.relaySender c cfg label) :=
  { hw with }

/-- A send changes nothing, or it succeeds and logs its bundle. -/
lemma sendStep_cases (c : Crates) (cfg : ChannelConfig) (w : Channel) (wrapMs admitMs : UInt64)
    (envelope : MessageEnvelope) :
    w.sendStep c cfg wrapMs admitMs envelope = w ∨
    ∃ t' s bytes,
      w.sender.transport.send c cfg.sender wrapMs admitMs w.sender.agent.store
        (w.sender.transport.composeAt c w.sender.transport.sendCounter envelope) = .ok (t', s) ∧
      wrap c wrapMs (w.sender.transport.composeAt c w.sender.transport.sendCounter envelope)
        (w.sender.transport.nextSendAddress c) = .ok bytes ∧
      w.sendStep c cfg wrapMs admitMs envelope = { w with
        sender := ⟨t', { w.sender.agent with store := s }⟩
        sent := ⟨w.sender.transport.sendCounter, bytes,
          w.sender.transport.composeAt c w.sender.transport.sendCounter envelope⟩ :: w.sent } := by
  unfold sendStep
  simp only
  split
  · rename_i t' s bytes hsend hwrap
    exact Or.inr ⟨t', s, bytes, hsend, hwrap, rfl⟩
  · exact Or.inl rfl

lemma Inv.sendStep (hframe : FramingLaws c) (hw : Inv c cfg t window w) (wrapMs admitMs : UInt64)
    (envelope : MessageEnvelope) : Inv c cfg t window (w.sendStep c cfg wrapMs admitMs envelope) := by
  rcases sendStep_cases c cfg w wrapMs admitMs envelope with h | ⟨t', s, bytes, hsend, hwrap, h⟩
  · rw [h]
    exact hw
  · obtain ⟨-, hun, rfl⟩ := MeshTransport.send_composeAt hframe hsend hwrap
    rw [hw.senderKey] at hun
    rw [h]
    refine { hw with senderKey := hw.senderKey, sentIndices := ?_, framed := ?_ }
    · simp only [List.map_cons, hw.sentIndices]
      rw [List.range_succ, List.reverse_append]
      rfl
    · intro b hb
      rcases List.mem_cons.mp hb with rfl | hb
      · exact hun
      · exact hw.framed b hb

/-- What one receive returns. -/
lemma Inv.mem_claims (hdist : DistinctAddresses c t) (hw : Inv c cfg t window w) (rng : PollRng)
    (order : IterOrder) (claim : Claim) :
    claim ∈ w.receiver.transport.claims c rng order w.receiver.agent.store ↔
      w.Holds claim.bytes ∧ w.receiver.transport.lowWatermark ≤ claim.index ∧
        claim.index < w.receiver.transport.windowEnd ∧
        unwrap c claim.bytes = .ok (t.addressFor c claim.index, claim.envelope) := by
  have hdist' : DistinctAddresses c w.receiver.transport.tagKey := by
    rw [hw.receiverKey]
    exact hdist
  rw [MeshTransport.mem_claims hdist' hw.accounted.decoded, hw.receiverKey]
  rfl

lemma Inv.receiveStep (hdist : DistinctAddresses c t) (hw : Inv c cfg t window w) (rng : PollRng)
    (order : IterOrder) : Inv c cfg t window (w.receiveStep c rng order) := by
  have hclaims := hw.mem_claims hdist rng order
  have hreturned : (w.receiveStep c rng order).returnedIndices =
      w.returnedIndices ∪ {n | n ∈ (w.receiver.transport.claims c rng order
        w.receiver.agent.store).map Claim.index} := by
    ext n
    simp only [returnedIndices, Channel.receiveStep, MeshTransport.receive, List.mem_append,
      Set.mem_ofPred_eq, Set.mem_union, List.mem_map]
    constructor
    · rintro ⟨claim, h | h, rfl⟩
      · exact Or.inl ⟨claim, h, rfl⟩
      · exact Or.inr ⟨claim, h, rfl⟩
    · rintro (⟨claim, h, rfl⟩ | ⟨claim, h, rfl⟩)
      · exact ⟨claim, Or.inl h, rfl⟩
      · exact ⟨claim, Or.inr h, rfl⟩
  have hend : w.receiver.transport.windowEnd ≤
      (w.receiver.transport.advance ((w.receiver.transport.claims c rng order
        w.receiver.agent.store).map Claim.index)).windowEnd := by
    have hlow := w.receiver.transport.lowWatermark_le_advance
      ((w.receiver.transport.claims c rng order w.receiver.agent.store).map Claim.index)
    exact min_le_min_right _ (Nat.add_le_add_right hlow _)
  refine { hw with receiverKey := hw.receiverKey, receiverWindow := hw.receiverWindow,
                   accounted := hw.accounted.removeAll _, returnedFramed := ?_, claimed := ?_,
                   lowUnclaimed := Frontier.catchUp_notMem _ _, aheadPolled := ?_ }
  · intro claim hc
    rcases List.mem_append.mp hc with hc | hc
    · exact hw.returnedFramed claim hc
    · obtain ⟨-, -, hlt, hun⟩ := (hclaims claim).mp hc
      have hle := min_le_right (w.receiver.transport.lowWatermark + w.receiver.transport.window)
        u64Max
      exact ⟨lt_of_lt_of_le hlt hle, hun⟩
  · rw [hreturned, ← hw.claimed]
    exact MeshTransport.advance_claimedIndices _ _
  · intro n hn
    have hfrom : n ∈ w.receiver.transport.claimedAhead ∪
        ((w.receiver.transport.claims c rng order w.receiver.agent.store).map
          Claim.index).toFinset := Frontier.catchUp_subset _ _ hn
    have hall : ∀ m ∈ w.receiver.transport.claimedAhead ∪
        ((w.receiver.transport.claims c rng order w.receiver.agent.store).map
          Claim.index).toFinset,
        w.receiver.transport.lowWatermark ≤ m ∧ m < w.receiver.transport.windowEnd := by
      intro m hm
      rcases Finset.mem_union.mp hm with hm | hm
      · exact hw.aheadPolled m hm
      · obtain ⟨claim, hc, rfl⟩ := List.mem_map.mp (List.mem_toFinset.mp hm)
        obtain ⟨-, hle, hlt, -⟩ := (hclaims claim).mp hc
        exact ⟨hle, hlt⟩
    exact ⟨Frontier.catchUp_above (fun m hm => (hall m hm).1) n hn,
      lt_of_lt_of_le (hall n hfrom).2 hend⟩

lemma inv_step (hframe : FramingLaws c) (hdist : DistinctAddresses c t) (w : Channel)
    (label : ChannelLabel) (hw : Inv c cfg t window w) : Inv c cfg t window (step c cfg w label) := by
  cases label with
  | send wrapMs admitMs envelope => exact hw.sendStep hframe wrapMs admitMs envelope
  | receive rng order => exact hw.receiveStep hdist rng order
  | senderRelay i event => exact hw.relaySender _
  | receiverRelay i event => exact hw.relayReceiver _
  | senderSweep order nowMs => exact hw.relaySender _
  | receiverSweep order nowMs => exact hw.relayReceiver _

end Invariant

end Channel

end Parda.Mesh
