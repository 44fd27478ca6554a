import Parda.Mesh.Loss

/-!
# Foreign bundles

Carriers see the address of every bundle they hold and can frame bundles of their own
for it. Claims are taken on the address alone, so a foreign bundle that reaches a receive
first uses up the index of the sender's own.
-/

namespace Parda.Mesh

open Protocol

namespace Channel

/-- The bytes of some bundle that has been returned. -/
def IsReturned (w : Channel) (bytes : Bytes) : Prop := bytes ∈ w.returned.map Claim.bytes

/-- The indices whose own bundles have been returned. -/
def genuineReturned (w : Channel) : Set ℕ :=
  {n | ∃ b ∈ w.sent, b.index = n ∧ w.IsReturned b.bytes}

/-- The next receive returns every bundle of the sender that is at the relay, has not been
returned, and lies less than a window past the lowest index whose own bundle has not. -/
def NextReceiveComplete (c : Crates) (w : Channel) : Prop :=
  ∀ rng order, ∀ b ∈ w.sent, w.Holds b.bytes → ¬w.IsReturned b.bytes →
    b.index < Frontier.frontier w.genuineReturned + w.receiver.transport.window →
    b.bytes ∈ (w.receiver.transport.claims c rng order w.receiver.agent.store).map Claim.bytes

/-- At a receive, the sender's own bundle is at the relay or was returned before for every
polled index at which some bundle is stored. -/
def OwnBundleFirst (c : Crates) (w : Channel) : ChannelLabel → Prop
  | .receive _ _ => ∀ n bytes envelope, w.receiver.transport.lowWatermark ≤ n →
      n < w.receiver.transport.windowEnd → w.Holds bytes →
      unwrap c bytes = .ok (w.receiver.transport.tagKey.addressFor c n, envelope) →
      ∃ b ∈ w.sent, b.index = n ∧ (w.Holds b.bytes ∨ w.IsReturned b.bytes)
  | _ => True

section

variable {c : Crates} {cfg : ChannelConfig} {t : TagKey} {window : ℕ} {w : Channel}

lemma isReturned_step (label : ChannelLabel) {bytes : Bytes} (h : w.IsReturned bytes) :
    (step c cfg w label).IsReturned bytes := by
  obtain ⟨claim, hc, rfl⟩ := List.mem_map.mp h
  exact List.mem_map_of_mem (returned_subset_step label hc)

lemma genuineReturned_subset_step (label : ChannelLabel) :
    w.genuineReturned ⊆ (step c cfg w label).genuineReturned := by
  rintro n ⟨b, hb, hidx, hret⟩
  exact ⟨b, sent_subset_step label hb, hidx, isReturned_step label hret⟩

/-- With own bundles first, every index that is used up was used up by its own bundle. -/
lemma returnedIndices_subset_step (hdist : DistinctAddresses c t) (hw : Inv c cfg t window w)
    (hsub : w.returnedIndices ⊆ w.genuineReturned) (label : ChannelLabel)
    (hfirst : OwnBundleFirst c w label) :
    (step c cfg w label).returnedIndices ⊆ (step c cfg w label).genuineReturned := by
  have hold : w.returnedIndices ⊆ (step c cfg w label).genuineReturned :=
    hsub.trans (genuineReturned_subset_step label)
  cases label with
  | receive rng order =>
    rintro n ⟨claim, hc, rfl⟩
    rcases List.mem_append.mp hc with hc | hc
    · exact hold ⟨claim, hc, rfl⟩
    · obtain ⟨hstored, hle, hlt, hun⟩ := (hw.mem_claims hdist rng order claim).mp hc
      have hown := hfirst claim.index claim.bytes claim.envelope hle hlt hstored
        (by rw [hw.receiverKey]; exact hun)
      obtain ⟨b, hb, hidx, hholds | hret⟩ := hown
      · have hclaim := (hw.mem_claims hdist rng order ⟨b.bytes, claim.index, b.envelope⟩).mpr
          ⟨hholds, hle, hlt, by rw [← hidx]; exact hw.framed b hb⟩
        exact ⟨b, hb, hidx, List.mem_map_of_mem (List.mem_append_right _ hclaim)⟩
      · exact ⟨b, hb, hidx, isReturned_step (.receive rng order) hret⟩
  | send wrapMs admitMs envelope =>
    have hsame : (step c cfg w (.send wrapMs admitMs envelope)).returnedIndices =
        w.returnedIndices := by
      change (w.sendStep c cfg wrapMs admitMs envelope).returnedIndices = _
      rcases sendStep_cases c cfg w wrapMs admitMs envelope with h | ⟨t', s, bytes, -, -, h⟩
      · rw [h]
      · rw [h]
        rfl
    rw [hsame]
    exact hold
  | _ => exact hold

lemma nextReceiveComplete_of_subset (hdist : DistinctAddresses c t) (hw : Inv c cfg t window w)
    (hcounter : w.sender.transport.sendCounter ≤ u64Max)
    (hsub : w.returnedIndices ⊆ w.genuineReturned) : NextReceiveComplete c w := by
  intro rng order b hb hholds hret hlt
  have hsame : w.genuineReturned = w.returnedIndices := by
    refine Set.Subset.antisymm ?_ hsub
    rintro n ⟨b', hb', rfl, hret'⟩
    obtain ⟨claim, hc, hbytes⟩ := List.mem_map.mp hret'
    exact ⟨claim, hc,
      (hw.index_eq hdist hcounter hb' claim (hw.returnedFramed claim hc) hbytes.symm).symm⟩
  have hnot : b.index ∉ w.returnedIndices := by
    intro hmem
    obtain ⟨b', hb', hidx, hret'⟩ := hsub hmem
    rw [hw.sent_unique hb' hb hidx] at hret'
    exact hret hret'
  have hlow : w.receiver.transport.lowWatermark ≤ b.index := by
    rw [hw.lowWatermark_eq]
    exact Frontier.frontier_le hnot
  have hend : b.index < w.receiver.transport.windowEnd := by
    rw [hsame, ← hw.lowWatermark_eq] at hlt
    have hidx := hw.index_lt hb
    unfold MeshTransport.windowEnd windowEnd
    omega
  have hclaim := (hw.mem_claims hdist rng order ⟨b.bytes, b.index, b.envelope⟩).mpr
    ⟨hholds, hlow, hend, hw.framed b hb⟩
  exact List.mem_map_of_mem hclaim

lemma ownBundleFirst_of_genuine (hdist : DistinctAddresses c t) (hw : Inv c cfg t window w)
    (hg : Genuine w) (hcounter : w.sender.transport.sendCounter ≤ u64Max) (label : ChannelLabel) :
    OwnBundleFirst c w label := by
  cases label with
  | receive rng order =>
    intro n bytes envelope hle hlt hholds hun
    obtain ⟨b, hb, hbytes⟩ := hg.stored bytes hholds
    have hlt' : n < u64Max := lt_of_lt_of_le hlt (min_le_right _ _)
    rw [hw.receiverKey] at hun
    have hidx := hw.index_eq hdist hcounter hb ⟨bytes, n, envelope⟩ ⟨hlt', hun⟩ hbytes
    refine ⟨b, hb, hidx, Or.inl ?_⟩
    rw [hbytes]
    exact hholds
  | _ => trivial

/-- Honest peers meet the condition: what they pass on is the sender's own. -/
theorem everyStep_ownBundleFirst_of_honest (hframe : FramingLaws c) (hdist : DistinctAddresses c t)
    (cfg : ChannelConfig) (window decoys : ℕ) (labels : List ChannelLabel)
    (hcounter : (Machine.run (step c cfg) (start t window decoys)
      labels).sender.transport.sendCounter ≤ u64Max)
    (honest : Machine.EveryStep (step c cfg) Honest (start t window decoys) labels) :
    Machine.EveryStep (step c cfg) (OwnBundleFirst c) (start t window decoys) labels := by
  have hcounters : Machine.EveryState (step c cfg)
      (fun w => w.sender.transport.sendCounter ≤ u64Max) (start t window decoys) labels :=
    Machine.everyState_of_last (fun w label h => (sendCounter_le_step label).trans h) hcounter
  have hsteps : Machine.EveryStep (step c cfg) (LossyStep ∅) (start t window decoys) labels :=
    (honest.and hcounters.everyStep).mono fun w label h => ⟨h.1, h.2, fun b _ hb => by cases hb⟩
  have hstart : LossyInv c cfg t window ∅ (start t window decoys) := lossyInv_start decoys ∅
  have hall := Machine.everyState_of_everyStep (lossyInv_step hframe hdist) hstart hsteps
  exact (hall.and hcounters).everyStep.mono fun w label h =>
    ownBundleFirst_of_genuine hdist h.1.inv h.1.genuine h.2 label

/-- In a run whose receives all find the sender's own bundles first, no carrier can keep a
bundle from the next receive. -/
theorem everyState_nextReceiveComplete (hframe : FramingLaws c) (hdist : DistinctAddresses c t)
    (cfg : ChannelConfig) (window decoys : ℕ) (labels : List ChannelLabel)
    (hcounter : (Machine.run (step c cfg) (start t window decoys)
      labels).sender.transport.sendCounter ≤ u64Max)
    (hfirst : Machine.EveryStep (step c cfg) (OwnBundleFirst c) (start t window decoys) labels) :
    Machine.EveryState (step c cfg) (NextReceiveComplete c) (start t window decoys) labels := by
  have hstep : ∀ w label, (Inv c cfg t window w ∧ w.returnedIndices ⊆ w.genuineReturned) →
      OwnBundleFirst c w label → (Inv c cfg t window (step c cfg w label) ∧
        (step c cfg w label).returnedIndices ⊆ (step c cfg w label).genuineReturned) := by
    rintro w label ⟨hw, hsub⟩ hlabel
    exact ⟨inv_step hframe hdist w label hw, returnedIndices_subset_step hdist hw hsub label hlabel⟩
  have hstart : Inv c cfg t window (start t window decoys) ∧
      (start t window decoys).returnedIndices ⊆ (start t window decoys).genuineReturned := by
    refine ⟨inv_start decoys, ?_⟩
    rintro n ⟨claim, hc, -⟩
    cases hc
  have hall := Machine.everyState_of_everyStep hstep hstart hfirst
  have hcounters : Machine.EveryState (step c cfg)
      (fun w => w.sender.transport.sendCounter ≤ u64Max) (start t window decoys) labels :=
    Machine.everyState_of_last (fun w label h => (sendCounter_le_step label).trans h) hcounter
  exact (hall.and hcounters).mono fun w h => nextReceiveComplete_of_subset hdist h.1.1 h.2 h.1.2

end

section Forged

/-- A carrier's own bundle for the address of index 0. -/
def forgedBundle : Bytes :=
  match wrap localCrates 1000 (sampleEnvelope 99) (sampleTagKey.addressFor localCrates 0) with
  | .ok bytes => bytes
  | .error _ => []

/-- The forged bundle is received before the sender's own reaches the relay. -/
def forgedRun : List ChannelLabel :=
  [sampleSend 0] ++ pushSession 0 [forgedBundle] ++ [sampleReceive] ++
    pushSession 1 [sampleBundle 0]

/-- Bundle 0 is at the relay and was never returned, and the next receive passes it over. -/
theorem not_nextReceiveComplete_forged :
    ¬NextReceiveComplete localCrates
      (Machine.run (step localCrates {}) (start sampleTagKey 8 7) forgedRun) := by
  intro h
  have hfacts : ∃ b ∈ (Machine.run (step localCrates {}) (start sampleTagKey 8 7) forgedRun).sent,
      b.index = 0 ∧
      (Machine.run (step localCrates {}) (start sampleTagKey 8 7) forgedRun).Holds b.bytes ∧
      b.bytes ∉ (Machine.run (step localCrates {}) (start sampleTagKey 8 7)
        forgedRun).returned.map Claim.bytes ∧
      ((Machine.run (step localCrates {}) (start sampleTagKey 8 7)
        forgedRun).receiver.transport.claims localCrates samplePollRng .insertion
        (Machine.run (step localCrates {}) (start sampleTagKey 8 7)
          forgedRun).receiver.agent.store).map Claim.bytes = [] := by decide +kernel
  obtain ⟨b, hb, hidx, hholds, hret, hclaims⟩ := hfacts
  have hwindow : (Machine.run (step localCrates {}) (start sampleTagKey 8 7)
      forgedRun).receiver.transport.window = 8 := by decide +kernel
  have hmem := h samplePollRng .insertion b hb hholds hret (by rw [hidx, hwindow]; omega)
  rw [hclaims] at hmem
  cases hmem

theorem everyState_nextReceiveComplete_honest :
    Machine.EveryState (step localCrates {}) (NextReceiveComplete localCrates)
      (start sampleTagKey 8 7)
      ([sampleSend 0] ++ pushSession 0 [sampleBundle 0] ++ [sampleReceive]) := by
  have hcounter : (Machine.run (step localCrates {}) (start sampleTagKey 8 7)
      ([sampleSend 0] ++ pushSession 0 [sampleBundle 0] ++
        [sampleReceive])).sender.transport.sendCounter ≤ u64Max := by decide +kernel
  have honest : Machine.EveryStep (step localCrates {}) Honest (start sampleTagKey 8 7)
      ([sampleSend 0] ++ pushSession 0 [sampleBundle 0] ++ [sampleReceive]) := by decide +kernel
  exact everyState_nextReceiveComplete localCrates_framing (localCrates_distinct sampleTagKey) {} 8 7
    _ hcounter (everyStep_ownBundleFirst_of_honest localCrates_framing
      (localCrates_distinct sampleTagKey) {} 8 7 _ hcounter honest)

end Forged

end Channel

end Parda.Mesh
