import Parda.Mesh.Channel

/-!
# Repeated delivery

Claiming a bundle deletes it, so a peer that still holds a copy can have it admitted
again. Whether it is then returned again depends on where its index stands: below the
watermark it is never polled for, among the indices claimed ahead it still is.
-/

namespace Parda.Mesh

open Protocol

namespace Channel

/-- No bundle has been returned twice. -/
def AtMostOnce (w : Channel) : Prop := (w.returned.map Claim.bytes).Nodup

/-- At a receive, no bundle that was returned before and whose index is claimed ahead of
the watermark is stored at the relay. -/
def NoStoredCopyAhead (w : Channel) : ChannelLabel → Prop
  | .receive _ _ => ∀ claim ∈ w.returned, w.Holds claim.bytes →
      claim.index ∉ w.receiver.transport.claimedAhead
  | _ => True

section

variable {c : Crates} {cfg : ChannelConfig} {t : TagKey} {window : ℕ}

/-- Two claims on one bundle have one index. -/
lemma index_eq_of_bytes_eq (hdist : DistinctAddresses c t) {claim claim' : Claim}
    (h : claim.index < u64Max ∧ unwrap c claim.bytes =
      .ok (t.addressFor c claim.index, claim.envelope))
    (h' : claim'.index < u64Max ∧ unwrap c claim'.bytes =
      .ok (t.addressFor c claim'.index, claim'.envelope))
    (hbytes : claim.bytes = claim'.bytes) : claim.index = claim'.index := by
  obtain ⟨hlt, hun⟩ := h
  obtain ⟨hlt', hun'⟩ := h'
  rw [hbytes, hun', Except.ok.injEq, Prod.mk.injEq] at hun
  unfold u64Max at hlt hlt'
  exact hdist _ _ (by omega) (by omega) hun.1.symm

lemma atMostOnce_step (hdist : DistinctAddresses c t) (w : Channel) (label : ChannelLabel)
    (hw : Inv c cfg t window w) :
    AtMostOnce (step c cfg w label) ↔ AtMostOnce w ∧ NoStoredCopyAhead w label := by
  cases label with
  | receive rng order =>
    have hclaims := hw.mem_claims hdist rng order
    have hnodup : ((w.receiver.transport.claims c rng order w.receiver.agent.store).map
        Claim.bytes).Nodup := MeshTransport.claims_nodup hw.accounted.keyed
    have hend : w.receiver.transport.windowEnd ≤ u64Max := min_le_right _ _
    change ((w.returned ++ w.receiver.transport.claims c rng order w.receiver.agent.store).map
      Claim.bytes).Nodup ↔ _
    rw [List.map_append, List.nodup_append]
    constructor
    · rintro ⟨hold, -, hdisj⟩
      refine ⟨hold, ?_⟩
      intro claim hc hstored hahead
      obtain ⟨hle, hlt⟩ := hw.aheadPolled claim.index hahead
      have hagain := (hclaims claim).mpr ⟨hstored, hle, hlt, (hw.returnedFramed claim hc).2⟩
      exact hdisj claim.bytes (List.mem_map_of_mem hc) claim.bytes (List.mem_map_of_mem hagain) rfl
    · rintro ⟨hold, hcond⟩
      refine ⟨hold, hnodup, ?_⟩
      intro bytes hb bytes' hb' heq
      obtain ⟨claim, hc, rfl⟩ := List.mem_map.mp hb
      obtain ⟨claim', hc', rfl⟩ := List.mem_map.mp hb'
      obtain ⟨hstored, hle, hlt, hun⟩ := (hclaims claim').mp hc'
      have hidx := index_eq_of_bytes_eq hdist (hw.returnedFramed claim hc)
        ⟨lt_of_lt_of_le hlt hend, hun⟩ heq
      have hmem : claim.index ∈ w.receiver.transport.claimedIndices := by
        rw [hw.claimed]
        exact ⟨claim, hc, rfl⟩
      rcases hmem with hlow | hahead
      · omega
      · rw [← heq] at hstored
        exact hcond claim hc hstored hahead
  | send wrapMs admitMs envelope =>
    have hreturned : (step c cfg w (.send wrapMs admitMs envelope)).returned = w.returned := by
      change (w.sendStep c cfg wrapMs admitMs envelope).returned = _
      rcases sendStep_cases c cfg w wrapMs admitMs envelope with h | ⟨t', s, bytes, -, -, h⟩
      · rw [h]
      · rw [h]
    unfold AtMostOnce
    rw [hreturned]
    exact (and_iff_left trivial).symm
  | _ => exact (and_iff_left trivial).symm

/-- A run returns no bundle twice exactly when no receive of it finds a stored copy of a
bundle it has returned ahead of the watermark. -/
theorem atMostOnce_iff (hframe : FramingLaws c) (hdist : DistinctAddresses c t)
    (cfg : ChannelConfig) (window decoys : ℕ) (labels : List ChannelLabel) :
    AtMostOnce (Machine.run (step c cfg) (start t window decoys) labels) ↔
      Machine.EveryStep (step c cfg) NoStoredCopyAhead (start t window decoys) labels := by
  have hmonitor : AtMostOnce (Machine.run (step c cfg) (start t window decoys) labels) ↔
      AtMostOnce (start t window decoys) ∧
        Machine.EveryStep (step c cfg) NoStoredCopyAhead (start t window decoys) labels :=
    Machine.run_iff_everyStep (inv_step hframe hdist) (atMostOnce_step hdist) (inv_start decoys)
      labels
  rw [hmonitor]
  exact and_iff_right List.nodup_nil

end

section Resync

def sampleTagKey : TagKey := ⟨List.Vector.replicate 32 7⟩

/-- A session in which the peer asks for nothing and pushes the given bundles. -/
def pushSession (i : ℕ) (bundles : List Bytes) : List ChannelLabel :=
  let advance := ChannelLabel.receiverRelay i (.advance 1001 .insertion)
  let receive := fun m => ChannelLabel.receiverRelay i (.receive 1001 (.ok m))
  [advance, advance, advance, receive (.haveHashes []), advance, receive (.want []), advance,
    advance] ++ bundles.map (fun b => receive (.bundle b))

/-- The bundle side `a` sends at index `k` in the sample runs. -/
def sampleBundle (k : ℕ) : Bytes :=
  let t : MeshTransport := { tagKey := sampleTagKey }
  match wrap localCrates 1000 (t.composeAt localCrates k (sampleEnvelope (UInt8.ofNat k)))
    (sampleTagKey.addressFor localCrates k) with
  | .ok bytes => bytes
  | .error _ => []

lemma unwrap_sampleBundle (k : ℕ) : unwrap localCrates (sampleBundle k) =
    .ok (sampleTagKey.addressFor localCrates k,
      MeshTransport.composeAt localCrates { tagKey := sampleTagKey } k
        (sampleEnvelope (UInt8.ofNat k))) := by
  obtain ⟨bytes, -, hwrap, -, -, hun, -⟩ := wrap_spec localCrates_framing 1000
    (MeshTransport.composeAt localCrates { tagKey := sampleTagKey } k
      (sampleEnvelope (UInt8.ofNat k))) (sampleTagKey.addressFor localCrates k)
  unfold sampleBundle
  simp only [hwrap, hun]

def sampleSend (k : ℕ) : ChannelLabel := .send 1000 1001 (sampleEnvelope (UInt8.ofNat k))

def sampleReceive : ChannelLabel := .receive samplePollRng .insertion

/-- Bundle 1 arrives before bundle 0 and is claimed; a second carrier brings a copy. -/
def resyncRun : List ChannelLabel :=
  [sampleSend 0, sampleSend 1] ++ pushSession 0 [sampleBundle 1] ++ [sampleReceive] ++
    pushSession 1 [sampleBundle 1] ++ [sampleReceive]

theorem not_atMostOnce_resync :
    ¬AtMostOnce (Machine.run (step localCrates {}) (start sampleTagKey 8 7) resyncRun) := by
  unfold AtMostOnce
  decide +kernel

theorem atMostOnce_iff_resync :
    AtMostOnce (Machine.run (step localCrates {}) (start sampleTagKey 8 7) resyncRun) ↔
      Machine.EveryStep (step localCrates {}) NoStoredCopyAhead (start sampleTagKey 8 7)
        resyncRun :=
  atMostOnce_iff localCrates_framing (localCrates_distinct _) {} 8 7 resyncRun

end Resync

end Channel

end Parda.Mesh
