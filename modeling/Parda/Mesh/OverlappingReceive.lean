import Parda.Mesh.Delivery

/-!
# Overlapping receives

Any number of `receive` calls on one transport. A call reads the watermark under the lock, takes
from the relay without it, and updates the state under the lock again, with anything in between.
-/

namespace Parda.Mesh

open Protocol Machine

/-- A `receive` between its steps: what it read, and what it has taken. -/
structure ReceiveCall where
  windowStart : ℕ
  pollSet : List Address
  taken : Option (List Bytes) := none

structure Receiving where
  agent : Agent := {}
  transport : MeshTransport
  calls : List ReceiveCall := []
  /-- The indices that updates have claimed. -/
  claimed : Finset ℕ := ∅

inductive ReceiveLabel where
  | snapshot (rng : PollRng)
  | take (k : ℕ) (order : IterOrder)
  | update (k : ℕ)
  | relay (label : AgentLabel)

namespace MeshTransport

/-- The claims on what was taken, in the window that starts where the watermark was. -/
def claimsFrom (c : Crates) (t : MeshTransport) (windowStart : ℕ) (taken : List Bytes) : List Claim :=
  taken.filterMap ({ t with lowWatermark := windowStart }.claimOf c)

/-- The state as its comments describe it, once the indices are claimed. -/
structure Represents (t : MeshTransport) (claimed : Finset ℕ) : Prop where
  notMem : t.lowWatermark ∉ t.claimedAhead
  within : ∀ i ∈ t.claimedAhead, t.lowWatermark < i ∧ i < t.lowWatermark + t.window
  claimed : t.claimedIndices = claimed

end MeshTransport

namespace Receiving

/-- A new transport. -/
def start (agent : Agent) (t : MeshTransport) : Receiving where
  agent
  transport := { t with lowWatermark := 0, claimedAhead := ∅ }

def step (c : Crates) (cfg : RelayConfig) (r : Receiving) : ReceiveLabel → Receiving
  | .snapshot rng =>
    { r with calls := r.calls ++ [⟨r.transport.lowWatermark, r.transport.pollSet c rng, none⟩] }
  | .take k order =>
    match r.calls[k]? with
    | some ⟨windowStart, pollSet, none⟩ =>
      let (store, taken) := r.agent.store.takeForAddresses order pollSet
      { r with
        agent := { r.agent with store }
        calls := r.calls.set k ⟨windowStart, pollSet, some taken⟩ }
    | _ => r
  | .update k =>
    match r.calls[k]? with
    | some ⟨windowStart, _, some taken⟩ =>
      let newlyClaimed := (r.transport.claimsFrom c windowStart taken).map Claim.index
      { r with
        transport := r.transport.advance newlyClaimed
        calls := r.calls.eraseIdx k
        claimed := r.claimed ∪ newlyClaimed.toFinset }
    | _ => r
  | .relay label => { r with agent := agentStep c cfg r.agent label }

/-- The update claims no index that the watermark has passed since the call read it. -/
def NoneOvertaken (c : Crates) (r : Receiving) : ReceiveLabel → Prop
  | .update k => ∀ call ∈ r.calls[k]?, ∀ taken ∈ call.taken,
    ∀ claim ∈ r.transport.claimsFrom c call.windowStart taken, r.transport.lowWatermark ≤ claim.index
  | _ => True

/-- The representation holds in every state of the run, and the watermark only rises. -/
structure Sound (c : Crates) (cfg : RelayConfig) (r : Receiving) (labels : List ReceiveLabel) :
    Prop where
  represents : EveryState (step c cfg) (fun s => s.transport.Represents s.claimed) r labels
  rises : EveryStep (step c cfg)
    (fun s label => s.transport.lowWatermark ≤ (s.step c cfg label).transport.lowWatermark) r labels

/-- The windows of the running calls start at or below the watermark. -/
def Snapshots (r : Receiving) : Prop :=
  ∀ call ∈ r.calls, call.windowStart ≤ r.transport.lowWatermark

variable {c : Crates} {cfg : RelayConfig} {r : Receiving} {k : ℕ}

section Updates

lemma lowWatermark_le_step (c : Crates) (cfg : RelayConfig) (r : Receiving) (label : ReceiveLabel) :
    r.transport.lowWatermark ≤ (r.step c cfg label).transport.lowWatermark := by
  cases label with
  | update k =>
    unfold step
    dsimp only
    split
    · exact MeshTransport.lowWatermark_le_advance _ _
    · exact le_rfl
  | take k order =>
    unfold step
    dsimp only
    split <;> exact le_rfl
  | snapshot rng => exact le_rfl
  | relay label => exact le_rfl

lemma snapshots_step (r : Receiving) (label : ReceiveLabel) (h : r.Snapshots) :
    (r.step c cfg label).Snapshots := by
  have hrises := lowWatermark_le_step c cfg r label
  intro call hcall
  cases label with
  | snapshot rng =>
    rcases List.mem_append.mp hcall with hold | hnew
    · exact h call hold
    · rw [List.mem_singleton.mp hnew]
      exact le_rfl
  | take k order =>
    unfold step at hcall hrises ⊢
    dsimp only at hcall hrises ⊢
    split at hcall
    · rename_i windowStart pollSet hk
      rcases List.mem_or_eq_of_mem_set hcall with hold | rfl
      · exact h call hold
      · exact h ⟨windowStart, pollSet, none⟩ (List.mem_of_getElem? hk)
    · exact h call hcall
  | update k =>
    refine (h call ?_).trans hrises
    unfold step at hcall
    dsimp only at hcall
    split at hcall
    · exact List.mem_of_mem_eraseIdx hcall
    · exact hcall
  | relay label => exact h call hcall

/-- A claim lies in the window of its call. -/
lemma index_mem_window {t : MeshTransport} {windowStart : ℕ} {taken : List Bytes} {claim : Claim}
    (h : claim ∈ t.claimsFrom c windowStart taken) :
    windowStart ≤ claim.index ∧ claim.index < windowStart + t.window := by
  obtain ⟨bytes, -, hclaim⟩ := List.mem_filterMap.mp h
  unfold MeshTransport.claimOf at hclaim
  split at hclaim
  · cases hclaim
  · obtain ⟨offset, hfind, rfl⟩ := Option.map_eq_some_iff.mp hclaim
    obtain ⟨hlt, -⟩ := List.findIdx?_eq_some_iff_getElem.mp hfind
    simp only [MeshTransport.windowAddresses, TagKey.addressWindow, List.length_map,
      List.length_range'] at hlt
    have hend := Protocol.windowEnd_le windowStart t.window
    dsimp only
    omega

end Updates

end Receiving

namespace MeshTransport

variable {t : MeshTransport} {claimed : Finset ℕ} {newlyClaimed : List ℕ}

/-- Claiming indices of a window that starts at or below the watermark keeps the representation
exactly when the watermark has passed none of them. -/
lemma Represents.advance_iff (h : t.Represents claimed)
    (hwindow : ∀ i ∈ newlyClaimed, i < t.lowWatermark + t.window) :
    (t.advance newlyClaimed).Represents (claimed ∪ newlyClaimed.toFinset) ↔
      ∀ i ∈ newlyClaimed, t.lowWatermark ≤ i := by
  have hrises := t.lowWatermark_le_advance newlyClaimed
  constructor
  · intro hnext i hi
    by_contra hlt
    have hmem : i ∈ t.claimedAhead ∪ newlyClaimed.toFinset :=
      Finset.mem_union_right _ (List.mem_toFinset.mpr hi)
    have hstays := Frontier.mem_catchUp_of_lt (not_le.mp hlt) hmem
    have habove := (hnext.within i hstays).1
    omega
  · intro hall
    have hle : ∀ i ∈ t.claimedAhead ∪ newlyClaimed.toFinset, t.lowWatermark ≤ i := by
      intro i hi
      rcases Finset.mem_union.mp hi with hold | hnew
      · exact (h.within i hold).1.le
      · exact hall i (List.mem_toFinset.mp hnew)
    have hnotMem : (t.advance newlyClaimed).lowWatermark ∉ (t.advance newlyClaimed).claimedAhead :=
      Frontier.catchUp_notMem _ _
    refine ⟨hnotMem, ?_, ?_⟩
    · intro i hi
      have habove := Frontier.catchUp_above hle i hi
      have hne : (t.advance newlyClaimed).lowWatermark ≠ i := fun heq => hnotMem (heq ▸ hi)
      have hbound : i < t.lowWatermark + t.window := by
        rcases Finset.mem_union.mp (Frontier.catchUp_subset _ _ hi) with hold | hnew
        · exact (h.within i hold).2
        · exact hwindow i (List.mem_toFinset.mp hnew)
      have habove' : (t.advance newlyClaimed).lowWatermark ≤ i := habove
      refine ⟨by omega, ?_⟩
      change i < (t.advance newlyClaimed).lowWatermark + t.window
      omega
    · rw [advance_claimedIndices, h.claimed]
      ext i
      simp

end MeshTransport

namespace Receiving

variable {c : Crates} {cfg : RelayConfig}

lemma represents_step_iff (r : Receiving) (label : ReceiveLabel) (hsnapshots : r.Snapshots)
    (h : r.transport.Represents r.claimed) :
    (r.step c cfg label).transport.Represents (r.step c cfg label).claimed ↔
      r.NoneOvertaken c label := by
  cases label with
  | snapshot rng => exact iff_of_true h trivial
  | relay label => exact iff_of_true h trivial
  | take k order =>
    refine iff_of_true ?_ trivial
    unfold step
    dsimp only
    split <;> exact h
  | update k =>
    unfold step NoneOvertaken
    dsimp only
    split
    · rename_i windowStart pollSet taken hk
      have hstart := hsnapshots _ (List.mem_of_getElem? hk)
      have hwindow : ∀ i ∈ (r.transport.claimsFrom c windowStart taken).map Claim.index,
          i < r.transport.lowWatermark + r.transport.window := by
        intro i hi
        obtain ⟨claim, hclaim, rfl⟩ := List.mem_map.mp hi
        have hindex := index_mem_window hclaim
        dsimp only at hstart
        omega
      rw [h.advance_iff hwindow, hk]
      simp
    · rename_i hnone
      refine iff_of_true h ?_
      intro call hcall taken htaken
      obtain ⟨windowStart, pollSet, taken'⟩ := call
      rw [Option.mem_def] at hcall htaken
      cases htaken
      exact absurd hcall (hnone windowStart pollSet taken)

/-- A call whose three steps run on their own is `receive`. -/
theorem run_alone (c : Crates) (cfg : RelayConfig) (agent : Agent) (t : MeshTransport)
    (claimed : Finset ℕ) (rng : PollRng) (order : IterOrder) :
    run (step c cfg) ⟨agent, t, [], claimed⟩ [.snapshot rng, .take 0 order, .update 0] =
      ⟨{ agent with store := (t.receive c rng order agent.store).2.1 },
        (t.receive c rng order agent.store).1, [],
        claimed ∪ ((t.receive c rng order agent.store).2.2.map Claim.index).toFinset⟩ := rfl

/-- The representation of a transport survives overlapping receives exactly in the runs in which no
update claims an index that the watermark has passed since its call read it. -/
theorem sound_iff (c : Crates) (cfg : RelayConfig) (agent : Agent) (t : MeshTransport)
    (labels : List ReceiveLabel) :
    Sound c cfg (start agent t) labels ↔
      EveryStep (step c cfg) (NoneOvertaken c) (start agent t) labels := by
  have hsnapshots : (start agent t).Snapshots := by simp [Snapshots, start]
  have hstart : (start agent t).transport.Represents (start agent t).claimed := by
    refine ⟨by simp [start], by simp [start], ?_⟩
    ext i
    simp [start, MeshTransport.claimedIndices]
  have hstep : ∀ (r : Receiving) (label : ReceiveLabel), r.Snapshots →
      (r.step c cfg label).Snapshots := snapshots_step
  have hiff := everyState_iff_everyStep hstep represents_step_iff hsnapshots hstart labels
  constructor
  · intro h
    exact hiff.mp h.represents
  · intro h
    refine ⟨hiff.mpr h, ?_⟩
    exact h.mono fun r label _ => lowWatermark_le_step c cfg r label

section Overtaken

/-- Two calls read the watermark at 0. One claims bundle 0; the bundle comes back from a peer, and
the other claims it again. -/
def overtaken : List ReceiveLabel :=
  [.relay (.admitBundle 2000 (Channel.sampleBundle 0)), .snapshot samplePollRng,
    .snapshot samplePollRng, .take 0 .insertion, .update 0,
    .relay (.admitBundle 2000 (Channel.sampleBundle 0)), .take 0 .insertion, .update 0]

theorem not_sound_overtaken :
    ¬Sound localCrates {} (start {} { tagKey := Channel.sampleTagKey }) overtaken := by
  intro h
  have hwithin := h.represents.last.within 0 (by decide +kernel)
  exact absurd hwithin.1 (by decide +kernel)

end Overtaken

end Receiving

end Parda.Mesh
