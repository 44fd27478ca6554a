import Parda.Lib.Frontier
import Parda.Mesh.Accounting

/-!
# The mesh transport

Model of `MeshTransport` of `mesh/src/transport.rs` over one relay store. Only the
transport itself touches its counters, so a call is one step: between reading the
watermark and updating it, the relay matters at the single `take_for_addresses`. A
receive also reports the bundle and the index behind every envelope it returns.
-/

namespace Parda.Mesh

open Protocol

def MeshError.display : MeshError → String
  | .link message => "link error: " ++ message
  | .bundleCodec message => "bundle codec error: " ++ message
  | .relayRefused message => "relay refused bundle: " ++ message

def defaultAddressWindow : ℕ := 8
def defaultDecoysPerReal : ℕ := 7

structure MeshTransport where
  tagKey : TagKey
  sendCounter : ℕ := 0
  lowWatermark : ℕ := 0
  claimedAhead : Finset ℕ := ∅
  window : ℕ := defaultAddressWindow
  decoysPerReal : ℕ := defaultDecoysPerReal

/-- A bundle a receive claimed, with its index and the envelope returned for it. -/
structure Claim where
  bytes : Bytes
  index : ℕ
  envelope : MessageEnvelope
deriving DecidableEq

/-- A bundle that a side's own send admitted, with the counter it was composed at. -/
structure SentBundle where
  index : ℕ
  bytes : Bytes
  envelope : MessageEnvelope
deriving DecidableEq

namespace MeshTransport

/-- An envelope addressed as the caller of `next_send_address` addresses it when the
counter is `k`. -/
def composeAt (c : Crates) (t : MeshTransport) (k : ℕ) (envelope : MessageEnvelope) :
    MessageEnvelope :=
  { envelope with deadDropAddress := some (t.tagKey.addressFor c k) }

def nextSendAddress (c : Crates) (t : MeshTransport) : Address :=
  t.tagKey.addressFor c t.sendCounter

def refusesIdentity : PardaError := .transport
  "MeshTransport::send refuses an envelope that isn't sealed_sender=true with empty sender_id/recipient_id — a mesh carrier would otherwise learn identity metadata the blinded address exists specifically to avoid leaking; see docs/phase4-4c-dead-drop-addressing-design.md"

def requiresAddress : PardaError := .transport
  "MeshTransport::send requires envelope.dead_drop_address to be set (see MeshTransport::next_send_address)"

/-- `send`, with the clock readings of `wrap` and of the admission. -/
def send (c : Crates) (cfg : RelayConfig) (wrapMs admitMs : UInt64) (t : MeshTransport)
    (s : RelayStore) (envelope : MessageEnvelope) : Except PardaError (MeshTransport × RelayStore) :=
  if !envelope.sealedSender || !envelope.senderId.isEmpty || !envelope.recipientId.isEmpty then
    .error refusesIdentity
  else
    match envelope.deadDropAddress with
    | none => .error requiresAddress
    | some address =>
      match wrap c wrapMs envelope address with
      | .error e => .error (.transport ("mesh bundle framing failed: " ++ e.display))
      | .ok bytes =>
        match s.admitBundle c cfg admitMs bytes with
        | .error e =>
          .error (.transport ("local relay refused own outgoing bundle: " ++ e.display))
        | .ok s' => .ok ({ t with sendCounter := t.sendCounter + 1 }, s')

def windowAddresses (c : Crates) (t : MeshTransport) : List Address :=
  t.tagKey.addressWindow c t.lowWatermark t.window

def pollSet (c : Crates) (t : MeshTransport) (rng : PollRng) : List Address :=
  buildPollSet c t.tagKey t.lowWatermark t.window t.decoysPerReal rng

/-- The claim a taken bundle gives rise to: none when it is malformed or matched only a
decoy. -/
def claimOf (c : Crates) (t : MeshTransport) (bytes : Bytes) : Option Claim :=
  match unwrap c bytes with
  | .error _ => none
  | .ok (address, envelope) =>
    ((t.windowAddresses c).findIdx? (fun a => a == address)).map
      (fun offset => ⟨bytes, t.lowWatermark + offset, envelope⟩)

def claims (c : Crates) (rng : PollRng) (order : IterOrder) (t : MeshTransport) (s : RelayStore) :
    List Claim :=
  (s.takeForAddresses order (t.pollSet c rng)).2.filterMap (t.claimOf c)

/-- The receive state after claiming a list of indices. -/
def advance (t : MeshTransport) (newlyClaimed : List ℕ) : MeshTransport :=
  let state := Frontier.catchUp t.lowWatermark (t.claimedAhead ∪ newlyClaimed.toFinset)
  { t with lowWatermark := state.1, claimedAhead := state.2 }

def receive (c : Crates) (rng : PollRng) (order : IterOrder) (t : MeshTransport) (s : RelayStore) :
    MeshTransport × RelayStore × List Claim :=
  let claimed := t.claims c rng order s
  (t.advance (claimed.map Claim.index), (s.takeForAddresses order (t.pollSet c rng)).1, claimed)

/-- The end of the polled window. -/
def windowEnd (t : MeshTransport) : ℕ := Protocol.windowEnd t.lowWatermark t.window

/-- The indices claimed so far. -/
def claimedIndices (t : MeshTransport) : Set ℕ :=
  Frontier.claimed t.lowWatermark t.claimedAhead

section Send

variable {c : Crates} {cfg : RelayConfig} {wrapMs admitMs : UInt64} {t t' : MeshTransport}
  {s s' : RelayStore} {envelope : MessageEnvelope}

/-- Everything an accepted send did. -/
lemma send_cases (h : t.send c cfg wrapMs admitMs s envelope = .ok (t', s')) :
    ∃ address bytes, envelope.deadDropAddress = some address ∧
      wrap c wrapMs envelope address = .ok bytes ∧
      s.admitChecked c cfg admitMs bytes none = .ok s' ∧
      t' = { t with sendCounter := t.sendCounter + 1 } := by
  unfold send at h
  by_cases hid : (!envelope.sealedSender || !envelope.senderId.isEmpty ||
      !envelope.recipientId.isEmpty) = true
  · rw [if_pos hid] at h
    cases h
  rw [if_neg hid] at h
  cases haddr : envelope.deadDropAddress with
  | none => simp [haddr] at h
  | some address =>
    simp only [haddr] at h
    cases hwrap : wrap c wrapMs envelope address with
    | error e => simp [hwrap] at h
    | ok bytes =>
      simp only [hwrap] at h
      cases had : s.admitBundle c cfg admitMs bytes with
      | error e => simp [had] at h
      | ok s'' =>
        simp only [had, Except.ok.injEq, Prod.mk.injEq] at h
        obtain ⟨rfl, rfl⟩ := h
        exact ⟨address, bytes, rfl, hwrap, had, rfl⟩

/-- An accepted send of an envelope composed at `k` admitted a bundle framed for the
address of `k`. -/
lemma send_composeAt (hframe : FramingLaws c) {k : ℕ} {bytes : Bytes}
    (h : t.send c cfg wrapMs admitMs s (t.composeAt c k envelope) = .ok (t', s'))
    (hwrap : wrap c wrapMs (t.composeAt c k envelope) (t.tagKey.addressFor c k) = .ok bytes) :
    s.admitChecked c cfg admitMs bytes none = .ok s' ∧
      unwrap c bytes = .ok (t.tagKey.addressFor c k, t.composeAt c k envelope) ∧
      t' = { t with sendCounter := t.sendCounter + 1 } := by
  obtain ⟨address, bytes', haddr, hwrap', had, rfl⟩ := send_cases h
  obtain rfl : t.tagKey.addressFor c k = address := by simpa [composeAt] using haddr
  rw [hwrap] at hwrap'
  cases hwrap'
  exact ⟨had, unwrap_of_wrap hframe hwrap, rfl⟩

end Send

section Receive

variable {c : Crates} {rng : PollRng} {order : IterOrder} {t : MeshTransport} {s : RelayStore}

lemma claimOf_bytes {bytes : Bytes} {claim : Claim} (h : t.claimOf c bytes = some claim) :
    claim.bytes = bytes := by
  unfold claimOf at h
  cases hun : unwrap c bytes with
  | error e => simp [hun] at h
  | ok p =>
    simp only [hun, Option.map_eq_some_iff] at h
    obtain ⟨offset, -, rfl⟩ := h
    rfl

/-- Every envelope a receive returns comes from a bundle it took. -/
lemma bytes_mem_of_mem_claims {claim : Claim} (h : claim ∈ t.claims c rng order s) :
    claim.bytes ∈ (s.takeForAddresses order (t.pollSet c rng)).2 := by
  unfold claims at h
  obtain ⟨bytes, hmem, hclaim⟩ := List.mem_filterMap.mp h
  rwa [claimOf_bytes hclaim]

lemma claimOf_eq_some (h : DistinctAddresses c t.tagKey) {bytes : Bytes} {claim : Claim} :
    t.claimOf c bytes = some claim ↔
      claim.bytes = bytes ∧ t.lowWatermark ≤ claim.index ∧ claim.index < t.windowEnd ∧
        unwrap c bytes = .ok (t.tagKey.addressFor c claim.index, claim.envelope) := by
  unfold claimOf
  cases hun : unwrap c bytes with
  | error e => simp
  | ok p =>
    obtain ⟨address, envelope⟩ := p
    simp only [Option.map_eq_some_iff]
    constructor
    · rintro ⟨offset, hfind, rfl⟩
      obtain ⟨hlt, heq, -⟩ := List.findIdx?_eq_some_iff_getElem.mp hfind
      simp only [windowAddresses, TagKey.addressWindow, List.length_map, List.length_range'] at hlt
      simp only [windowAddresses, TagKey.addressWindow, List.getElem_map, List.getElem_range',
        beq_iff_eq, one_mul] at heq
      refine ⟨rfl, Nat.le_add_right _ _, ?_, by rw [heq]⟩
      change t.lowWatermark + offset < t.windowEnd
      unfold windowEnd
      omega
    · rintro ⟨rfl, hle, hlt, heq⟩
      obtain ⟨rfl, rfl⟩ : address = t.tagKey.addressFor c claim.index ∧
          envelope = claim.envelope := by simpa using heq
      refine ⟨claim.index - t.lowWatermark, addressWindow_idxOf h hle hlt, ?_⟩
      have hidx : t.lowWatermark + (claim.index - t.lowWatermark) = claim.index := by omega
      rw [hidx]

/-- The address of a window index is polled for. -/
lemma addressFor_mem_pollSet {n : ℕ} (hle : t.lowWatermark ≤ n) (hlt : n < t.windowEnd) :
    t.tagKey.addressFor c n ∈ t.pollSet c rng :=
  addressWindow_subset_pollSet c _ _ _ _ rng (mem_addressWindow.mpr ⟨n, hle, hlt, rfl⟩)

/-- The stored address of a bundle is the one it unwraps to. -/
lemma address_eq_of_unwrap {b : StoredBundle} (hdec : RelayStore.Decoded c b) {address : Address}
    {envelope : MessageEnvelope} (h : unwrap c b.bytes = .ok (address, envelope)) :
    b.address = address := by
  obtain ⟨bundle, hb, ha⟩ := destinationAddress_of_unwrap h
  obtain ⟨bundle', hb', ha'⟩ := hdec.address
  rw [hb] at hb'
  cases hb'
  rw [ha] at ha'
  exact (Except.ok.inj ha').symm

/-- A receive claims exactly the stored bundles that unwrap to an address of the window. -/
theorem mem_claims (h : DistinctAddresses c t.tagKey)
    (hdec : ∀ k b, s.byHash.lookup k = some b → RelayStore.Decoded c b) {claim : Claim} :
    claim ∈ t.claims c rng order s ↔
      s.Holds claim.bytes ∧ t.lowWatermark ≤ claim.index ∧ claim.index < t.windowEnd ∧
        unwrap c claim.bytes = .ok (t.tagKey.addressFor c claim.index, claim.envelope) := by
  unfold claims
  rw [List.mem_filterMap]
  constructor
  · rintro ⟨bytes, hmem, hclaim⟩
    obtain ⟨rfl, hle, hlt, hun⟩ := (claimOf_eq_some h).mp hclaim
    obtain ⟨k, b, hb, hbytes, -⟩ := RelayStore.mem_taken.mp hmem
    exact ⟨⟨k, b, hb, hbytes⟩, hle, hlt, hun⟩
  · rintro ⟨⟨k, b, hb, hbytes⟩, hle, hlt, hun⟩
    refine ⟨claim.bytes, RelayStore.mem_taken.mpr ⟨k, b, hb, hbytes, ?_⟩,
      (claimOf_eq_some h).mpr ⟨rfl, hle, hlt, hun⟩⟩
    rw [← hbytes] at hun
    rw [address_eq_of_unwrap (hdec k b hb) hun]
    exact addressFor_mem_pollSet hle hlt

/-- A bundle that is stored survives a receive exactly when its address is not polled
for. -/
lemma holds_receive_iff (hdec : ∀ k b, s.byHash.lookup k = some b → RelayStore.Decoded c b)
    {bytes : Bytes} {address : Address} {envelope : MessageEnvelope}
    (hun : unwrap c bytes = .ok (address, envelope)) (hstored : s.Holds bytes) :
    (t.receive c rng order s).2.1.Holds bytes ↔ address ∉ t.pollSet c rng := by
  change (s.takeForAddresses order (t.pollSet c rng)).1.Holds bytes ↔ _
  constructor
  · rintro ⟨k, b, hb, rfl⟩
    obtain ⟨hb, hnot⟩ := RelayStore.lookup_takeForAddresses.mp hb
    rwa [address_eq_of_unwrap (hdec k b hb) hun] at hnot
  · intro hnot
    obtain ⟨k, b, hb, rfl⟩ := hstored
    refine ⟨k, b, RelayStore.lookup_takeForAddresses.mpr ⟨hb, ?_⟩, rfl⟩
    rwa [address_eq_of_unwrap (hdec k b hb) hun]

/-- The address of a counter is polled for exactly when the counter, which wraps at
`u64::MAX`, is in the window, or a decoy hits it. -/
lemma addressFor_mem_pollSet_iff (h : DistinctAddresses c t.tagKey) (rng : PollRng) (n : ℕ) :
    t.tagKey.addressFor c n ∈ t.pollSet c rng ↔
      (t.lowWatermark ≤ n % 2 ^ 64 ∧ n % 2 ^ 64 < t.windowEnd) ∨
      t.tagKey.addressFor c n ∈ rng.decoys t.window t.decoysPerReal := by
  unfold pollSet
  rw [mem_buildPollSet, mem_addressWindow]
  refine or_congr ?_ Iff.rfl
  have hend := windowEnd_lt t.lowWatermark t.window
  constructor
  · rintro ⟨m, hle, hlt, heq⟩
    rw [← addressFor_mod n] at heq
    have hmn := h m (n % 2 ^ 64) (by omega) (Nat.mod_lt _ (by decide)) heq
    rw [← hmn]
    exact ⟨hle, hlt⟩
  · rintro ⟨hle, hlt⟩
    exact ⟨n % 2 ^ 64, hle, hlt, addressFor_mod n⟩

lemma taken_nodup (hkeyed : ∀ k b, s.byHash.lookup k = some b → k = hashBundle c b.bytes)
    (addresses : List Address) : (s.takeForAddresses order addresses).2.Nodup := by
  unfold RelayStore.takeForAddresses
  rw [RelayStore.removeAll_taken RelayStore.matching_nodup]
  refine RelayStore.matching_nodup.filterMap ?_
  intro k k' bytes hk hk'
  obtain ⟨b, hb, rfl⟩ := Option.map_eq_some_iff.mp hk
  obtain ⟨b', hb', heq⟩ := Option.map_eq_some_iff.mp hk'
  rw [hkeyed k b hb, hkeyed k' b' hb', heq]

/-- No bundle is claimed twice by one receive. -/
lemma claims_nodup (hkeyed : ∀ k b, s.byHash.lookup k = some b → k = hashBundle c b.bytes) :
    ((t.claims c rng order s).map Claim.bytes).Nodup := by
  have hsub : ((t.claims c rng order s).map Claim.bytes).Sublist
      (s.takeForAddresses order (t.pollSet c rng)).2 := by
    unfold claims
    induction (s.takeForAddresses order (t.pollSet c rng)).2 with
    | nil => exact List.Sublist.refl _
    | cons bytes taken ih =>
      rw [List.filterMap_cons]
      cases hclaim : t.claimOf c bytes with
      | none => exact ih.cons _
      | some claim =>
        rw [List.map_cons, claimOf_bytes hclaim]
        exact ih.cons_cons _
  exact (taken_nodup hkeyed _).sublist hsub

end Receive

section Advance

variable (t : MeshTransport) (newlyClaimed : List ℕ)

lemma claimed_newlyClaimed :
    Frontier.claimed t.lowWatermark (t.claimedAhead ∪ newlyClaimed.toFinset) =
      t.claimedIndices ∪ {n | n ∈ newlyClaimed} := by
  rw [Frontier.claimed_union]
  unfold claimedIndices
  congr 1
  ext n
  simp

/-- Claiming indices adds them to the claimed set. -/
lemma advance_claimedIndices :
    (t.advance newlyClaimed).claimedIndices = t.claimedIndices ∪ {n | n ∈ newlyClaimed} := by
  rw [← claimed_newlyClaimed]
  exact Frontier.claimed_catchUp _ _

lemma lowWatermark_le_advance : t.lowWatermark ≤ (t.advance newlyClaimed).lowWatermark :=
  Frontier.le_catchUp _ _

/-- After a receive the watermark is the lowest index not claimed. -/
theorem advance_lowWatermark :
    (t.advance newlyClaimed).lowWatermark =
      Frontier.frontier (t.claimedIndices ∪ {n | n ∈ newlyClaimed}) := by
  rw [← claimed_newlyClaimed]
  exact Frontier.catchUp_fst_eq_frontier _ _

end Advance

end MeshTransport

end Parda.Mesh
