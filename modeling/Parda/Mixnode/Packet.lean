import Parda.Lib.Sampling
import Parda.Mixnode.Pull

/-!
# Mix packets

Model of the client side of `protocol/src/mixnet.rs`: the address tokens, the topology
and the construction of a Sphinx packet. The crates are parameters.
-/

namespace Parda.Mixnode.Mixnet

open Protocol Sampling

def relayDestinationTag : Bytes := asciiBytes "PARDA-RELAY-V1"
def coverDestinationTag : Bytes := asciiBytes "PARDA-COVER-V1"
def pullDestinationTag : Bytes := asciiBytes "PARDA-PULL-V1"

def defaultMixPayloadSize : ℕ := 8192

def nodeAddressLength : ℕ := 32
def destinationAddressLength : ℕ := 32

/-- A length byte, the bytes and zeros up to the capacity. -/
def encodeFixed (bytes : Bytes) (capacity : ℕ) : Except PardaError Bytes :=
  if capacity - 1 < bytes.length then
    .error (.mixRouting
      s!"{bytes.length} bytes do not fit in a {capacity}-byte Sphinx address token")
  else
    .ok (UInt8.ofNat bytes.length :: bytes ++ List.replicate (capacity - 1 - bytes.length) 0)

def encodeNodeAddress (hostPort : String) : Except PardaError Bytes :=
  encodeFixed hostPort.toByteArray.data.toList nodeAddressLength

/-- The encoded tag. The identifier beside it is all zeros. -/
def taggedDestination (tag : Bytes) : Except PardaError Bytes :=
  encodeFixed tag destinationAddressLength

structure MixNodeDescriptor where
  address : String
  publicKey : Bytes32
deriving DecidableEq

structure MixTopology where
  nodes : List MixNodeDescriptor := []

def MixTopology.choosePath (draw : Draw) (topology : MixTopology) (len : ℕ) :
    Except PardaError (List MixNodeDescriptor) :=
  if len < minPathLength then
    .error (.mixRouting s!"path length {len} is below the minimum of {minPathLength}")
  else if topology.nodes.length < len then
    .error (.mixRouting
      s!"topology has {topology.nodes.length} nodes, need at least {len} for a path")
  else .ok (choose draw topology.nodes len)

/-- A hop as the packet builder takes it. -/
structure SphinxNode where
  address : Bytes
  publicKey : Bytes32
deriving DecidableEq

/-- The third-party crates: `sphinx-packet`, given a payload size, a payload, the hops,
the destination and one delay for each hop, and `serde_json` on what packets carry. -/
structure MixCrates where
  sphinxPacket : ℕ → Bytes → List SphinxNode → Bytes → List UInt64 → Except String Bytes
  envelopeToJson : MessageEnvelope → Except String Bytes
  pullRequestToJson : PullRequest → Except String Bytes

/-- What a sender draws at random: the path, and a delay for each hop around an average
in nanoseconds. -/
structure MixRng where
  draw : Draw
  delays : ℕ → ℕ → List UInt64
  length_delays : ∀ hops avgDelay, (delays hops avgDelay).length = hops

def sphinxNode (d : MixNodeDescriptor) : Except PardaError SphinxNode :=
  match encodeNodeAddress d.address with
  | .ok token => .ok ⟨token, d.publicKey⟩
  | .error e => .error e

def sphinxNodes : List MixNodeDescriptor → Except PardaError (List SphinxNode)
  | [] => .ok []
  | d :: path =>
    match sphinxNode d with
    | .error e => .error e
    | .ok node =>
      match sphinxNodes path with
      | .error e => .error e
      | .ok nodes => .ok (node :: nodes)

def buildPacketTo (c : MixCrates) (rng : MixRng) (payload : Bytes)
    (path : List MixNodeDescriptor) (avgDelay payloadSize : ℕ) (destinationTagBytes : Bytes) :
    Except PardaError Bytes :=
  if path.length < minPathLength then
    .error (.mixRouting s!"path length {path.length} is below the minimum of {minPathLength}")
  else
    match sphinxNodes path with
    | .error e => .error e
    | .ok nodes =>
      match taggedDestination destinationTagBytes with
      | .error e => .error e
      | .ok destination =>
        match c.sphinxPacket payloadSize payload nodes destination
            (rng.delays path.length avgDelay) with
        | .error e => .error (.mixRouting ("failed to build Sphinx packet: " ++ e))
        | .ok packet => .ok packet

def buildPacket (c : MixCrates) (rng : MixRng) (payload : Bytes) (path : List MixNodeDescriptor)
    (avgDelay payloadSize : ℕ) : Except PardaError Bytes :=
  buildPacketTo c rng payload path avgDelay payloadSize relayDestinationTag

/-- The address fits its token. -/
def MixNodeDescriptor.fits (d : MixNodeDescriptor) : Bool :=
  d.address.toByteArray.size < nodeAddressLength

section Tokens

lemma encodeFixed_ok_iff {bytes : Bytes} {capacity : ℕ} :
    (∃ token, encodeFixed bytes capacity = .ok token) ↔ bytes.length ≤ capacity - 1 := by
  unfold encodeFixed
  by_cases h : capacity - 1 < bytes.length
  · simp [h]
  · simp [h, not_lt.mp h]

lemma sphinxNode_ok_iff {d : MixNodeDescriptor} :
    (∃ node, sphinxNode d = .ok node) ↔ d.fits = true := by
  have hfits : (∃ token, encodeNodeAddress d.address = .ok token) ↔ d.fits = true := by
    unfold encodeNodeAddress
    rw [encodeFixed_ok_iff, MixNodeDescriptor.fits, decide_eq_true_iff]
    change d.address.toByteArray.data.toList.length ≤ 31 ↔ d.address.toByteArray.data.size < 32
    rw [Array.length_toList]
    omega
  rw [← hfits]
  unfold sphinxNode
  cases encodeNodeAddress d.address with
  | _ => simp

/-- A path encodes exactly when every address on it fits. -/
lemma sphinxNodes_ok_iff {path : List MixNodeDescriptor} :
    (∃ nodes, sphinxNodes path = .ok nodes) ↔ ∀ d ∈ path, d.fits = true := by
  induction path with
  | nil => simp [sphinxNodes]
  | cons d path ih =>
    rw [List.forall_mem_cons, ← sphinxNode_ok_iff, ← ih, sphinxNodes]
    cases sphinxNode d with
    | error e => simp
    | ok node =>
      cases sphinxNodes path with
      | _ => simp

lemma length_sphinxNodes {path : List MixNodeDescriptor} {nodes : List SphinxNode}
    (h : sphinxNodes path = .ok nodes) : nodes.length = path.length := by
  induction path generalizing nodes with
  | nil =>
    cases h
    rfl
  | cons d path ih =>
    rw [sphinxNodes] at h
    cases hnode : sphinxNode d with
    | error e => simp [hnode] at h
    | ok node =>
      cases hnodes : sphinxNodes path with
      | error e => simp [hnode, hnodes] at h
      | ok rest =>
        simp only [hnode, hnodes, Except.ok.injEq] at h
        rw [← h, List.length_cons, List.length_cons, ih hnodes]

end Tokens

section Build

variable {c : MixCrates} {rng : MixRng} {payload : Bytes} {path : List MixNodeDescriptor}
  {avgDelay payloadSize : ℕ} {tag : Bytes}

/-- A packet is only built for a path that is long enough and fits its tokens. -/
lemma buildPacketTo_cases {packet : Bytes}
    (h : buildPacketTo c rng payload path avgDelay payloadSize tag = .ok packet) :
    minPathLength ≤ path.length ∧ ∀ d ∈ path, d.fits = true := by
  unfold buildPacketTo at h
  by_cases hshort : path.length < minPathLength
  · simp [hshort] at h
  rw [if_neg hshort] at h
  refine ⟨not_lt.mp hshort, ?_⟩
  cases hnodes : sphinxNodes path with
  | error e => simp [hnodes] at h
  | ok nodes => exact sphinxNodes_ok_iff.mp ⟨nodes, hnodes⟩

/-- The packet builder makes a packet of the default size for three hops and a short
payload. -/
def MixCrates.BuildsThreeHops (c : MixCrates) : Prop :=
  ∀ payload nodes destination delays, payload.length ≤ 1024 → nodes.length = 3 →
    destination.length = destinationAddressLength → delays.length = 3 →
    ∃ packet, c.sphinxPacket defaultMixPayloadSize payload nodes destination delays = .ok packet

lemma length_encodeFixed {bytes token : Bytes} {capacity : ℕ} (hcapacity : 0 < capacity)
    (h : encodeFixed bytes capacity = .ok token) : token.length = capacity := by
  unfold encodeFixed at h
  by_cases hlong : capacity - 1 < bytes.length
  · simp [hlong] at h
  · rw [if_neg hlong, Except.ok.injEq] at h
    rw [← h]
    simp only [List.cons_append, List.length_cons, List.length_append, List.length_replicate]
    omega

/-- A path of three fitting hops gets a packet. -/
lemma exists_buildPacketTo (hbuilds : c.BuildsThreeHops) (hpayload : payload.length ≤ 1024)
    (hpath : path.length = 3) (hfits : ∀ d ∈ path, d.fits = true)
    (htag : tag.length < destinationAddressLength) :
    ∃ packet, buildPacketTo c rng payload path avgDelay defaultMixPayloadSize tag = .ok packet := by
  obtain ⟨nodes, hnodes⟩ := sphinxNodes_ok_iff.mpr hfits
  obtain ⟨destination, hdestination⟩ := encodeFixed_ok_iff.mpr (Nat.le_sub_one_of_lt htag)
  have hlength := length_encodeFixed (by decide) hdestination
  obtain ⟨packet, hpacket⟩ := hbuilds payload nodes destination (rng.delays path.length avgDelay)
    hpayload ((length_sphinxNodes hnodes).trans hpath) hlength
    ((rng.length_delays _ _).trans hpath)
  refine ⟨packet, ?_⟩
  have hshort : ¬path.length < minPathLength := by
    rw [hpath]
    decide
  unfold buildPacketTo taggedDestination
  simp only [hshort, if_false, hnodes, hdestination, hpacket]

end Build

end Parda.Mixnode.Mixnet
