import Parda.Mesh.LocalCrates
import Parda.Mixnode.Packet

/-!
# The paths of mix packets

The places that choose a path: `MixTransport` of `protocol/src/transport.rs`, up to the
packet it posts, and the two cover loops of `mixnode/src/cover_traffic.rs`, one round
each. A choice picks distinct positions of a list, so whether it picks distinct nodes is
up to the list.
-/

namespace Parda.Mixnode.Mixnet

open Protocol Sampling

def defaultAvgDelay : ℕ := 200 * 1000000

structure MixTransport where
  topology : MixTopology
  pathLength : ℕ := minPathLength
  avgDelay : ℕ := defaultAvgDelay
  payloadSize : ℕ := defaultMixPayloadSize
  relayBaseUrl : String

/-- A packet and the path it was built for. It is posted to the first hop. -/
structure Posted where
  path : List MixNodeDescriptor
  packetBytes : Bytes

namespace MixTransport

def send (c : MixCrates) (rng : MixRng) (t : MixTransport) (envelope : MessageEnvelope) :
    Except PardaError Posted :=
  match t.topology.choosePath rng.draw t.pathLength with
  | .error e => .error e
  | .ok path =>
    match c.envelopeToJson envelope with
    | .error e => .error (.codec e)
    | .ok envelopeBytes =>
      match buildPacket c rng envelopeBytes path t.avgDelay t.payloadSize with
      | .error e => .error e
      | .ok packet => .ok ⟨path, packet⟩

/-- The first leg of `receive`. -/
def receive (c : MixCrates) (rng : MixRng) (t : MixTransport) (request : PullRequest) :
    Except PardaError Posted :=
  match c.pullRequestToJson request with
  | .error e => .error (.codec e)
  | .ok requestBytes =>
    match t.topology.choosePath rng.draw t.pathLength with
    | .error e => .error e
    | .ok path =>
      match buildPacketTo c rng requestBytes path t.avgDelay t.payloadSize pullDestinationTag with
      | .error e => .error e
      | .ok packet => .ok ⟨path, packet⟩

end MixTransport

def coverPayloadMarker : Bytes := asciiBytes "parda-drop-cover"

/-- A round of a cover loop: nothing with too few peers, or when no packet is built. -/
def coverRound (c : MixCrates) (rng : MixRng) (peers : List MixNodeDescriptor)
    (avgInterval : ℕ) (payload destinationTagBytes : Bytes) : Option Posted :=
  if peers.length < minPathLength then none
  else
    let path := choose rng.draw peers minPathLength
    match buildPacketTo c rng payload path avgInterval defaultMixPayloadSize
        destinationTagBytes with
    | .ok packet => some ⟨path, packet⟩
    | .error _ => none

/-- A round of the loop of `spawn`. -/
def dropCover (c : MixCrates) (rng : MixRng) (peers : List MixNodeDescriptor)
    (avgInterval : ℕ) : Option Posted :=
  coverRound c rng peers avgInterval coverPayloadMarker coverDestinationTag

/-- A round of the loop of `spawn_pull_cover`, with the request it makes up. -/
def pullCover (c : MixCrates) (rng : MixRng) (peers : List MixNodeDescriptor)
    (avgInterval : ℕ) (request : PullRequest) : Option Posted :=
  match c.pullRequestToJson request with
  | .ok payload => coverRound c rng peers avgInterval payload pullDestinationTag
  | .error _ => none

/-- The nodes are pairwise distinct, both by address and by public key. -/
def DistinctNodes (nodes : List MixNodeDescriptor) : Prop :=
  nodes.Pairwise (fun d d' => d.address ≠ d'.address ∧ d.publicKey ≠ d'.publicKey)

instance decidableDistinctNodes (nodes : List MixNodeDescriptor) :
    Decidable (DistinctNodes nodes) :=
  inferInstanceAs (Decidable (nodes.Pairwise _))

/-- A packet for the path passes `k` distinct nodes. -/
def Traverses (path : List MixNodeDescriptor) (k : ℕ) : Prop :=
  ∃ hops : List MixNodeDescriptor, hops.Sublist path ∧ k ≤ hops.length ∧ DistinctNodes hops

/-- Every path a transport chooses has the requested length and distinct nodes, and every
packet of the transport and of a node with the given peers passes enough of them. -/
structure PathsDistinct (c : MixCrates) (t : MixTransport) (peers : List MixNodeDescriptor) :
    Prop where
  chosen : ∀ draw path, t.topology.choosePath draw t.pathLength = .ok path →
    path.length = t.pathLength ∧ DistinctNodes path
  sent : ∀ rng envelope p, t.send c rng envelope = .ok p → Traverses p.path minPathLength
  pulled : ∀ rng request p, t.receive c rng request = .ok p → Traverses p.path minPathLength
  cover : ∀ rng avgInterval p, dropCover c rng peers avgInterval = some p →
    Traverses p.path minPathLength
  pullCover : ∀ rng avgInterval request p, pullCover c rng peers avgInterval request = some p →
    Traverses p.path minPathLength

section Choice

variable {c : MixCrates} {rng : MixRng} {t : MixTransport}

lemma choosePath_cases {draw : Draw} {topology : MixTopology} {len : ℕ}
    {path : List MixNodeDescriptor} (h : topology.choosePath draw len = .ok path) :
    minPathLength ≤ len ∧ len ≤ topology.nodes.length ∧ path = choose draw topology.nodes len := by
  unfold MixTopology.choosePath at h
  by_cases hshort : len < minPathLength
  · simp [hshort] at h
  by_cases hfew : topology.nodes.length < len
  · simp [hshort, hfew] at h
  · simp only [hshort, hfew, if_false, Except.ok.injEq] at h
    exact ⟨not_lt.mp hshort, not_lt.mp hfew, h.symm⟩

lemma choosePath_eq_ok {topology : MixTopology} {len : ℕ} (hlen : minPathLength ≤ len)
    (hnodes : len ≤ topology.nodes.length) (draw : Draw) :
    topology.choosePath draw len = .ok (choose draw topology.nodes len) := by
  unfold MixTopology.choosePath
  rw [if_neg (not_lt.mpr hlen), if_neg (not_lt.mpr hnodes)]

lemma distinctNodes_symm (d d' : MixNodeDescriptor)
    (h : d.address ≠ d'.address ∧ d.publicKey ≠ d'.publicKey) :
    d'.address ≠ d.address ∧ d'.publicKey ≠ d.publicKey :=
  ⟨h.1.symm, h.2.symm⟩

/-- A topology yields distinct nodes exactly when it refuses the length or lists none
twice. -/
lemma chosen_iff (topology : MixTopology) (len : ℕ) :
    (∀ draw path, topology.choosePath draw len = .ok path →
      path.length = len ∧ DistinctNodes path) ↔
      len < minPathLength ∨ topology.nodes.length < len ∨ DistinctNodes topology.nodes := by
  by_cases hlen : minPathLength ≤ len
  · by_cases hnodes : len ≤ topology.nodes.length
    · have hpair := forall_choose_pairwise_iff (fun _ => true) distinctNodes_symm
        (le_trans (by decide) hlen) hnodes
      simp only [implies_true, forall_const, List.filter_true, not_lt.mpr hnodes, false_or] at hpair
      rw [or_iff_right (not_lt.mpr hlen), or_iff_right (not_lt.mpr hnodes)]
      constructor
      · intro h
        exact hpair.mp fun draw => (h draw _ (choosePath_eq_ok hlen hnodes draw)).2
      · intro h draw path hpath
        obtain ⟨-, -, rfl⟩ := choosePath_cases hpath
        rw [length_choose]
        exact ⟨min_eq_left hnodes, hpair.mpr h draw⟩
    · refine iff_of_true (fun draw path hpath => ?_) (Or.inr (Or.inl (not_le.mp hnodes)))
      exact absurd (choosePath_cases hpath).2.1 hnodes
  · refine iff_of_true (fun draw path hpath => ?_) (Or.inl (not_le.mp hlen))
    exact absurd (choosePath_cases hpath).1 hlen

/-- The packets of a transport are built for paths its topology yields. -/
lemma send_cases {envelope : MessageEnvelope} {p : Posted} (h : t.send c rng envelope = .ok p) :
    t.topology.choosePath rng.draw t.pathLength = .ok p.path := by
  unfold MixTransport.send at h
  cases hpath : t.topology.choosePath rng.draw t.pathLength with
  | error e => simp [hpath] at h
  | ok path =>
    cases hjson : c.envelopeToJson envelope with
    | error e => simp [hpath, hjson] at h
    | ok bytes =>
      cases hbuild : buildPacket c rng bytes path t.avgDelay t.payloadSize with
      | error e => simp [hpath, hjson, hbuild] at h
      | ok packet =>
        simp only [hpath, hjson, hbuild, Except.ok.injEq] at h
        rw [← h]

lemma receive_cases {request : PullRequest} {p : Posted} (h : t.receive c rng request = .ok p) :
    t.topology.choosePath rng.draw t.pathLength = .ok p.path := by
  unfold MixTransport.receive at h
  cases hjson : c.pullRequestToJson request with
  | error e => simp [hjson] at h
  | ok bytes =>
    cases hpath : t.topology.choosePath rng.draw t.pathLength with
    | error e => simp [hjson, hpath] at h
    | ok path =>
      cases hbuild : buildPacketTo c rng bytes path t.avgDelay t.payloadSize
          pullDestinationTag with
      | error e => simp [hjson, hpath, hbuild] at h
      | ok packet =>
        simp only [hjson, hpath, hbuild, Except.ok.injEq] at h
        rw [← h]

lemma traverses_of_distinctNodes {path : List MixNodeDescriptor} {k : ℕ} (hk : k ≤ path.length)
    (h : DistinctNodes path) : Traverses path k :=
  ⟨path, List.Sublist.refl path, hk, h⟩

lemma Traverses.distinctNodes {path : List MixNodeDescriptor} {k : ℕ} (h : Traverses path k)
    (hk : path.length ≤ k) : DistinctNodes path := by
  obtain ⟨hops, hsub, hle, hdistinct⟩ := h
  rwa [hsub.eq_of_length_le (hk.trans hle)] at hdistinct

end Choice

section Cover

variable {c : MixCrates} {rng : MixRng} {peers : List MixNodeDescriptor} {avgInterval : ℕ}
  {payload tag : Bytes}

/-- Fewer than `minPathLength` peers have an address that fits, or those that do are
distinct nodes. -/
def CoverDistinct (peers : List MixNodeDescriptor) : Prop :=
  (peers.filter MixNodeDescriptor.fits).length < minPathLength ∨
    DistinctNodes (peers.filter MixNodeDescriptor.fits)

/-- With enough peers the condition is one on the choices that get a packet. -/
lemma coverDistinct_iff (hpeers : minPathLength ≤ peers.length) :
    CoverDistinct peers ↔ ∀ draw, (∀ d ∈ choose draw peers minPathLength, d.fits = true) →
      DistinctNodes (choose draw peers minPathLength) :=
  (forall_choose_pairwise_iff _ distinctNodes_symm (by decide) hpeers).symm

lemma length_path (hpeers : minPathLength ≤ peers.length) (draw : Draw) :
    (choose draw peers minPathLength).length = minPathLength := by
  rw [length_choose]
  exact min_eq_left hpeers

lemma coverRound_traverses (h : CoverDistinct peers) {p : Posted}
    (hp : coverRound c rng peers avgInterval payload tag = some p) :
    Traverses p.path minPathLength := by
  unfold coverRound at hp
  by_cases hfew : peers.length < minPathLength
  · simp [hfew] at hp
  have hpeers : minPathLength ≤ peers.length := not_lt.mp hfew
  cases hbuild : buildPacketTo c rng payload (choose rng.draw peers minPathLength) avgInterval
      defaultMixPayloadSize tag with
  | error e => simp [hfew, hbuild] at hp
  | ok packet =>
    simp only [hfew, hbuild, if_false, Option.some.injEq] at hp
    rw [← hp]
    have hfits := (buildPacketTo_cases hbuild).2
    exact traverses_of_distinctNodes (length_path hpeers _).ge
      ((coverDistinct_iff hpeers).mp h rng.draw hfits)

/-- When the rounds of the drop-cover loop pass distinct nodes, the peers are distinct. -/
lemma coverDistinct_of_dropCover (hbuilds : c.BuildsThreeHops)
    (h : ∀ rng avgInterval p, dropCover c rng peers avgInterval = some p →
      Traverses p.path minPathLength) : CoverDistinct peers := by
  by_cases hfew : peers.length < minPathLength
  · exact Or.inl (lt_of_le_of_lt (List.length_filter_le _ _) hfew)
  have hpeers : minPathLength ≤ peers.length := not_lt.mp hfew
  rw [coverDistinct_iff hpeers]
  intro draw hfits
  let rng : MixRng := ⟨draw, fun hops _ => List.replicate hops 0, fun _ _ => List.length_replicate⟩
  obtain ⟨packet, hpacket⟩ : ∃ packet, buildPacketTo c rng coverPayloadMarker
      (choose draw peers minPathLength) 0 defaultMixPayloadSize coverDestinationTag = .ok packet :=
    exists_buildPacketTo hbuilds (by decide) (length_path hpeers draw) hfits (by decide)
  have hround : dropCover c rng peers 0 = some ⟨choose draw peers minPathLength, packet⟩ := by
    unfold dropCover coverRound
    simp only [hfew, if_false, rng, hpacket]
  exact (h rng 0 _ hround).distinctNodes (length_path hpeers draw).le

end Cover

/-- A transport and a cover-sending node keep to paths of distinct nodes exactly when the
topology lists no node twice or refuses the length, and no two of the peers that get
cover packets are one node. -/
theorem pathsDistinct_iff {c : MixCrates} (hbuilds : c.BuildsThreeHops) (t : MixTransport)
    (peers : List MixNodeDescriptor) :
    PathsDistinct c t peers ↔
      (t.pathLength < minPathLength ∨ t.topology.nodes.length < t.pathLength ∨
        DistinctNodes t.topology.nodes) ∧ CoverDistinct peers := by
  constructor
  · intro h
    exact ⟨(chosen_iff _ _).mp h.chosen, coverDistinct_of_dropCover hbuilds h.cover⟩
  · rintro ⟨hnodes, hpeers⟩
    have hchosen := (chosen_iff t.topology t.pathLength).mpr hnodes
    have htransport : ∀ draw path, t.topology.choosePath draw t.pathLength = .ok path →
        Traverses path minPathLength := by
      intro draw path hpath
      obtain ⟨hlength, hdistinct⟩ := hchosen draw path hpath
      refine traverses_of_distinctNodes ?_ hdistinct
      rw [hlength]
      exact (choosePath_cases hpath).1
    constructor
    · exact hchosen
    · exact fun rng envelope p hp => htransport _ _ (send_cases hp)
    · exact fun rng request p hp => htransport _ _ (receive_cases hp)
    · exact fun rng avgInterval p hp => coverRound_traverses hpeers hp
    · intro rng avgInterval request p hp
      unfold pullCover at hp
      cases hjson : c.pullRequestToJson request with
      | error e => simp [hjson] at hp
      | ok payload =>
        rw [hjson] at hp
        exact coverRound_traverses hpeers hp

/-- The packet of a receive is one of the mix-routed pull, with the addresses of its path
for layers. -/
theorem receive_pullPacket {c : MixCrates} {rng : MixRng} {t : MixTransport} {request : PullRequest}
    {p : Posted} (h : t.receive c rng request = .ok p) :
    Mixnode.buildPacketTo request (p.path.map MixNodeDescriptor.address) =
      .ok ⟨(p.path.map MixNodeDescriptor.address).tail, request⟩ := by
  obtain ⟨hlen, hnodes, hpath⟩ := choosePath_cases (receive_cases h)
  have hlong : ¬(p.path.map MixNodeDescriptor.address).length < minPathLength := by
    rw [List.length_map, hpath, length_choose, min_eq_left hnodes]
    exact not_lt.mpr hlen
  unfold Mixnode.buildPacketTo
  rw [if_neg hlong]

section RepeatedNode

/-- A stand-in for the packet format that names the hops in the clear. -/
def localMixCrates : MixCrates where
  sphinxPacket payloadSize payload nodes destination delays :=
    if payloadSize < payload.length + 17 then .error "message too long"
    else if delays.length ≠ nodes.length then .error "one delay for each hop"
    else .ok (nodes.flatMap SphinxNode.address ++ destination ++ payload)
  envelopeToJson := Mesh.localCrates.envelopeToJson
  pullRequestToJson request := .ok (asciiBytes
    ("\x7b\"recipient_id\":\"" ++ request.recipientId ++ "\",\"rendezvous_token\":\"" ++
      request.rendezvousToken ++ "\"\x7d"))

lemma localMixCrates_buildsThreeHops : localMixCrates.BuildsThreeHops := by
  intro payload nodes destination delays hpayload hnodes hdestination hdelays
  have hfits : ¬defaultMixPayloadSize < payload.length + 17 := by
    unfold defaultMixPayloadSize
    omega
  refine ⟨nodes.flatMap SphinxNode.address ++ destination ++ payload, ?_⟩
  simp [localMixCrates, hfits, hnodes, hdelays]

def sampleNode (k : UInt8) : MixNodeDescriptor where
  address := "10.0.0." ++ toString k ++ ":9001"
  publicKey := List.Vector.replicate 32 k

/-- A list of nodes in which one is entered twice. -/
def repeatedTransport : MixTransport where
  topology := ⟨[sampleNode 1, sampleNode 1, sampleNode 2]⟩
  relayBaseUrl := "http://10.0.0.9:8080"

theorem not_pathsDistinct_repeated : ¬PathsDistinct localMixCrates repeatedTransport [] := by
  intro h
  have hpath := h.chosen .first [sampleNode 1, sampleNode 1, sampleNode 2] rfl
  exact absurd hpath.2 (by decide +kernel)

theorem pathsDistinct_iff_repeated :
    PathsDistinct localMixCrates repeatedTransport [] ↔
      (repeatedTransport.pathLength < minPathLength ∨
        repeatedTransport.topology.nodes.length < repeatedTransport.pathLength ∨
        DistinctNodes repeatedTransport.topology.nodes) ∧ CoverDistinct [] :=
  pathsDistinct_iff localMixCrates_buildsThreeHops repeatedTransport []

end RepeatedNode

end Parda.Mixnode.Mixnet
