import Parda.Lib.Utf8
import Parda.Mixnode.PathChoice

/-!
# Peeling mix packets

The node side of `protocol/src/mixnet.rs`: `process_packet` and the decoders of its
tokens. The packet format is a parameter. An ideal one gives each hop, to the holder of
its key and to no one else, what the sender embedded for it.
-/

namespace Parda.Mixnode.Mixnet

open Protocol

/-- What `sphinx-packet` recovers from one layer. -/
inductive ProcessedPacketData (Packet Payload : Type) where
  | forwardHop (nextHopPacket : Packet) (nextHopAddress : Bytes) (delay : UInt64)
  | finalHop (destination : Bytes) (payload : Payload)

/-- The third-party crates on a node: `x25519-dalek` and `sphinx-packet`, with the text
the standard library has for bytes that are not UTF-8. -/
structure NodeCrates where
  Packet : Type
  Payload : Type
  publicKey : Bytes32 → Bytes32
  fromBytes : Bytes → Except String Packet
  toBytes : Packet → Bytes
  process : Packet → Bytes32 → Except String (ProcessedPacketData Packet Payload)
  recoverPlaintext : Payload → Except String Bytes
  utf8Error : Bytes → String

def decodeFixed (buf : Bytes) : Except PardaError Bytes :=
  let len := (buf.headD 0).toNat
  if buf.length < 1 + len then
    .error (.mixRouting "corrupt Sphinx address token: declared length exceeds buffer")
  else .ok ((buf.drop 1).take len)

def decodeNodeAddress (n : NodeCrates) (addr : Bytes) : Except PardaError String :=
  match decodeFixed addr with
  | .error e => .error e
  | .ok bytes =>
    match Utf8.decode bytes with
    | some hostPort => .ok hostPort
    | none => .error (.mixRouting ("next-hop address is not valid UTF-8: " ++ n.utf8Error bytes))

def destinationTag (dest : Bytes) : Except PardaError Bytes := decodeFixed dest

inductive UnwrapOutcome where
  | forward (nextHopAddress : String) (delay : UInt64) (packetBytes : Bytes)
  | deliver (envelopeBytes : Bytes)
  | pullRequest (requestBytes : Bytes)
  | dropCover
deriving DecidableEq

def recoverPayload (n : NodeCrates) (payload : n.Payload) : Except PardaError Bytes :=
  match n.recoverPlaintext payload with
  | .error e => .error (.mixRouting ("failed to recover Sphinx payload: " ++ e))
  | .ok bytes => .ok bytes

def unrecognisedTag (tag : Bytes) : PardaError := .mixRouting
  ("final hop with unrecognised destination tag " ++ toString (tag.map UInt8.toNat) ++
    " — refusing to guess where to deliver it")

def processPacket (n : NodeCrates) (packetBytes : Bytes) (nodeSecret : Bytes32) :
    Except PardaError UnwrapOutcome :=
  match n.fromBytes packetBytes with
  | .error e => .error (.mixRouting ("malformed Sphinx packet: " ++ e))
  | .ok packet =>
    match n.process packet nodeSecret with
    | .error e => .error (.mixRouting ("failed to unwrap Sphinx packet: " ++ e))
    | .ok (.forwardHop nextHopPacket nextHopAddress delay) =>
      match decodeNodeAddress n nextHopAddress with
      | .error e => .error e
      | .ok address => .ok (.forward address delay (n.toBytes nextHopPacket))
    | .ok (.finalHop destination payload) =>
      match destinationTag destination with
      | .error e => .error e
      | .ok tag =>
        if tag = relayDestinationTag then (recoverPayload n payload).map .deliver
        else if tag = pullDestinationTag then (recoverPayload n payload).map .pullRequest
        else if tag = coverDestinationTag then .ok .dropCover
        else .error (unrecognisedTag tag)

section Tokens

/-- A token decodes to what it was encoded from. Its length byte is exact as long as the
capacity fits a byte. -/
lemma decodeFixed_of_encodeFixed {bytes token : Bytes} {capacity : ℕ} (hcapacity : capacity ≤ 256)
    (hpos : 0 < capacity) (h : encodeFixed bytes capacity = .ok token) :
    decodeFixed token = .ok bytes := by
  have hlength := length_encodeFixed hpos h
  unfold encodeFixed at h
  by_cases hlong : capacity - 1 < bytes.length
  · simp [hlong] at h
  rw [if_neg hlong, Except.ok.injEq] at h
  have hlen : (UInt8.ofNat bytes.length).toNat = bytes.length := by
    rw [UInt8.toNat_ofNat', Nat.mod_eq_of_lt (by omega)]
  unfold decodeFixed
  rw [hlength, ← h, List.cons_append, List.headD_cons, hlen]
  dsimp only
  rw [if_neg (by omega), List.drop_one, List.tail_cons, List.take_left]

lemma decodeNodeAddress_of_encode {n : NodeCrates} {hostPort : String} {token : Bytes}
    (h : encodeNodeAddress hostPort = .ok token) : decodeNodeAddress n token = .ok hostPort := by
  unfold decodeNodeAddress
  rw [decodeFixed_of_encodeFixed (by decide) (by decide) h]
  change (match Utf8.decode (Utf8.encode hostPort) with
    | some hostPort => Except.ok hostPort
    | none => _) = _
  rw [Utf8.decode_encode]

end Tokens

/-- The layers a packet still has: the hops, each with the delay embedded for it, then
the destination and the payload. Only the key of a layer peels it. -/
def Onion (n : NodeCrates) (destination payload : Bytes) :
    List (SphinxNode × UInt64) → Bytes → Prop
  | [], _ => False
  | [(node, _)], bytes =>
    ∃ packet, n.fromBytes bytes = .ok packet ∧
      (∀ secret, n.publicKey secret = node.publicKey →
        ∃ inner, n.process packet secret = .ok (.finalHop destination inner) ∧
          n.recoverPlaintext inner = .ok payload) ∧
      ∀ secret, n.publicKey secret ≠ node.publicKey → ∃ e, n.process packet secret = .error e
  | (node, delay) :: (next, delay') :: layers, bytes =>
    ∃ packet, n.fromBytes bytes = .ok packet ∧
      (∀ secret, n.publicKey secret = node.publicKey →
        ∃ inner, n.process packet secret = .ok (.forwardHop inner next.address delay) ∧
          Onion n destination payload ((next, delay') :: layers) (n.toBytes inner)) ∧
      ∀ secret, n.publicKey secret ≠ node.publicKey → ∃ e, n.process packet secret = .error e

/-- The packet format is an onion: a packet is built for every route, destination and
list of delays, and for every payload that with an overhead fits the payload size. -/
def IdealOnion (c : MixCrates) (n : NodeCrates) (overhead : ℕ) : Prop :=
  ∀ payloadSize payload nodes destination delays, nodes ≠ [] → delays.length = nodes.length →
    (∀ node ∈ nodes, node.address.length = nodeAddressLength) →
    destination.length = destinationAddressLength → payload.length + overhead ≤ payloadSize →
    ∃ packet, c.sphinxPacket payloadSize payload nodes destination delays = .ok packet ∧
      Onion n destination payload (nodes.zip delays) packet

/-- What a peel tells the node to do, without the packet it forwards. -/
inductive Leg where
  | forward (nextHopAddress : String) (delay : UInt64)
  | deliver (envelopeBytes : Bytes)
  | pullRequest (requestBytes : Bytes)
  | dropCover
deriving DecidableEq

/-- Successive peels, each of the packet the one before forwards, until there is none. -/
def peels (n : NodeCrates) : Bytes → List Bytes32 → List (Except PardaError Leg)
  | _, [] => []
  | packetBytes, secret :: secrets =>
    match processPacket n packetBytes secret with
    | .error e => [.error e]
    | .ok (.forward address delay next) => .ok (.forward address delay) :: peels n next secrets
    | .ok (.deliver envelopeBytes) => [.ok (.deliver envelopeBytes)]
    | .ok (.pullRequest requestBytes) => [.ok (.pullRequest requestBytes)]
    | .ok .dropCover => [.ok .dropCover]

/-- The outcome a tag asks for. -/
def finalLeg (tag payload : Bytes) : Except PardaError Leg :=
  if tag = relayDestinationTag then .ok (.deliver payload)
  else if tag = pullDestinationTag then .ok (.pullRequest payload)
  else if tag = coverDestinationTag then .ok .dropCover
  else .error (unrecognisedTag tag)

/-- What the holders of a path's keys are to see. -/
def legs (path : List MixNodeDescriptor) (delays : List UInt64) (tag payload : Bytes) :
    List (Except PardaError Leg) :=
  (path.tail.zip delays).map (fun hop => .ok (.forward hop.1.address hop.2)) ++
    [finalLeg tag payload]

section Peels

variable {n : NodeCrates} {destination payload tag bytes : Bytes} {secret : Bytes32}

lemma processPacket_wrongKey {layers : List (SphinxNode × UInt64)} {node : SphinxNode} {delay : UInt64}
    (h : Onion n destination payload ((node, delay) :: layers) bytes)
    (hkey : n.publicKey secret ≠ node.publicKey) : ∃ e, processPacket n bytes secret = .error e := by
  have hwrong : ∃ packet, n.fromBytes bytes = .ok packet ∧ ∃ e, n.process packet secret = .error e := by
    cases layers with
    | nil =>
      obtain ⟨packet, hpacket, -, hno⟩ := h
      exact ⟨packet, hpacket, hno secret hkey⟩
    | cons layer layers =>
      obtain ⟨packet, hpacket, -, hno⟩ := h
      exact ⟨packet, hpacket, hno secret hkey⟩
  obtain ⟨packet, hpacket, e, he⟩ := hwrong
  refine ⟨.mixRouting ("failed to unwrap Sphinx packet: " ++ e), ?_⟩
  unfold processPacket
  simp only [hpacket, he]

/-- A layer before the last tells the holder of its key the next hop and the delay. -/
lemma processPacket_forward {layers : List (SphinxNode × UInt64)} {node next : SphinxNode}
    {delay delay' : UInt64} {address : String}
    (h : Onion n destination payload ((node, delay) :: (next, delay') :: layers) bytes)
    (haddress : encodeNodeAddress address = .ok next.address)
    (hkey : n.publicKey secret = node.publicKey) :
    ∃ inner, processPacket n bytes secret = .ok (.forward address delay inner) ∧
      Onion n destination payload ((next, delay') :: layers) inner := by
  obtain ⟨packet, hpacket, hpeel, -⟩ := h
  obtain ⟨inner, hinner, honion⟩ := hpeel secret hkey
  refine ⟨n.toBytes inner, ?_, honion⟩
  unfold processPacket
  simp only [hpacket, hinner, decodeNodeAddress_of_encode haddress]

/-- The last layer gives the holder of its key the outcome of the tag. -/
lemma peels_final {node : SphinxNode} {delay : UInt64}
    (h : Onion n destination payload [(node, delay)] bytes)
    (htag : taggedDestination tag = .ok destination) (hkey : n.publicKey secret = node.publicKey)
    (secrets : List Bytes32) : peels n bytes (secret :: secrets) = [finalLeg tag payload] := by
  obtain ⟨packet, hpacket, hpeel, -⟩ := h
  obtain ⟨inner, hinner, hrecover⟩ := hpeel secret hkey
  have hdecode : destinationTag destination = .ok tag :=
    decodeFixed_of_encodeFixed (by decide) (by decide) htag
  have hprocess : processPacket n bytes secret =
      if tag = relayDestinationTag then .ok (.deliver payload)
      else if tag = pullDestinationTag then .ok (.pullRequest payload)
      else if tag = coverDestinationTag then .ok .dropCover
      else .error (unrecognisedTag tag) := by
    unfold processPacket recoverPayload
    simp only [hpacket, hinner, hdecode, hrecover, Except.map]
  unfold peels finalLeg
  rw [hprocess]
  by_cases hrelay : tag = relayDestinationTag
  · rw [if_pos hrelay, if_pos hrelay]
  rw [if_neg hrelay, if_neg hrelay]
  by_cases hpull : tag = pullDestinationTag
  · rw [if_pos hpull, if_pos hpull]
  rw [if_neg hpull, if_neg hpull]
  by_cases hcover : tag = coverDestinationTag
  · rw [if_pos hcover, if_pos hcover]
  · rw [if_neg hcover, if_neg hcover]

/-- Whoever peels, whatever the keys: the legs come in order, for as long as the keys are
the path's, and a wrong key gets an error. -/
def Follows (n : NodeCrates) (path : List MixNodeDescriptor) (expected : List (Except PardaError Leg))
    (bytes : Bytes) (secrets : List Bytes32) : Prop :=
  ((∀ p ∈ secrets.zip path, n.publicKey p.1 = p.2.publicKey) ∧
    peels n bytes secrets = expected.take secrets.length) ∨
  ∃ k secret d e, secrets[k]? = some secret ∧ path[k]? = some d ∧
    n.publicKey secret ≠ d.publicKey ∧ peels n bytes secrets = expected.take k ++ [.error e]

lemma sphinxNodes_cons {d : MixNodeDescriptor} {path : List MixNodeDescriptor}
    {nodes : List SphinxNode} (h : sphinxNodes (d :: path) = .ok nodes) :
    ∃ token rest, encodeNodeAddress d.address = .ok token ∧ sphinxNodes path = .ok rest ∧
      nodes = ⟨token, d.publicKey⟩ :: rest := by
  rw [sphinxNodes, sphinxNode] at h
  cases htoken : encodeNodeAddress d.address with
  | error e => simp [htoken] at h
  | ok token =>
    cases hrest : sphinxNodes path with
    | error e => simp [htoken, hrest] at h
    | ok rest =>
      simp only [htoken, hrest, Except.ok.injEq] at h
      exact ⟨token, rest, rfl, rfl, h.symm⟩

lemma follows_nil {path : List MixNodeDescriptor} {expected : List (Except PardaError Leg)} :
    Follows n path expected bytes [] := by
  left
  exact ⟨by simp, by simp [peels]⟩

/-- The first hop's wrong key is the first wrong key. -/
lemma follows_wrongKey {hop : SphinxNode × UInt64} {hops : List (SphinxNode × UInt64)}
    (honion : Onion n destination payload (hop :: hops) bytes) {d : MixNodeDescriptor}
    (hd : d.publicKey = hop.1.publicKey) {path : List MixNodeDescriptor}
    {expected : List (Except PardaError Leg)} {secret : Bytes32} {secrets : List Bytes32}
    (hkey : n.publicKey secret ≠ d.publicKey) :
    Follows n (d :: path) expected bytes (secret :: secrets) := by
  right
  have hne : n.publicKey secret ≠ hop.1.publicKey := by rwa [← hd]
  obtain ⟨e, he⟩ := processPacket_wrongKey honion hne
  refine ⟨0, secret, d, e, rfl, rfl, hkey, ?_⟩
  simp [peels, he]

/-- The run lemma: an onion for a path is peeled along the path. -/
lemma follows_of_onion (htag : taggedDestination tag = .ok destination)
    {d : MixNodeDescriptor} {path : List MixNodeDescriptor} {nodes : List SphinxNode}
    {delays : List UInt64} (hnodes : sphinxNodes (d :: path) = .ok nodes)
    (hdelays : delays.length = nodes.length)
    (honion : Onion n destination payload (nodes.zip delays) bytes) (secrets : List Bytes32) :
    Follows n (d :: path) (legs (d :: path) delays tag payload) bytes secrets := by
  induction path generalizing d nodes delays bytes secrets with
  | nil =>
    obtain ⟨token, rest, -, hrest, rfl⟩ := sphinxNodes_cons hnodes
    cases hrest
    obtain ⟨delay, rfl⟩ := List.length_eq_one_iff.mp hdelays
    cases secrets with
    | nil => exact follows_nil
    | cons secret secrets =>
      by_cases hkey : n.publicKey secret = d.publicKey
      · left
        refine ⟨by simpa using hkey, ?_⟩
        rw [peels_final honion htag hkey]
        simp [legs]
      · exact follows_wrongKey honion rfl hkey
  | cons next path ih =>
    obtain ⟨token, rest, -, hrest, rfl⟩ := sphinxNodes_cons hnodes
    obtain ⟨token', rest', htoken', -, hnext⟩ := sphinxNodes_cons hrest
    cases delays with
    | nil => cases hdelays
    | cons delay delays =>
      have hdelays' : delays.length = rest.length := Nat.succ.inj hdelays
      cases secrets with
      | nil => exact follows_nil
      | cons secret secrets =>
        by_cases hkey : n.publicKey secret = d.publicKey
        · subst hnext
          obtain ⟨delay', delays, rfl⟩ : ∃ delay' delays', delays = delay' :: delays' :=
            List.exists_cons_of_length_eq_add_one hdelays'
          obtain ⟨inner, hpeel, hinner⟩ := processPacket_forward honion htoken' hkey
          have hlegs : legs (d :: next :: path) (delay :: delay' :: delays) tag payload =
              .ok (.forward next.address delay) ::
                legs (next :: path) (delay' :: delays) tag payload := rfl
          have hpeels : peels n bytes (secret :: secrets) =
              .ok (.forward next.address delay) :: peels n inner secrets := by
            rw [peels, hpeel]
          rw [hlegs]
          rcases ih hrest hdelays' hinner secrets with ⟨hkeys, hrun⟩ | ⟨k, wrong, d', e, hs, hp, hne, hrun⟩
          · left
            rw [hpeels, hrun]
            exact ⟨List.forall_mem_cons.mpr ⟨hkey, hkeys⟩, rfl⟩
          · right
            rw [hpeels, hrun]
            exact ⟨k + 1, wrong, d', e, hs, hp, hne, rfl⟩
        · exact follows_wrongKey honion rfl hkey

end Peels

lemma length_legs {path : List MixNodeDescriptor} {delays : List UInt64} (tag payload : Bytes)
    (hpath : path ≠ []) (hdelays : delays.length = path.length) :
    (legs path delays tag payload).length = path.length := by
  have hpos := List.length_pos_of_ne_nil hpath
  unfold legs
  rw [List.length_append, List.length_map, List.length_zip, List.length_tail, List.length_singleton,
    hdelays]
  omega

/-- The holders of the path's keys see all the legs. -/
lemma Follows.all {n : NodeCrates} {path : List MixNodeDescriptor}
    {expected : List (Except PardaError Leg)} {bytes : Bytes} {secrets : List Bytes32}
    (h : Follows n path expected bytes secrets) (hlength : expected.length = path.length)
    (hkeys : secrets.map n.publicKey = path.map MixNodeDescriptor.publicKey) :
    peels n bytes secrets = expected := by
  rcases h with ⟨-, hrun⟩ | ⟨k, secret, d, e, hs, hp, hne, -⟩
  · have hsame : secrets.length = path.length := by simpa using congrArg List.length hkeys
    rw [hrun, hsame, ← hlength, List.take_length]
  · have hk := congrArg (fun keys => keys[k]?) hkeys
    simp only [List.getElem?_map, hs, hp, Option.map_some, Option.some.injEq] at hk
    exact absurd hk hne

lemma sphinxNodes_address {path : List MixNodeDescriptor} {nodes : List SphinxNode}
    (h : sphinxNodes path = .ok nodes) : ∀ node ∈ nodes, node.address.length = nodeAddressLength := by
  induction path generalizing nodes with
  | nil =>
    cases h
    simp
  | cons d path ih =>
    obtain ⟨token, rest, htoken, hrest, rfl⟩ := sphinxNodes_cons h
    rw [List.forall_mem_cons]
    exact ⟨length_encodeFixed (by decide) htoken, ih hrest⟩

/-- Everything that a packet that was built was built from. -/
lemma buildPacketTo_ok {c : MixCrates} {rng : MixRng} {payload : Bytes}
    {path : List MixNodeDescriptor} {avgDelay payloadSize : ℕ} {tag packet : Bytes}
    (h : buildPacketTo c rng payload path avgDelay payloadSize tag = .ok packet) :
    ∃ nodes destination, minPathLength ≤ path.length ∧ sphinxNodes path = .ok nodes ∧
      taggedDestination tag = .ok destination ∧
      c.sphinxPacket payloadSize payload nodes destination (rng.delays path.length avgDelay) =
        .ok packet := by
  unfold buildPacketTo at h
  by_cases hshort : path.length < minPathLength
  · simp [hshort] at h
  rw [if_neg hshort] at h
  cases hnodes : sphinxNodes path with
  | error e => simp [hnodes] at h
  | ok nodes =>
    cases hdestination : taggedDestination tag with
    | error e => simp [hnodes, hdestination] at h
    | ok destination =>
      simp only [hnodes, hdestination] at h
      cases hpacket : c.sphinxPacket payloadSize payload nodes destination
          (rng.delays path.length avgDelay) with
      | error e => simp [hpacket] at h
      | ok packet' =>
        rw [hpacket, Except.ok.injEq] at h
        subst h
        exact ⟨nodes, destination, not_lt.mp hshort, rfl, rfl, hpacket⟩

lemma buildPacketTo_ok_iff {c : MixCrates} {n : NodeCrates} {overhead : ℕ}
    (hideal : IdealOnion c n overhead) (rng : MixRng) {payload : Bytes}
    {path : List MixNodeDescriptor} (avgDelay : ℕ) {payloadSize : ℕ}
    (hpayload : payload.length + overhead ≤ payloadSize) {tag : Bytes} :
    (∃ packet, buildPacketTo c rng payload path avgDelay payloadSize tag = .ok packet) ↔
      minPathLength ≤ path.length ∧ (∀ d ∈ path, d.address.utf8ByteSize < nodeAddressLength) ∧
        tag.length < destinationAddressLength := by
  have hfits : ∀ d : MixNodeDescriptor, d.fits = true ↔ d.address.utf8ByteSize < nodeAddressLength :=
    fun d => decide_eq_true_iff
  constructor
  · rintro ⟨packet, hpacket⟩
    obtain ⟨nodes, destination, hlong, hnodes, hdestination, -⟩ := buildPacketTo_ok hpacket
    refine ⟨hlong, fun d hd => ?_, ?_⟩
    · rw [← hfits]
      exact sphinxNodes_ok_iff.mp ⟨nodes, hnodes⟩ d hd
    · exact Nat.lt_of_le_sub_one (by decide) (encodeFixed_ok_iff.mp ⟨destination, hdestination⟩)
  · rintro ⟨hlong, haddresses, htag⟩
    obtain ⟨nodes, hnodes⟩ := sphinxNodes_ok_iff.mpr fun d hd => (hfits d).mpr (haddresses d hd)
    obtain ⟨destination, hdestination⟩ := encodeFixed_ok_iff.mpr (Nat.le_sub_one_of_lt htag)
    have hlength := length_sphinxNodes hnodes
    have hne : nodes ≠ [] := by
      rintro rfl
      rw [← hlength] at hlong
      cases hlong
    obtain ⟨packet, hpacket, -⟩ := hideal payloadSize payload nodes destination
      (rng.delays path.length avgDelay) hne ((rng.length_delays _ _).trans hlength.symm)
      (sphinxNodes_address hnodes) (length_encodeFixed (by decide) hdestination) hpayload
    refine ⟨packet, ?_⟩
    unfold buildPacketTo taggedDestination
    simp only [not_lt.mpr hlong, if_false, hnodes, hdestination, hpacket]

/-- Over an ideal onion a packet is built exactly for a path that is long enough, with
addresses and a tag that fit their tokens, and the nodes that peel it are told the rest
of the path and its delays in order and then the one outcome of the tag. Peels with other
keys follow the path until the first wrong key, which gets an error. -/
theorem peels_buildPacketTo {c : MixCrates} {n : NodeCrates} {overhead : ℕ}
    (hideal : IdealOnion c n overhead) (rng : MixRng) (payload : Bytes)
    (path : List MixNodeDescriptor) (avgDelay payloadSize : ℕ)
    (hpayload : payload.length + overhead ≤ payloadSize) (tag : Bytes) :
    ((∃ packet, buildPacketTo c rng payload path avgDelay payloadSize tag = .ok packet) ↔
      minPathLength ≤ path.length ∧ (∀ d ∈ path, d.address.utf8ByteSize < nodeAddressLength) ∧
        tag.length < destinationAddressLength) ∧
    ∀ packet, buildPacketTo c rng payload path avgDelay payloadSize tag = .ok packet →
      let expected := legs path (rng.delays path.length avgDelay) tag payload
      (∀ secrets, secrets.map n.publicKey = path.map MixNodeDescriptor.publicKey →
        peels n packet secrets = expected) ∧
      ∀ secrets, Follows n path expected packet secrets := by
  constructor
  · exact buildPacketTo_ok_iff hideal rng avgDelay hpayload
  · intro packet hpacket
    obtain ⟨nodes, destination, hlong, hnodes, hdestination, hbuild⟩ := buildPacketTo_ok hpacket
    have hlength := length_sphinxNodes hnodes
    have hdelays : (rng.delays path.length avgDelay).length = nodes.length :=
      (rng.length_delays _ _).trans hlength.symm
    cases path with
    | nil => cases hlong
    | cons d path =>
      have hne : nodes ≠ [] := by
        rintro rfl
        cases hlength
      obtain ⟨packet', hpacket', honion⟩ := hideal payloadSize payload nodes destination
        (rng.delays (d :: path).length avgDelay) hne hdelays
        (sphinxNodes_address hnodes) (length_encodeFixed (by decide) hdestination) hpayload
      rw [hbuild, Except.ok.injEq] at hpacket'
      subst hpacket'
      have hfollows := follows_of_onion hdestination hnodes hdelays honion
      refine ⟨fun secrets hkeys => ?_, hfollows⟩
      exact (hfollows secrets).all
        (length_legs _ _ (List.cons_ne_nil _ _) (rng.length_delays _ _)) hkeys

/-- The hops that the legs of a pull name are the layers of the pull packet. -/
theorem legs_pullPacket (path : List MixNodeDescriptor) (delays : List UInt64) (payload : Bytes)
    (request : PullRequest) (hpath : minPathLength ≤ path.length) :
    ∃ packet, Mixnode.buildPacketTo request (path.map MixNodeDescriptor.address) = .ok packet ∧
      legs path delays pullDestinationTag payload =
        (packet.nextHops.zip delays).map (fun hop => .ok (.forward hop.1 hop.2)) ++
          [.ok (.pullRequest payload)] := by
  have hlong : ¬(path.map MixNodeDescriptor.address).length < minPathLength := by
    rw [List.length_map]
    exact not_lt.mpr hpath
  refine ⟨⟨(path.map MixNodeDescriptor.address).tail, request⟩, ?_, ?_⟩
  · unfold Mixnode.buildPacketTo
    rw [if_neg hlong]
  · unfold legs
    rw [← List.map_tail, List.zip_map_left, List.map_map]
    rfl

section ClearOnion

open Mesh.LocalCrates

/-- The layers of the stand-in format: a key, an address and a delay each. -/
abbrev ClearLayers := List (Bytes32 × Bytes × UInt64)

def clearCodec : PrefixCodec (ClearLayers × Bytes × Bytes) :=
  (bytes32Codec.prod (byteCodec.list.prod wordCodec)).list.prod (byteCodec.list.prod byteCodec.list)

def clearLayers (nodes : List (SphinxNode × UInt64)) : ClearLayers :=
  nodes.map (fun hop => (hop.1.publicKey, hop.1.address, hop.2))

/-- A stand-in for the packet format that writes the layers in the clear. -/
def clearMixCrates : MixCrates := { localMixCrates with
  sphinxPacket := fun payloadSize payload nodes destination delays =>
    if payloadSize < payload.length + 17 then .error "message too long"
    else .ok (clearCodec.encode (clearLayers (nodes.zip delays), destination, payload)) }

def clearNodeCrates : NodeCrates where
  Packet := ClearLayers × Bytes × Bytes
  Payload := Bytes
  publicKey secret := secret
  fromBytes := decodeWhole clearCodec
  toBytes := clearCodec.encode
  process packet secret :=
    match packet.1 with
    | [] => .error "no layer left"
    | (key, _, delay) :: layers =>
      if secret ≠ key then .error "header integrity check failed"
      else
        match layers with
        | [] => .ok (.finalHop packet.2.1 packet.2.2)
        | (_, address, _) :: _ => .ok (.forwardHop (layers, packet.2) address delay)
  recoverPlaintext payload := .ok payload
  utf8Error _ := "invalid utf-8 sequence"

lemma onion_clear (destination payload : Bytes) {hops : List (SphinxNode × UInt64)} (h : hops ≠ []) :
    Onion clearNodeCrates destination payload hops
      (clearCodec.encode (clearLayers hops, destination, payload)) := by
  induction hops with
  | nil => exact absurd rfl h
  | cons hop hops ih =>
    obtain ⟨node, delay⟩ := hop
    cases hops with
    | nil =>
      refine ⟨_, decodeWhole_encode clearCodec _, ?_, ?_⟩
      · rintro secret rfl
        exact ⟨payload, by simp [clearNodeCrates, clearLayers], rfl⟩
      · intro secret hkey
        exact ⟨_, if_pos hkey⟩
    | cons next hops =>
      refine ⟨_, decodeWhole_encode clearCodec _, ?_, ?_⟩
      · rintro secret rfl
        exact ⟨(clearLayers (next :: hops), destination, payload),
          by simp [clearNodeCrates, clearLayers], ih (List.cons_ne_nil _ _)⟩
      · intro secret hkey
        exact ⟨_, if_pos hkey⟩

lemma idealOnion_clear : IdealOnion clearMixCrates clearNodeCrates 17 := by
  intro payloadSize payload nodes destination delays hnodes hdelays _ _ hpayload
  have hhops : nodes.zip delays ≠ [] := by
    rw [← List.length_pos_iff, List.length_zip, hdelays, min_self]
    exact List.length_pos_of_ne_nil hnodes
  exact ⟨_, if_neg (not_lt.mpr hpayload), onion_clear destination payload hhops⟩

def sampleRng : MixRng where
  draw := .first
  delays hops avgDelay := List.replicate hops (UInt64.ofNat avgDelay)
  length_delays _ _ := List.length_replicate

/-- A payload for the relay over three hops. -/
theorem peels_buildPacketTo_threeHops :
    ∃ packet, buildPacketTo clearMixCrates sampleRng [1, 2, 3] [sampleNode 1, sampleNode 2, sampleNode 3]
        defaultAvgDelay defaultMixPayloadSize relayDestinationTag = .ok packet ∧
      peels clearNodeCrates packet [List.Vector.replicate 32 1, List.Vector.replicate 32 2,
          List.Vector.replicate 32 3] =
        [.ok (.forward "10.0.0.2:9001" 200000000), .ok (.forward "10.0.0.3:9001" 200000000),
          .ok (.deliver [1, 2, 3])] := by
  obtain ⟨hbuilds, hpeels⟩ := peels_buildPacketTo idealOnion_clear sampleRng [1, 2, 3]
    [sampleNode 1, sampleNode 2, sampleNode 3] defaultAvgDelay defaultMixPayloadSize (by decide)
    relayDestinationTag
  obtain ⟨packet, hpacket⟩ := hbuilds.mpr ⟨by decide, by decide +kernel, by decide⟩
  exact ⟨packet, hpacket, (hpeels packet hpacket).1 _ rfl⟩

end ClearOnion

end Parda.Mixnode.Mixnet
