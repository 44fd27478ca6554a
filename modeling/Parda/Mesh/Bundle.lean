import Parda.Protocol.DeadDrop

/-!
# Bundle framing

Model of `mesh/src/bundle.rs`: an envelope is framed as an RFC 9171 bundle whose
destination endpoint is the hex-encoded dead-drop address. Errors carry the source's
texts, with the text of a third-party error appended where the source formats it in.
-/

namespace Parda.Mesh

open Protocol

/-- `MeshError`, restricted to the variants a modelled function returns. -/
inductive MeshError where
  | link (message : String)
  | bundleCodec (message : String)
  | relayRefused (message : String)
deriving DecidableEq, Repr

def deadDropDemuxPrefix : List Char := "parda-dead-drop/".toList
def deadDropUriPrefix : List Char := "dtn://parda-dead-drop/".toList

def defaultMaxLifetimeMs : UInt64 := 7 * 24 * 60 * 60 * 1000

def hexChar (n : ℕ) : Char :=
  if n < 10 then Char.ofNat (48 + n) else Char.ofNat (87 + n)

/-- `hex::encode`. -/
def hexEncode (bytes : Bytes) : List Char :=
  bytes.flatMap (fun b => [hexChar (b.toNat / 16), hexChar (b.toNat % 16)])

/-- The value of one hex digit, in either case, found at `index`. -/
def hexVal (ch : Char) (index : ℕ) : Except String ℕ :=
  if 48 ≤ ch.toNat ∧ ch.toNat ≤ 57 then .ok (ch.toNat - 48)
  else if 97 ≤ ch.toNat ∧ ch.toNat ≤ 102 then .ok (ch.toNat - 87)
  else if 65 ≤ ch.toNat ∧ ch.toNat ≤ 70 then .ok (ch.toNat - 55)
  else .error ("Invalid character '" ++ ch.toString ++ "' at position " ++ toString index)

def hexDecodePairs : ℕ → List Char → Except String Bytes
  | index, hi :: lo :: rest => do
    let h ← hexVal hi index
    let l ← hexVal lo (index + 1)
    let bytes ← hexDecodePairs (index + 2) rest
    pure (UInt8.ofNat (16 * h + l) :: bytes)
  | _, _ => pure []

/-- `hex::decode`. -/
def hexDecode (chars : List Char) : Except String Bytes :=
  if chars.length % 2 = 1 then .error "Odd number of digits" else hexDecodePairs 0 chars

def stripPrefix (pre s : List Char) : Option (List Char) :=
  if pre.isPrefixOf s then some (s.drop pre.length) else none

/-- `Vec<u8>::try_into` for a `[u8; 32]`. -/
def toBytes32 (bytes : Bytes) : Option Bytes32 :=
  if h : bytes.length = 32 then some ⟨bytes, h⟩ else none

def addressToEid (c : Crates) (address : Address) : Except MeshError (List Char) :=
  match c.eidWithDtn (deadDropDemuxPrefix ++ hexEncode address.toList) with
  | .ok eid => .ok eid
  | .error e => .error (.bundleCodec ("address did not encode as a valid EID: " ++ e))

def destinationAddress (bundle : Bundle) : Except MeshError Address :=
  match stripPrefix deadDropUriPrefix bundle.primary.destination with
  | none => .error (.bundleCodec "not a PARDA dead-drop bundle")
  | some hexPart =>
    match hexDecode hexPart with
    | .error e => .error (.bundleCodec ("malformed address hex: " ++ e))
    | .ok bytes =>
      match toBytes32 bytes with
      | some address => .ok address
      | none => .error (.bundleCodec "address was not 32 bytes")

/-- The lifetime `wrap` declares; `saturating_sub` where the deadline precedes the
envelope's own timestamp. -/
def wrapLifetimeMs (envelope : MessageEnvelope) : UInt64 :=
  match envelope.selfDestructAt with
  | some deadlineMs =>
    if envelope.timestampMs ≤ deadlineMs then deadlineMs - envelope.timestampMs else 0
  | none => defaultMaxLifetimeMs

def wrap (c : Crates) (nowMs : UInt64) (envelope : MessageEnvelope) (address : Address) :
    Except MeshError Bytes :=
  match c.envelopeToJson envelope with
  | .error e => .error (.bundleCodec ("envelope did not serialize: " ++ e))
  | .ok payload =>
    match addressToEid c address with
    | .error e => .error e
    | .ok eid =>
      match c.primaryBuild ⟨eid, nowMs, wrapLifetimeMs envelope⟩ with
      | .error e => .error (.bundleCodec ("primary block build failed: " ++ e))
      | .ok primary => .ok (c.bundleToCbor ⟨primary, some payload⟩)

def bytesAsBundle (c : Crates) (bytes : Bytes) : Except MeshError Bundle :=
  match c.bundleFromCbor bytes with
  | .ok bundle => .ok bundle
  | .error e => .error (.bundleCodec e)

def unwrap (c : Crates) (bytes : Bytes) : Except MeshError (Address × MessageEnvelope) :=
  match bytesAsBundle c bytes with
  | .error e => .error e
  | .ok bundle =>
    match destinationAddress bundle with
    | .error e => .error e
    | .ok address =>
      match bundle.payload with
      | none => .error (.bundleCodec "bundle has no payload block")
      | some payload =>
        match c.envelopeFromJson payload with
        | .ok envelope => .ok (address, envelope)
        | .error e => .error (.bundleCodec ("payload did not decode as an envelope: " ++ e))

/-- The declared expiry. The sum is a `u64` sum: it wraps, as it does in a release
build. -/
def expiryMs (c : Crates) (bytes : Bytes) : Except MeshError UInt64 :=
  match bytesAsBundle c bytes with
  | .error e => .error e
  | .ok bundle => .ok (bundle.primary.creationTimestamp + bundle.primary.lifetime)

/-- The printed destination endpoint of a bundle for `address`. -/
def deadDropUri (address : Address) : List Char :=
  deadDropUriPrefix ++ hexEncode address.toList

/-- What framing relies on: `serde_json` and `bp7` read back what they write, and
`with_dtn` accepts a dead-drop demux and prints it under the `dtn` scheme. -/
structure FramingLaws (c : Crates) : Prop where
  json_round_trip : ∀ e, ∃ bytes, c.envelopeToJson e = .ok bytes ∧ c.envelopeFromJson bytes = .ok e
  eid_dead_drop : ∀ address : Address,
    c.eidWithDtn (deadDropDemuxPrefix ++ hexEncode address.toList) = .ok (deadDropUri address)
  primary_build : ∀ address created lifetime,
    c.primaryBuild ⟨deadDropUri address, created, lifetime⟩ =
      .ok ⟨deadDropUri address, created, lifetime⟩
  cbor_round_trip : ∀ address created lifetime payload,
    let bundle := ⟨⟨deadDropUri address, created, lifetime⟩, some payload⟩
    c.bundleFromCbor (c.bundleToCbor bundle) = .ok bundle

lemma hexVal_hexChar {n : ℕ} (h : n < 16) (index : ℕ) : hexVal (hexChar n) index = .ok n := by
  have key : ∀ m : Fin 16, (if 48 ≤ (hexChar m).toNat ∧ (hexChar m).toNat ≤ 57 then
      some ((hexChar m).toNat - 48) else if 97 ≤ (hexChar m).toNat ∧ (hexChar m).toNat ≤ 102 then
      some ((hexChar m).toNat - 87) else none) = some m.val := by decide
  have hn := key ⟨n, h⟩
  simp only at hn
  unfold hexVal
  by_cases h1 : 48 ≤ (hexChar n).toNat ∧ (hexChar n).toNat ≤ 57
  · rw [if_pos h1] at hn ⊢
    exact congrArg _ (Option.some.inj hn)
  · rw [if_neg h1] at hn ⊢
    by_cases h2 : 97 ≤ (hexChar n).toNat ∧ (hexChar n).toNat ≤ 102
    · rw [if_pos h2] at hn ⊢
      exact congrArg _ (Option.some.inj hn)
    · rw [if_neg h2] at hn
      cases hn

lemma hexDecodePairs_hexEncode (bytes : Bytes) (index : ℕ) :
    hexDecodePairs index (hexEncode bytes) = .ok bytes := by
  induction bytes generalizing index with
  | nil => rfl
  | cons b bytes ih =>
    have hlt := b.toNat_lt
    have hhi := hexVal_hexChar (n := b.toNat / 16) (by omega) index
    have hlo := hexVal_hexChar (n := b.toNat % 16) (by omega) (index + 1)
    have hb : UInt8.ofNat (16 * (b.toNat / 16) + b.toNat % 16) = b := by
      rw [Nat.div_add_mod]
      exact UInt8.ofNat_toNat
    change hexDecodePairs index (hexChar _ :: hexChar _ :: hexEncode bytes) = _
    rw [hexDecodePairs, hhi, hlo, ih (index + 2)]
    simp only [Bind.bind, Except.bind, Pure.pure, Except.pure, hb]

lemma length_hexEncode (bytes : Bytes) : (hexEncode bytes).length = 2 * bytes.length := by
  induction bytes with
  | nil => rfl
  | cons b bytes ih =>
    change (hexEncode bytes).length + 1 + 1 = _
    rw [ih, List.length_cons]
    omega

theorem hexDecode_hexEncode (bytes : Bytes) : hexDecode (hexEncode bytes) = .ok bytes := by
  unfold hexDecode
  rw [length_hexEncode, if_neg (by omega), hexDecodePairs_hexEncode]

lemma stripPrefix_append (pre s : List Char) : stripPrefix pre (pre ++ s) = some s := by
  unfold stripPrefix
  have h : pre.isPrefixOf (pre ++ s) = true := by
    rw [List.isPrefixOf_iff_prefix]
    exact List.prefix_append pre s
  rw [if_pos h, List.drop_left]

lemma toBytes32_toList (b : Bytes32) : toBytes32 b.toList = some b := by
  obtain ⟨l, hl⟩ := b
  exact dif_pos hl

lemma destinationAddress_deadDropUri {address : Address} {b : Bundle}
    (h : b.primary.destination = deadDropUri address) : destinationAddress b = .ok address := by
  unfold destinationAddress deadDropUri at *
  rw [h, stripPrefix_append]
  simp only [hexDecode_hexEncode, toBytes32_toList]

section Framing

variable {c : Crates} (laws : FramingLaws c)

include laws

/-- A wrapped bundle decodes to the destination and the envelope it was wrapped from,
and its declared expiry is its creation time plus the lifetime `wrap` chose. -/
theorem wrap_spec (nowMs : UInt64) (envelope : MessageEnvelope) (address : Address) :
    ∃ bytes bundle, wrap c nowMs envelope address = .ok bytes ∧
      bytesAsBundle c bytes = .ok bundle ∧ destinationAddress bundle = .ok address ∧
      unwrap c bytes = .ok (address, envelope) ∧
      expiryMs c bytes = .ok (nowMs + wrapLifetimeMs envelope) := by
  obtain ⟨payload, hto, hfrom⟩ := laws.json_round_trip envelope
  let bundle : Bundle := ⟨⟨deadDropUri address, nowMs, wrapLifetimeMs envelope⟩, some payload⟩
  have hbundle : bytesAsBundle c (c.bundleToCbor bundle) = .ok bundle := by
    unfold bytesAsBundle
    rw [laws.cbor_round_trip]
  have haddr : destinationAddress bundle = .ok address := destinationAddress_deadDropUri rfl
  refine ⟨c.bundleToCbor bundle, bundle, ?_, hbundle, haddr, ?_, ?_⟩
  · simp only [wrap, hto, addressToEid, laws.eid_dead_drop, laws.primary_build, bundle]
  · simp only [unwrap, hbundle, haddr, bundle, hfrom]
  · simp only [expiryMs, hbundle]
    rfl

/-- Whatever `wrap` returns unwraps to what it was given. -/
lemma unwrap_of_wrap {nowMs : UInt64} {envelope : MessageEnvelope} {address : Address}
    {bytes : Bytes} (h : wrap c nowMs envelope address = .ok bytes) :
    unwrap c bytes = .ok (address, envelope) := by
  obtain ⟨bytes', -, hwrap, -, -, hun, -⟩ := wrap_spec laws nowMs envelope address
  rw [h] at hwrap
  cases hwrap
  exact hun

end Framing

/-- Whatever unwraps is destined for the address it unwraps to. -/
lemma destinationAddress_of_unwrap {c : Crates} {bytes : Bytes} {address : Address}
    {envelope : MessageEnvelope} (h : unwrap c bytes = .ok (address, envelope)) :
    ∃ bundle, bytesAsBundle c bytes = .ok bundle ∧ destinationAddress bundle = .ok address := by
  unfold unwrap at h
  cases hb : bytesAsBundle c bytes with
  | error e => simp [hb] at h
  | ok bundle =>
    rw [hb] at h
    cases ha : destinationAddress bundle with
    | error e => simp [ha] at h
    | ok a =>
      simp only [ha] at h
      refine ⟨bundle, rfl, ?_⟩
      rw [ha]
      cases hp : bundle.payload with
      | none => simp [hp] at h
      | some payload =>
        simp only [hp] at h
        cases hj : c.envelopeFromJson payload with
        | error e => simp [hj] at h
        | ok env =>
          simp only [hj, Except.ok.injEq, Prod.mk.injEq] at h
          rw [h.1]

end Parda.Mesh
