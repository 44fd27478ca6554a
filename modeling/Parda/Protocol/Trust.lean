import Mathlib.Logic.Function.Basic
import Parda.Lib.Hkdf
import Parda.Protocol.Identity

/-!
# Out-of-band verification

Model of `protocol/src/trust.rs` and of `initiate_session` and
`initiate_session_verified` of `protocol/src/session.rs`, over the stores they touch of
`protocol/src/store.rs`. The keyed hash of HKDF and `process_prekey_bundle` are parameters.
-/

namespace Parda.Protocol

/-- HMAC-SHA256, or any keyed hash of 32 bytes. -/
abbrev Hmac := Bytes → Bytes → Bytes32

def fingerprintContext : Bytes := asciiBytes "PARDA-Fingerprint-v1"

def fingerprintLen : ℕ := 60

structure Fingerprint where
  bytes : List.Vector UInt8 fingerprintLen
deriving DecidableEq

/-- `chunks_exact`. -/
def chunksExact {α : Type} (n : ℕ) (l : List α) : List (List α) :=
  (List.range (l.length / n)).map (fun i => (l.drop (i * n)).take n)

namespace Fingerprint

/-- The input of HKDF, the two serialised keys in order. -/
def ikm (a b : Bytes) : Bytes := if a ≤ b then a ++ b else b ++ a

/-- `compute`, on the serialised keys. -/
def compute (hmac : Hmac) (localKey remoteKey : Bytes) : Fingerprint where
  bytes := ⟨Hkdf.expand hmac
      (Hkdf.extract hmac fingerprintContext (ikm localKey remoteKey)) fingerprintContext fingerprintLen,
    Hkdf.length_expand (by decide) _⟩

/-- A chunk as a big-endian integer. -/
def groupValue (chunk : Bytes) : UInt64 :=
  chunk.foldl (fun acc byte => acc <<< 8 ||| byte.toUInt64) 0

/-- `{:05}` of a group's value. -/
def groupDigits (chunk : Bytes) : List Char :=
  List.leftpad 5 '0' (Nat.toDigits 10 (groupValue chunk % 100000).toNat)

def digits (fingerprint : Fingerprint) : String :=
  String.ofList ([' '].intercalate ((chunksExact 5 fingerprint.bytes.toList).map groupDigits))

lemma ikm_comm (a b : Bytes) : ikm a b = ikm b a := by
  unfold ikm
  by_cases h : a ≤ b
  · rw [if_pos h]
    by_cases h' : b ≤ a
    · rw [if_pos h', List.le_antisymm h h']
    · rw [if_neg h']
  · have h' : b ≤ a := (List.le_total a b).resolve_left h
    rw [if_neg h, if_pos h']

/-- Both parties compute the same fingerprint. -/
lemma compute_comm (hmac : Hmac) (a b : Bytes) : compute hmac a b = compute hmac b a := by
  unfold compute
  simp only [ikm_comm a b]

end Fingerprint

/-- `InMemoryTrustStore`. -/
structure InMemoryTrustStore where
  verifiedFingerprint : String → Option Fingerprint := fun _ => none

namespace InMemoryTrustStore

def recordVerified (store : InMemoryTrustStore) (peerId : String) (fingerprint : Fingerprint) : InMemoryTrustStore where
  verifiedFingerprint := Function.update store.verifiedFingerprint peerId (some fingerprint)

def forgetVerification (store : InMemoryTrustStore) (peerId : String) : InMemoryTrustStore where
  verifiedFingerprint := Function.update store.verifiedFingerprint peerId none

end InMemoryTrustStore

/-- A serialised identity key. -/
abbrev IdentityKey := List.Vector UInt8 33

def checkIdentity (hmac : Hmac) (store : InMemoryTrustStore) (peerId : String)
    (localIdentityKey remoteIdentityKey : IdentityKey) : Except PardaError Unit :=
  match store.verifiedFingerprint peerId with
  | none => .ok ()
  | some verified =>
    let observed := Fingerprint.compute hmac localIdentityKey.toList remoteIdentityKey.toList
    if observed = verified then .ok ()
    else .error (.identityKeyChangedAfterVerification peerId verified.digits observed.digits)

structure IdentityKeyPair where
  identityKey : IdentityKey
  privateKey : Bytes32
deriving DecidableEq

structure ProtocolAddress where
  name : String
  deviceId : UInt32
deriving DecidableEq

/-- `Display` of an address, the key of the store's maps. -/
def ProtocolAddress.key (address : ProtocolAddress) : String :=
  address.name ++ "." ++ toString address.deviceId

/-- The session and identity stores. A session record is its bytes. -/
structure SignalStore where
  identityKeyPair : Option IdentityKeyPair
  registrationId : UInt32
  trustedIdentities : String → Option IdentityKey := fun _ => none
  sessions : String → Option Bytes := fun _ => none

/-- What the stores hold for one address. -/
structure AddressRecords where
  trustedIdentity : Option IdentityKey
  session : Option Bytes

namespace SignalStore

def records (store : SignalStore) (key : String) : AddressRecords where
  trustedIdentity := store.trustedIdentities key
  session := store.sessions key

def setRecords (store : SignalStore) (key : String) (records : AddressRecords) : SignalStore :=
  { store with
    trustedIdentities := Function.update store.trustedIdentities key records.trustedIdentity
    sessions := Function.update store.sessions key records.session }

end SignalStore

/-- `libsignal-protocol`: the accessor of a bundle's identity key, the text of an invalid
state, and `process_prekey_bundle`, which reads and writes the records of its address. What
it draws and the time are its last argument. -/
structure SessionCrates where
  bundleIdentityKey : PreKeyBundle → Except String IdentityKey
  invalidState : String → String → String
  processPrekeyBundle : Option IdentityKeyPair → UInt32 → AddressRecords → PreKeyBundle → Bytes →
    AddressRecords × Except String Unit

/-- `map_err` to `PardaError::Signal`. -/
def signal {α : Type} (result : Except String α) : Except PardaError α :=
  match result with
  | .ok a => .ok a
  | .error e => .error (.signal e)

namespace SignalStore

variable (c : SessionCrates)

def getIdentityKeyPair (store : SignalStore) : Except String IdentityKeyPair :=
  match store.identityKeyPair with
  | some pair => .ok pair
  | none => .error (c.invalidState "identity" "not initialized")

def initiateSession (store : SignalStore) (remoteAddress : ProtocolAddress) (bundle : PreKeyBundle)
    (draw : Bytes) : SignalStore × Except PardaError Unit :=
  let (records, result) := c.processPrekeyBundle store.identityKeyPair store.registrationId
    (store.records remoteAddress.key) bundle draw
  (store.setRecords remoteAddress.key records, signal result)

def initiateSessionVerified (hmac : Hmac) (store : SignalStore) (remoteAddress : ProtocolAddress)
    (bundle : PreKeyBundle) (draw : Bytes) (trustStore : InMemoryTrustStore) (peerId : String) :
    SignalStore × Except PardaError Unit :=
  match signal (store.getIdentityKeyPair c) with
  | .error e => (store, .error e)
  | .ok localIdentity =>
    match signal (c.bundleIdentityKey bundle) with
    | .error e => (store, .error e)
    | .ok remoteIdentity =>
      match checkIdentity hmac trustStore peerId localIdentity.identityKey remoteIdentity with
      | .error e => (store, .error e)
      | .ok () => store.initiateSession c remoteAddress bundle draw

end SignalStore

end Parda.Protocol
