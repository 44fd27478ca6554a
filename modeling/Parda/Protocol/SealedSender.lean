import Parda.Lib.Delegation
import Parda.Protocol.SessionStore

/-!
# Sealed sender

Model of `protocol/src/sealed_sender.rs` and of the sealed receive path of
`protocol/src/session.rs`. The certificates, their signatures and `sealed_sender_decrypt` are
those of `libsignal-protocol`, a parameter.
-/

namespace Parda.Protocol

structure KeyPair where
  publicKey : IdentityKey
  privateKey : Bytes32
deriving DecidableEq

structure ServerCertificate where
  keyId : UInt32
  key : IdentityKey
  signature : Bytes
deriving DecidableEq

structure SenderCertificate where
  senderUuid : String
  key : IdentityKey
  deviceId : UInt32
  expirationMs : UInt64
  signer : ServerCertificate
  signature : Bytes
deriving DecidableEq

/-- What the signature of a certificate is over. -/
inductive Statement where
  | server (keyId : UInt32) (key : IdentityKey)
  | sender (senderUuid : String) (key : IdentityKey) (deviceId : UInt32) (expirationMs : UInt64)
      (signer : ServerCertificate)
deriving DecidableEq

def ServerCertificate.statement (cert : ServerCertificate) : Statement := .server cert.keyId cert.key

def SenderCertificate.statement (cert : SenderCertificate) : Statement :=
  .sender cert.senderUuid cert.key cert.deviceId cert.expirationMs cert.signer

/-- The key that a statement lets sign. -/
def Statement.names : Statement → Option IdentityKey
  | .server _ key => some key
  | .sender _ _ _ _ _ => none

/-- A certificate with the one under it. -/
def SenderCertificate.links (cert : SenderCertificate) : List (Statement × Bytes) :=
  [(cert.signer.statement, cert.signer.signature), (cert.statement, cert.signature)]

/-- A `SealedSenderDecryptionResult`, and what `decrypt_sealed` makes of it. -/
structure SealedSenderPlaintext where
  senderUuid : String
  deviceId : UInt32
  plaintext : Bytes
deriving DecidableEq

/-- The sealed-sender part of `libsignal-protocol`. A certificate is made by signing its statement
with a private key and a draw, which may fail. `embedded` is the certificate that a decryption finds in a message. -/
structure SealedCrates where
  sign : Bytes32 → Statement → Bytes → Except String Bytes
  verify : IdentityKey → Statement → Bytes → Bool
  validate : SenderCertificate → IdentityKey → UInt64 → Except String Bool
  embedded : SignalStore → Bytes → Option SenderCertificate
  sealedSenderDecrypt : SignalStore → Bytes → IdentityKey → UInt64 → String → UInt32 → Bytes →
    SignalStore × Except String SealedSenderPlaintext

/-- What the documentation of `libsignal-protocol` says of them. -/
structure SealedCrates.Lawful (d : SealedCrates) : Prop where
  /-- Both signatures have been checked, and the expiration. -/
  validate_true : ∀ cert root nowMs, d.validate cert root nowMs = .ok true →
    Delegation.Chain (fun key m signature => d.verify key m signature = true) Statement.names root
      cert.links ∧ nowMs ≤ cert.expirationMs
  /-- The certificate is validated before anything is decrypted, and tells the sender. -/
  decrypt_ok : ∀ store ciphertext root nowMs localUuid localDeviceId draw store' plaintext,
    d.sealedSenderDecrypt store ciphertext root nowMs localUuid localDeviceId draw = (store', .ok plaintext) →
      ∃ cert, d.embedded store ciphertext = some cert ∧ d.validate cert root nowMs = .ok true ∧
        plaintext.senderUuid = cert.senderUuid ∧ plaintext.deviceId = cert.deviceId
  /-- The store's traits have no way to write the own identity. -/
  decrypt_identity : ∀ store ciphertext root nowMs localUuid localDeviceId draw,
    (d.sealedSenderDecrypt store ciphertext root nowMs localUuid localDeviceId draw).1.identityKeyPair =
      store.identityKeyPair

/-- `PardaError`, with the variants of the receive path. -/
inductive ReceiveError where
  | parda (error : PardaError)
  | unsupportedEnvelopeVersion (got maxSupported : UInt8)
  | malformedSealedSender (detail : String)
  | sealedSenderAuth (detail : String)
deriving DecidableEq

def maxSupportedEnvelopeVersion : UInt8 := envelopeVersionV2

/-- `Debug` of an envelope type. -/
def EnvelopeType.debug : EnvelopeType → String
  | .preKey => "PreKey"
  | .ratchet => "Ratchet"
  | .sealedSender => "SealedSender"

def MessageEnvelope.validateVersion (envelope : MessageEnvelope) : Except ReceiveError Unit :=
  if maxSupportedEnvelopeVersion < envelope.version then
    .error (.unsupportedEnvelopeVersion envelope.version maxSupportedEnvelopeVersion)
  else if envelope.sealedSender ∧ envelope.version < envelopeVersionV2 then
    .error (.malformedSealedSender "sealed_sender = true is not valid on a version-1 envelope")
  else if envelope.sealedSender ∧ envelope.envelopeType ≠ .sealedSender then
    .error (.malformedSealedSender ("sealed_sender = true requires envelope_type = SealedSender, got "
      ++ envelope.envelopeType.debug))
  else if ¬envelope.sealedSender ∧ envelope.envelopeType = .sealedSender then
    .error (.malformedSealedSender "envelope_type = SealedSender requires sealed_sender = true")
  else .ok ()

/-! ### The certificate authority -/

def serverCertKeyId : UInt32 := 1

structure CertificateAuthority where
  trustRoot : KeyPair
  serverKeyPair : KeyPair
  serverCertificate : ServerCertificate

namespace CertificateAuthority

variable (d : SealedCrates)

/-- `from_trust_root`, with the server key pair it generates. -/
def fromTrustRoot (trustRoot serverKeyPair : KeyPair) (draw : Bytes) :
    Except PardaError CertificateAuthority := do
  let signature ← signal (d.sign trustRoot.privateKey
    (.server serverCertKeyId serverKeyPair.publicKey) draw)
  return ⟨trustRoot, serverKeyPair, ⟨serverCertKeyId, serverKeyPair.publicKey, signature⟩⟩

/-- Durations and times in milliseconds. The sum is cast to a `u64`. -/
def issueSenderCertificate (ca : CertificateAuthority) (senderUuid : String)
    (identityPublicKey : IdentityKey) (deviceId : UInt32) (ttl now : ℕ) (draw : Bytes) :
    Except PardaError SenderCertificate := do
  let expiration := UInt64.ofNat (now + ttl)
  let signature ← signal (d.sign ca.serverKeyPair.privateKey
    (.sender senderUuid identityPublicKey deviceId expiration ca.serverCertificate) draw)
  return ⟨senderUuid, identityPublicKey, deviceId, expiration, ca.serverCertificate, signature⟩

variable {d}

lemma fromTrustRoot_eq_ok {trustRoot serverKeyPair : KeyPair} {draw : Bytes}
    {ca : CertificateAuthority} (h : fromTrustRoot d trustRoot serverKeyPair draw = .ok ca) :
    ca.trustRoot = trustRoot ∧ ca.serverKeyPair = serverKeyPair ∧
      ca.serverCertificate.key = serverKeyPair.publicKey := by
  unfold fromTrustRoot at h
  cases hsign : d.sign trustRoot.privateKey (.server serverCertKeyId serverKeyPair.publicKey) draw with
  | error e =>
    rw [hsign] at h
    cases h
  | ok signature =>
    rw [hsign] at h
    obtain rfl := Except.ok.inj h
    exact ⟨rfl, rfl, rfl⟩

/-- The cast to 64 bits can only shorten a certificate's life. -/
lemma toNat_expirationMs_le {ca : CertificateAuthority} {senderUuid : String}
    {identityPublicKey : IdentityKey} {deviceId : UInt32} {ttl now : ℕ} {draw : Bytes}
    {cert : SenderCertificate}
    (h : ca.issueSenderCertificate d senderUuid identityPublicKey deviceId ttl now draw = .ok cert) :
    cert.expirationMs.toNat ≤ now + ttl := by
  unfold issueSenderCertificate at h
  dsimp only at h
  cases hsign : d.sign ca.serverKeyPair.privateKey (.sender senderUuid identityPublicKey deviceId
      (UInt64.ofNat (now + ttl)) ca.serverCertificate) draw with
  | error e =>
    rw [hsign] at h
    cases h
  | ok signature =>
    rw [hsign] at h
    obtain rfl := Except.ok.inj h
    change (UInt64.ofNat (now + ttl)).toNat ≤ _
    rw [UInt64.toNat_ofNat']
    exact Nat.mod_le _ _

end CertificateAuthority

/-! ### Receiving -/

/-- `map_err` to `PardaError::Signal`. -/
def receiveSignal {α : Type} (result : Except String α) : Except ReceiveError α :=
  match result with
  | .ok a => .ok a
  | .error e => .error (.parda (.signal e))

namespace SignalStore

variable (c : SessionCrates) (d : SealedCrates) (hmac : Hmac)

def decryptSealed (store : SignalStore) (envelope : MessageEnvelope) (trustRoot : IdentityKey)
    (localUuid : String) (localDeviceId : UInt32) (nowMs : UInt64) (draw : Bytes) :
    SignalStore × Except ReceiveError SealedSenderPlaintext :=
  match envelope.validateVersion with
  | .error e => (store, .error e)
  | .ok () =>
    if envelope.envelopeType ≠ .sealedSender then
      (store, .error (.malformedSealedSender
        ("decrypt_sealed requires envelope_type = SealedSender, got " ++ envelope.envelopeType.debug)))
    else
      let (store, result) :=
        d.sealedSenderDecrypt store envelope.ciphertext trustRoot nowMs localUuid localDeviceId draw
      (store, receiveSignal result)

/-- The check comes after the decryption: only the certificate tells whose key to check. -/
def decryptSealedVerified (store : SignalStore) (envelope : MessageEnvelope) (trustRoot : IdentityKey)
    (localUuid : String) (localDeviceId : UInt32) (trustStore : InMemoryTrustStore) (peerId : String)
    (nowMs : UInt64) (draw : Bytes) : SignalStore × Except ReceiveError SealedSenderPlaintext :=
  match receiveSignal (store.getIdentityKeyPair c) with
  | .error e => (store, .error e)
  | .ok localIdentity =>
    match store.decryptSealed d envelope trustRoot localUuid localDeviceId nowMs draw with
    | (store, .error e) => (store, .error e)
    | (store, .ok result) =>
      let senderAddress : ProtocolAddress := ⟨result.senderUuid, result.deviceId⟩
      match store.getIdentity senderAddress with
      | none => (store, .error (.sealedSenderAuth ("no identity key recorded for authenticated sender "
          ++ senderAddress.key ++ " — cannot check it against a verified fingerprint")))
      | some remoteIdentity =>
        match checkIdentity hmac trustStore peerId localIdentity.identityKey remoteIdentity with
        | .error e => (store, .error (.parda e))
        | .ok () => (store, .ok result)

section Results

variable {c d hmac} {store store' : SignalStore} {envelope : MessageEnvelope} {trustRoot : IdentityKey}
  {localUuid : String} {localDeviceId : UInt32} {trustStore : InMemoryTrustStore} {peerId : String}
  {nowMs : UInt64} {draw : Bytes} {plaintext : SealedSenderPlaintext}

lemma receiveSignal_eq_ok {α : Type} {result : Except String α} {a : α} :
    receiveSignal result = .ok a ↔ result = .ok a := by
  cases result with
  | error e => simp [receiveSignal]
  | ok b => simp [receiveSignal]

lemma decryptSealed_eq_ok
    (h : store.decryptSealed d envelope trustRoot localUuid localDeviceId nowMs draw =
      (store', .ok plaintext)) :
    d.sealedSenderDecrypt store envelope.ciphertext trustRoot nowMs localUuid localDeviceId draw =
      (store', .ok plaintext) := by
  unfold decryptSealed at h
  split at h
  · cases h
  · split at h
    · cases h
    · obtain ⟨hstore, hresult⟩ := Prod.mk.inj h
      exact Prod.ext hstore (receiveSignal_eq_ok.mp hresult)

/-- A plaintext gets past the check with the key that is on file for its sender by then. -/
lemma decryptSealedVerified_eq_ok
    (h : store.decryptSealedVerified c d hmac envelope trustRoot localUuid localDeviceId trustStore
      peerId nowMs draw = (store', .ok plaintext)) :
    store.decryptSealed d envelope trustRoot localUuid localDeviceId nowMs draw =
        (store', .ok plaintext) ∧
      ∃ pair key, store.identityKeyPair = some pair ∧
        store'.getIdentity ⟨plaintext.senderUuid, plaintext.deviceId⟩ = some key ∧
        checkIdentity hmac trustStore peerId pair.identityKey key = .ok () := by
  unfold decryptSealedVerified at h
  split at h
  · cases h
  · rename_i pair hpair
    split at h
    · cases h
    · rename_i store₁ result hdecrypt
      dsimp only at h
      split at h
      · cases h
      · rename_i key hkey
        split at h
        · cases h
        · rename_i hcheck
          obtain ⟨rfl, hresult⟩ := Prod.mk.inj h
          obtain rfl := Except.ok.inj hresult
          refine ⟨hdecrypt, pair, key, ?_, hkey, hcheck⟩
          rw [receiveSignal_eq_ok] at hpair
          unfold getIdentityKeyPair at hpair
          split at hpair
          · rename_i pair' hsome
            rw [hsome, Except.ok.inj hpair]
          · cases hpair

lemma identityKeyPair_decryptSealed (hd : d.Lawful) (store : SignalStore)
    (envelope : MessageEnvelope) (trustRoot : IdentityKey) (localUuid : String)
    (localDeviceId : UInt32) (nowMs : UInt64) (draw : Bytes) :
    (store.decryptSealed d envelope trustRoot localUuid localDeviceId nowMs draw).1.identityKeyPair =
      store.identityKeyPair := by
  unfold decryptSealed
  split
  · rfl
  · split
    · rfl
    · exact hd.decrypt_identity _ _ _ _ _ _ _

lemma identityKeyPair_decryptSealedVerified (hd : d.Lawful) :
    (store.decryptSealedVerified c d hmac envelope trustRoot localUuid localDeviceId trustStore
      peerId nowMs draw).1.identityKeyPair = store.identityKeyPair := by
  have hsame := identityKeyPair_decryptSealed hd store envelope trustRoot localUuid localDeviceId
    nowMs draw
  unfold decryptSealedVerified
  split
  · rfl
  · split
    · rename_i heq
      rwa [heq] at hsame
    · rename_i heq
      rw [heq] at hsame
      dsimp only
      split
      · exact hsame
      · split
        · exact hsame
        · exact hsame

end Results

end SignalStore

end Parda.Protocol
