import Parda.Lib.Codec
import Parda.Lib.Simulation
import Parda.Lib.Utf8
import Parda.Protocol.Pinning
import Parda.Protocol.SealedSender
import Parda.Server.Base64

/-!
# Sender certificates

The relay's certificate routes of `server/src/routes.rs` over the authority that each process of
the relay generates as it starts (`server/src/store.rs`), and a device that receives sealed mail:
what certificate stands behind what the device accepts, whoever composed it.
-/

namespace Parda.Server

open Machine Protocol

/-- `MAX_SENDER_CERT_TTL`, in seconds. -/
def maxSenderCertTtl : ℕ := 7 * 24 * 60 * 60

structure IssueSenderCertRequest where
  identityKey : String
  deviceId : UInt32
  ttlSecs : UInt64
deriving DecidableEq

/-- `issue_sender_certificate` of the store, at `nowMs`. -/
def issueSenderCertificate (d : SealedCrates) (ca : CertificateAuthority) (userId : String)
    (identityKey : IdentityKey) (deviceId : UInt32) (ttlSecs : UInt64) (nowMs : ℕ) (draw : Bytes) :
    Except PardaError SenderCertificate :=
  let ttl := min ttlSecs.toNat maxSenderCertTtl
  ca.issueSenderCertificate d userId identityKey deviceId (ttl * 1000) nowMs draw

/-- What the routes use besides: `base64`, `PublicKey::try_from` and the serialiser of
certificates. -/
structure CertCodec where
  b64 : Base64
  publicKey : Bytes → Option IdentityKey
  serialized : SenderCertificate → Option Bytes

inductive CertResponse where
  | badRequest (error : String)
  | internalServerError (error : String)
  | ok (senderCertificate : String)
deriving DecidableEq

/-- A certificate that an authority has signed. -/
structure IssuedCert where
  trustRoot : IdentityKey
  cert : SenderCertificate
  atMs : ℕ
  ttlSecs : UInt64
deriving DecidableEq

/-- The processes of the relay so far, the last one first, with the statements that their keys have
signed and the certificates among them; and a device. -/
structure CertifiedRun where
  authorities : List CertificateAuthority := []
  made : List (IdentityKey × Statement) := []
  issued : List IssuedCert := []
  device : TrustState

/-- `receive` with a peer is `decrypt_sealed_verified`, without one `decrypt_sealed`. The message
is any that anyone has composed. -/
inductive CertifiedLabel where
  | startRelay (trustRoot serverKeyPair : KeyPair) (draw : Bytes)
  | issue (userId : String) (request : IssueSenderCertRequest) (nowMs : ℕ) (draw : Bytes)
  | recordVerified (peerId : String) (fingerprint : Fingerprint)
  | forgetVerification (peerId : String)
  | receive (envelope : MessageEnvelope) (trustRoot : IdentityKey) (localUuid : String)
      (localDeviceId : UInt32) (peerId : Option String) (nowMs : UInt64) (draw : Bytes)

namespace CertifiedRun

variable (c : SessionCrates) (d : SealedCrates) (codec : CertCodec) (hmac : Hmac)

/-- The key of a request that gets to the store. -/
def requestKey (request : IssueSenderCertRequest) : Except CertResponse IdentityKey :=
  match codec.b64.decode request.identityKey with
  | none => .error (.badRequest "identity_key is not valid base64")
  | some bytes =>
    match codec.publicKey bytes with
    | none => .error (.badRequest "identity_key is not a valid public key")
    | some identityKey => .ok identityKey

/-- `POST /v1/certs/{user_id}`. -/
def postCert (s : CertifiedRun) (userId : String) (request : IssueSenderCertRequest) (nowMs : ℕ)
    (draw : Bytes) : Option CertResponse × CertifiedRun :=
  match s.authorities with
  | [] => (none, s)
  | ca :: _ =>
    match requestKey codec request with
    | .error response => (some response, s)
    | .ok identityKey =>
      match issueSenderCertificate d ca userId identityKey request.deviceId request.ttlSecs nowMs
        draw with
      | .error e => (some (.internalServerError ("failed to issue certificate: " ++ e.display)), s)
      | .ok cert =>
        let response := match codec.serialized cert with
          | none => .internalServerError "failed to serialise certificate"
          | some bytes => .ok (codec.b64.encode bytes)
        (some response, { s with
          made := (ca.serverKeyPair.publicKey, cert.statement) :: s.made
          issued := ⟨ca.trustRoot.publicKey, cert, nowMs, request.ttlSecs⟩ :: s.issued })

/-- `CertificateAuthority::new` of a process that starts. It panics when the authority cannot be
made. -/
def startRelay (s : CertifiedRun) (trustRoot serverKeyPair : KeyPair) (draw : Bytes) :
    CertifiedRun :=
  match CertificateAuthority.fromTrustRoot d trustRoot serverKeyPair draw with
  | .error _ => s
  | .ok ca => { s with
      authorities := ca :: s.authorities
      made := (trustRoot.publicKey, ca.serverCertificate.statement) :: s.made }

def receive (s : CertifiedRun) (envelope : MessageEnvelope) (trustRoot : IdentityKey)
    (localUuid : String) (localDeviceId : UInt32) (peerId : Option String) (nowMs : UInt64)
    (draw : Bytes) : SignalStore × Except ReceiveError SealedSenderPlaintext :=
  match peerId with
  | none => s.device.store.decryptSealed d envelope trustRoot localUuid localDeviceId nowMs draw
  | some peerId => s.device.store.decryptSealedVerified c d hmac envelope trustRoot localUuid
      localDeviceId s.device.trust peerId nowMs draw

def step (s : CertifiedRun) : CertifiedLabel → CertifiedRun
  | .startRelay trustRoot serverKeyPair draw => s.startRelay d trustRoot serverKeyPair draw
  | .issue userId request nowMs draw => (s.postCert d codec userId request nowMs draw).2
  | .recordVerified peerId fingerprint =>
    { s with device := { s.device with trust := s.device.trust.recordVerified peerId fingerprint } }
  | .forgetVerification peerId =>
    { s with device := { s.device with trust := s.device.trust.forgetVerification peerId } }
  | .receive envelope trustRoot localUuid localDeviceId peerId nowMs draw =>
    { s with device := { s.device with
      store := (s.receive c d hmac envelope trustRoot localUuid localDeviceId peerId nowMs draw).1 } }

/-- The keys of the authorities. -/
def keys (s : CertifiedRun) : List IdentityKey :=
  s.authorities.flatMap fun ca => [ca.trustRoot.publicKey, ca.serverKeyPair.publicKey]

/-- Generated keys are new, and nobody signs with a key of an authority but the authority. -/
def Honest (s : CertifiedRun) : CertifiedLabel → Prop
  | .startRelay trustRoot serverKeyPair _ =>
    trustRoot.publicKey ≠ serverKeyPair.publicKey ∧ trustRoot.publicKey ∉ s.keys ∧
      serverKeyPair.publicKey ∉ s.keys
  | .receive envelope _ _ _ _ _ _ => ∀ cert ∈ d.embedded s.device.store envelope.ciphertext,
    Delegation.Unforged (fun key m signature => d.verify key m signature = true)
      (fun key m => (key, m) ∈ s.made) {key | key ∈ s.keys} cert.links
  | _ => True

/-- What is returned at `nowMs` to a client that trusts one of the relay's roots comes with a
certificate that the process with this root has issued to the sender, at most seven days before. -/
def Certified (s : CertifiedRun) : CertifiedLabel → Prop
  | .receive envelope trustRoot localUuid localDeviceId peerId nowMs draw =>
    (∃ ca ∈ s.authorities, ca.trustRoot.publicKey = trustRoot) →
      ∀ plaintext, (s.receive c d hmac envelope trustRoot localUuid localDeviceId peerId nowMs
        draw).2 = .ok plaintext →
        ∃ issue ∈ s.issued, issue.trustRoot = trustRoot ∧
          issue.cert.senderUuid = plaintext.senderUuid ∧
          issue.cert.deviceId = plaintext.deviceId ∧
          nowMs.toNat ≤ issue.atMs + min issue.ttlSecs.toNat maxSenderCertTtl * 1000
  | _ => True

/-- What is returned for a verified peer comes from a sender with the key that was verified. -/
def Pinned (K : Set IdentityKey) (own : IdentityKey) (s : CertifiedRun) : CertifiedLabel → Prop
  | .receive envelope trustRoot localUuid localDeviceId (some peerId) nowMs draw =>
    ∀ k ∈ K, s.device.trust.verifiedFingerprint peerId =
        some (Fingerprint.compute hmac own.toList k.toList) →
      ∀ store plaintext, s.receive c d hmac envelope trustRoot localUuid localDeviceId (some peerId)
          nowMs draw = (store, .ok plaintext) →
        ∃ key, store.getIdentity ⟨plaintext.senderUuid, plaintext.deviceId⟩ = some key ∧
          (key ∈ K → key = k)
  | _ => True

/-- What holds of the keys and their signatures in every state. -/
structure Inv (own : IdentityKey) (s : CertifiedRun) : Prop where
  server : ∀ key m, (key, m) ∈ s.made → ∀ key', m.names = some key' →
    ∃ ca ∈ s.authorities, ca.trustRoot.publicKey = key ∧ ca.serverKeyPair.publicKey = key'
  sender : ∀ key (cert : SenderCertificate), (key, cert.statement) ∈ s.made →
    ∃ ca ∈ s.authorities, ca.serverKeyPair.publicKey = key ∧
      ∃ issue ∈ s.issued, issue.trustRoot = ca.trustRoot.publicKey ∧
        issue.cert.statement = cert.statement
  root_unique : ∀ ca ∈ s.authorities, ∀ ca' ∈ s.authorities,
    ca.serverKeyPair.publicKey = ca'.serverKeyPair.publicKey →
      ca.trustRoot.publicKey = ca'.trustRoot.publicKey
  expires : ∀ issue ∈ s.issued, issue.cert.expirationMs.toNat ≤
    issue.atMs + min issue.ttlSecs.toNat maxSenderCertTtl * 1000
  identity : ∃ pair, s.device.store.identityKeyPair = some pair ∧ pair.identityKey = own

section Steps

variable {c d codec hmac} {s : CertifiedRun} {own : IdentityKey} {K : Set IdentityKey}

lemma mem_keys_root {ca : CertificateAuthority} (h : ca ∈ s.authorities) :
    ca.trustRoot.publicKey ∈ s.keys :=
  List.mem_flatMap.mpr ⟨ca, h, List.mem_cons_self⟩

lemma mem_keys_server {ca : CertificateAuthority} (h : ca ∈ s.authorities) :
    ca.serverKeyPair.publicKey ∈ s.keys :=
  List.mem_flatMap.mpr ⟨ca, h, List.mem_cons_of_mem _ List.mem_cons_self⟩

lemma postCert_cases (s : CertifiedRun) (userId : String) (request : IssueSenderCertRequest)
    (nowMs : ℕ) (draw : Bytes) :
    (s.postCert d codec userId request nowMs draw).2 = s ∨
      ∃ ca ∈ s.authorities, ∃ identityKey cert,
        issueSenderCertificate d ca userId identityKey request.deviceId request.ttlSecs nowMs
          draw = .ok cert ∧
        (s.postCert d codec userId request nowMs draw).2 = { s with
          made := (ca.serverKeyPair.publicKey, cert.statement) :: s.made
          issued := ⟨ca.trustRoot.publicKey, cert, nowMs, request.ttlSecs⟩ :: s.issued } := by
  unfold postCert
  split
  · exact Or.inl rfl
  · rename_i ca rest hauthorities
    split
    · exact Or.inl rfl
    · rename_i identityKey hkey
      split
      · exact Or.inl rfl
      · rename_i cert hissue
        exact Or.inr ⟨ca, hauthorities ▸ List.mem_cons_self, identityKey, cert, hissue, rfl⟩

lemma Inv.startRelay (h : s.Inv own) {trustRoot serverKeyPair : KeyPair}
    (hserver : serverKeyPair.publicKey ∉ s.keys) (draw : Bytes) :
    (s.startRelay d trustRoot serverKeyPair draw).Inv own := by
  unfold CertifiedRun.startRelay
  cases hca : CertificateAuthority.fromTrustRoot d trustRoot serverKeyPair draw with
  | error e => exact h
  | ok new =>
    obtain ⟨rfl, rfl, hkey⟩ := CertificateAuthority.fromTrustRoot_eq_ok hca
    refine ⟨?_, ?_, ?_, h.expires, h.identity⟩
    · intro key m hmade key' hnames
      rcases List.mem_cons.mp hmade with heq | hmade
      · obtain ⟨rfl, rfl⟩ := Prod.mk.inj heq
        exact ⟨new, List.mem_cons_self, rfl, hkey.symm.trans (Option.some.inj hnames)⟩
      · obtain ⟨ca, hmem, hkeys⟩ := h.server key m hmade key' hnames
        exact ⟨ca, List.mem_cons_of_mem _ hmem, hkeys⟩
    · intro key cert hmade
      rcases List.mem_cons.mp hmade with heq | hmade
      · cases heq
      · obtain ⟨ca, hmem, hsigned⟩ := h.sender key cert hmade
        exact ⟨ca, List.mem_cons_of_mem _ hmem, hsigned⟩
    · intro ca hmem ca' hmem' hsame
      rcases List.mem_cons.mp hmem with rfl | hold <;> rcases List.mem_cons.mp hmem' with rfl | hold'
      · rfl
      · exact absurd (hsame ▸ mem_keys_server hold') hserver
      · exact absurd (hsame ▸ mem_keys_server hold) hserver
      · exact h.root_unique ca hold ca' hold' hsame

lemma Inv.postCert (h : s.Inv own) (userId : String) (request : IssueSenderCertRequest) (nowMs : ℕ)
    (draw : Bytes) : (s.postCert d codec userId request nowMs draw).2.Inv own := by
  rcases postCert_cases s userId request nowMs draw with
    heq | ⟨ca, hca, identityKey, cert, hcert, heq⟩
  · rwa [heq]
  · rw [heq]
    refine ⟨?_, ?_, h.root_unique, ?_, h.identity⟩
    · intro key m hmade key' hnames
      rcases List.mem_cons.mp hmade with hnew | hmade
      · obtain ⟨-, rfl⟩ := Prod.mk.inj hnew
        cases hnames
      · exact h.server key m hmade key' hnames
    · intro key cert hmade
      rcases List.mem_cons.mp hmade with hnew | hmade
      · obtain ⟨rfl, hstatement⟩ := Prod.mk.inj hnew
        exact ⟨ca, hca, rfl, _, List.mem_cons_self, rfl, hstatement.symm⟩
      · obtain ⟨ca', hca', hkey, issue, hissue, hsame⟩ := h.sender key cert hmade
        exact ⟨ca', hca', hkey, issue, List.mem_cons_of_mem _ hissue, hsame⟩
    · intro issue hissue
      rcases List.mem_cons.mp hissue with rfl | hissue
      · exact CertificateAuthority.toNat_expirationMs_le hcert
      · exact h.expires issue hissue

lemma inv_step (hd : d.Lawful) (s : CertifiedRun) (a : CertifiedLabel) (h : s.Inv own)
    (ha : s.Honest d a) : (step c d codec hmac s a).Inv own := by
  cases a with
  | startRelay trustRoot serverKeyPair draw => exact h.startRelay ha.2.2 draw
  | issue userId request nowMs draw => exact h.postCert userId request nowMs draw
  | recordVerified peerId fingerprint => exact ⟨h.server, h.sender, h.root_unique, h.expires, h.identity⟩
  | forgetVerification peerId => exact ⟨h.server, h.sender, h.root_unique, h.expires, h.identity⟩
  | receive envelope trustRoot localUuid localDeviceId peerId nowMs draw =>
    refine ⟨h.server, h.sender, h.root_unique, h.expires, ?_⟩
    obtain ⟨pair, hpair, hown⟩ := h.identity
    refine ⟨pair, ?_, hown⟩
    rw [← hpair]
    cases peerId with
    | none => exact SignalStore.identityKeyPair_decryptSealed hd _ _ _ _ _ _ _
    | some peerId => exact SignalStore.identityKeyPair_decryptSealedVerified hd

/-- A certificate that validates under a root of the relay was issued under this root, and has not
expired. -/
lemma Inv.issued_of_validate (h : s.Inv own) (hd : d.Lawful) {cert : SenderCertificate}
    (hunforged : Delegation.Unforged (fun key m signature => d.verify key m signature = true)
      (fun key m => (key, m) ∈ s.made) {key | key ∈ s.keys} cert.links)
    {ca : CertificateAuthority} (hca : ca ∈ s.authorities) {nowMs : UInt64}
    (hvalid : d.validate cert ca.trustRoot.publicKey nowMs = .ok true) :
    ∃ issue ∈ s.issued, issue.trustRoot = ca.trustRoot.publicKey ∧
      issue.cert.senderUuid = cert.senderUuid ∧ issue.cert.deviceId = cert.deviceId ∧
      nowMs.toNat ≤ issue.atMs + min issue.ttlSecs.toNat maxSenderCertTtl * 1000 := by
  obtain ⟨hverifies, hnow⟩ := hd.validate_true cert _ nowMs hvalid
  have hclosed : Delegation.Closed (fun key m => (key, m) ∈ s.made) Statement.names
      {key | key ∈ s.keys} := by
    intro key _ m hmade key' hnames
    obtain ⟨ca', hca', -, rfl⟩ := h.server key m hmade key' hnames
    exact mem_keys_server hca'
  obtain ⟨hserver, key, hnames, hsender⟩ := Delegation.made_of_verifies hclosed (mem_keys_root hca)
    hunforged hverifies
  obtain ⟨ca₁, hca₁, hroot₁, hkey₁⟩ := h.server _ _ hserver key hnames
  obtain ⟨ca₂, hca₂, hkey₂, issue, hissue, hroot₂, hstatement⟩ := h.sender key cert hsender
  have hroots := h.root_unique ca₁ hca₁ ca₂ hca₂ (hkey₁.trans hkey₂.symm)
  have hexpires := h.expires issue hissue
  unfold SenderCertificate.statement at hstatement
  obtain ⟨huuid, -, hdevice, hexpiration, -⟩ := Statement.sender.inj hstatement
  rw [hexpiration] at hexpires
  exact ⟨issue, hissue, hroot₂.trans (hroots.symm.trans hroot₁), huuid, hdevice,
    (UInt64.le_iff_toNat_le.mp hnow).trans hexpires⟩

lemma receive_eq_ok {envelope : MessageEnvelope} {trustRoot : IdentityKey} {localUuid : String}
    {localDeviceId : UInt32} {peerId : Option String} {nowMs : UInt64} {draw : Bytes}
    {plaintext : SealedSenderPlaintext}
    (h : (s.receive c d hmac envelope trustRoot localUuid localDeviceId peerId nowMs draw).2 =
      .ok plaintext) :
    ∃ store, d.sealedSenderDecrypt s.device.store envelope.ciphertext trustRoot nowMs localUuid
      localDeviceId draw = (store, .ok plaintext) := by
  cases peerId with
  | none => exact ⟨_, SignalStore.decryptSealed_eq_ok (Prod.ext rfl h)⟩
  | some peerId =>
    exact ⟨_, SignalStore.decryptSealed_eq_ok
      (SignalStore.decryptSealedVerified_eq_ok (Prod.ext rfl h)).1⟩

lemma Inv.certified (h : s.Inv own) (hd : d.Lawful) {a : CertifiedLabel} (ha : s.Honest d a) :
    s.Certified c d hmac a := by
  cases a with
  | receive envelope trustRoot localUuid localDeviceId peerId nowMs draw =>
    rintro ⟨ca, hca, rfl⟩ plaintext hok
    obtain ⟨store, hdecrypt⟩ := receive_eq_ok hok
    obtain ⟨cert, hcert, hvalid, huuid, hdevice⟩ := hd.decrypt_ok _ _ _ _ _ _ _ _ _ hdecrypt
    obtain ⟨issue, hissue, hroot, huuid', hdevice', hnow⟩ :=
      h.issued_of_validate hd (ha cert hcert) hca hvalid
    exact ⟨issue, hissue, hroot, huuid'.trans huuid.symm, hdevice'.trans hdevice.symm, hnow⟩
  | _ => trivial

lemma Inv.pinned (h : s.Inv own) (hinj : TrustState.InjectiveOn hmac K) (hown : own ∈ K)
    (a : CertifiedLabel) : s.Pinned c d hmac K own a := by
  cases a with
  | receive envelope trustRoot localUuid localDeviceId peerId nowMs draw =>
    cases peerId with
    | none => trivial
    | some peerId =>
      intro k hk hverified store plaintext hreceive
      obtain ⟨-, pair, key, hpair, hkey, hcheck⟩ :=
        SignalStore.decryptSealedVerified_eq_ok hreceive
      refine ⟨key, hkey, fun hmem => ?_⟩
      obtain ⟨pair', hpair', rfl⟩ := h.identity
      obtain rfl := Option.some.inj (hpair.symm.trans hpair')
      unfold checkIdentity at hcheck
      rw [hverified] at hcheck
      dsimp only at hcheck
      split at hcheck
      · rename_i hsame
        exact Sym2.congr_right.mp ((TrustState.compute_eq_iff hinj hown hmem hown hk).mp hsame)
      · cases hcheck
  | _ => trivial

/-- Whatever anyone requests of the relay and composes: mail that a client accepts under a root of
the relay carries a certificate that the process with this root has issued to the sender no longer
than the cap before, and what it returns for a verified peer comes with the verified key. -/
theorem sealed_mail_certified (c : SessionCrates) {d : SealedCrates} (hd : d.Lawful)
    (codec : CertCodec) {hmac : Hmac} {K : Set IdentityKey} (hinj : TrustState.InjectiveOn hmac K)
    (start : TrustState) (pair : IdentityKeyPair) (hpair : start.store.identityKeyPair = some pair)
    (hown : pair.identityKey ∈ K) (labels : List CertifiedLabel)
    (hhonest : EveryStep (step c d codec hmac) (Honest d) { device := start } labels) :
    EveryStep (step c d codec hmac)
      (fun s a => s.Certified c d hmac a ∧ s.Pinned c d hmac K pair.identityKey a)
      { device := start } labels := by
  have hstart : Inv pair.identityKey { device := start } := by
    refine ⟨?_, ?_, ?_, ?_, ⟨pair, hpair, rfl⟩⟩
    · intro key m hmade
      cases hmade
    · intro key cert hmade
      cases hmade
    · intro ca hca
      cases hca
    · intro issue hissue
      cases hissue
  have hinv : EveryState (step c d codec hmac) (Inv pair.identityKey) { device := start } labels :=
    everyState_of_everyStep (fun s a h ha => inv_step hd s a h ha) hstart hhonest
  exact (hinv.everyStep.and hhonest).mono fun s a h =>
    ⟨h.1.certified hd h.2, h.1.pinned hinj hown a⟩

end Steps

section OneSender

open TrustState Directory

def sampleKeyPair (b : UInt8) : KeyPair := ⟨sampleKey b, List.Vector.replicate 32 b⟩

/-- The bytes that a signature covers, a key by its last byte. -/
def statementBytes : Statement → Bytes
  | .server keyId key => [0, keyId.toUInt8, key.toList.getLastD 0]
  | .sender senderUuid key deviceId expirationMs signer =>
    [1, key.toList.getLastD 0, deviceId.toUInt8, signer.keyId.toUInt8] ++
      Codec.beBytes 8 expirationMs.toNat ++ Utf8.encode senderUuid

def sampleSign (privateKey : Bytes32) (m : Statement) : Bytes :=
  privateKey.toList.getLastD 0 :: statementBytes m

def sampleVerify (key : IdentityKey) (m : Statement) (signature : Bytes) : Bool :=
  signature = key.toList.getLastD 0 :: statementBytes m

def sampleValidate (cert : SenderCertificate) (root : IdentityKey) (nowMs : UInt64) : Bool :=
  sampleVerify root cert.signer.statement cert.signer.signature &&
    sampleVerify cert.signer.key cert.statement cert.signature && nowMs ≤ cert.expirationMs

/-- The certificate that alice is issued for an hour at 1000. -/
def aliceCert : SenderCertificate :=
  let signer : ServerCertificate :=
    ⟨1, sampleKey 9, sampleSign (List.Vector.replicate 32 8) (.server 1 (sampleKey 9))⟩
  ⟨"alice", sampleKey 2, 1, 3601000, signer, sampleSign (List.Vector.replicate 32 9)
    (.sender "alice" (sampleKey 2) 1 3601000 signer)⟩

/-- `libsignal` where the one ciphertext is alice's, and keeps the key of her certificate. -/
def oneSealed : SealedCrates where
  sign privateKey m _ := .ok (sampleSign privateKey m)
  verify := sampleVerify
  validate cert root nowMs := .ok (sampleValidate cert root nowMs)
  embedded _ ciphertext := if ciphertext = [7] then some aliceCert else none
  sealedSenderDecrypt store ciphertext root nowMs _ _ _ :=
    if ciphertext = [7] ∧ sampleValidate aliceCert root nowMs = true then
      ((store.saveIdentity ⟨"alice", 1⟩ aliceCert.key).2, .ok ⟨"alice", 1, asciiBytes "hi"⟩)
    else (store, .error "invalid sealed sender message")

lemma lawful_oneSealed : oneSealed.Lawful where
  validate_true cert root nowMs h := by
    have hvalid : sampleValidate cert root nowMs = true := Except.ok.inj h
    unfold sampleValidate at hvalid
    rw [Bool.and_eq_true, Bool.and_eq_true, decide_eq_true_iff] at hvalid
    exact ⟨⟨hvalid.1.1, cert.signer.key, rfl, hvalid.1.2⟩, hvalid.2⟩
  decrypt_ok store ciphertext root nowMs localUuid localDeviceId draw store' plaintext h := by
    change (if ciphertext = [7] ∧ sampleValidate aliceCert root nowMs = true then _ else _) = _ at h
    split at h
    · rename_i hvalid
      obtain ⟨-, hplaintext⟩ := Prod.mk.inj h
      obtain rfl := Except.ok.inj hplaintext
      exact ⟨aliceCert, if_pos hvalid.1, congrArg Except.ok hvalid.2, rfl, rfl⟩
    · obtain ⟨-, herror⟩ := Prod.mk.inj h
      cases herror
  decrypt_identity store ciphertext root nowMs localUuid localDeviceId draw := by
    dsimp only [oneSealed]
    split <;> rfl

def sampleCodec : CertCodec where
  b64 := standardBase64
  publicKey bytes := if h : bytes.length = 33 then some ⟨bytes, h⟩ else none
  serialized cert := some (statementBytes cert.statement ++ cert.signature)

def bobDevice : TrustState :=
  ⟨{ identityKeyPair := some ⟨sampleKey 1, List.Vector.replicate 32 1⟩, registrationId := 7 }, {}⟩

def sealedEnvelope : MessageEnvelope where
  senderId := ""
  recipientId := "bob"
  ciphertext := [7]
  envelopeType := .sealedSender
  timestampMs := 2000
  version := envelopeVersionV2
  sealedSender := true

/-- Alice is issued a certificate and has her key verified, and her mail is received. -/
def aliceToBob : List CertifiedLabel :=
  [.startRelay (sampleKeyPair 8) (sampleKeyPair 9) [],
    .issue "alice" ⟨base64 (sampleKey 2).toList, 1, 3600⟩ 1000 [],
    .recordVerified "alice" (Fingerprint.compute Sha256.hmac (sampleKey 1).toList (sampleKey 2).toList),
    .receive sealedEnvelope (sampleKey 8) "bob" 1 (some "alice") 2000 []]

example : ((run (step pinFirstUse oneSealed sampleCodec Sha256.hmac) { device := bobDevice }
    (aliceToBob.take 3)).receive pinFirstUse oneSealed Sha256.hmac sealedEnvelope (sampleKey 8) "bob" 1
      (some "alice") 2000 []).2.toOption = some ⟨"alice", 1, asciiBytes "hi"⟩ := by decide +kernel

theorem sealed_mail_certified_aliceToBob :
    EveryStep (step pinFirstUse oneSealed sampleCodec Sha256.hmac)
      (fun s a => s.Certified pinFirstUse oneSealed Sha256.hmac a ∧
        s.Pinned pinFirstUse oneSealed Sha256.hmac sampleKeys (sampleKey 1) a)
      { device := bobDevice } aliceToBob := by
  have hkeys : (run (step pinFirstUse oneSealed sampleCodec Sha256.hmac) { device := bobDevice }
      (aliceToBob.take 3)).keys = [sampleKey 8, sampleKey 9] := by decide +kernel
  have hunforged : ∀ key ∈ (run (step pinFirstUse oneSealed sampleCodec Sha256.hmac)
      { device := bobDevice } (aliceToBob.take 3)).keys, ∀ link ∈ aliceCert.links,
      sampleVerify key link.1 link.2 = true → (key, link.1) ∈ (run (step pinFirstUse oneSealed
        sampleCodec Sha256.hmac) { device := bobDevice } (aliceToBob.take 3)).made := by
    rw [hkeys, List.forall_mem_cons, List.forall_mem_singleton]
    exact ⟨by decide +kernel, by decide +kernel⟩
  have hhonest : EveryStep (step pinFirstUse oneSealed sampleCodec Sha256.hmac) (Honest oneSealed)
      { device := bobDevice } aliceToBob := by
    refine ⟨⟨by decide +kernel, by decide +kernel, by decide +kernel⟩, trivial, trivial, ?_, trivial⟩
    intro cert hcert
    obtain rfl := Option.some.inj (show some aliceCert = some cert from hcert)
    exact hunforged
  exact sealed_mail_certified pinFirstUse lawful_oneSealed sampleCodec injectiveOn_sampleKeys bobDevice
    ⟨sampleKey 1, List.Vector.replicate 32 1⟩ rfl (Or.inl rfl) aliceToBob hhonest

end OneSender

end CertifiedRun

end Parda.Server
