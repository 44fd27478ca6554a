import Parda.Protocol.Envelope

/-!
# Identities and prekey bundles

Model of `protocol/src/identity.rs`, of the public halves of the key material. The
records are those of `libsignal-protocol`, given by the outcomes of their accessors, and
a public key is its serialised bytes.
-/

namespace Parda.Protocol

structure PreKeyRecord where
  id : Except String UInt32
  publicKey : Except String Bytes

structure SignedPreKeyRecord where
  id : Except String UInt32
  publicKey : Except String Bytes
  signature : Except String Bytes

def oneTimePrekeyBatch : ℕ := 100

structure LocalIdentity where
  registrationId : UInt32
  identityKey : Bytes
  signedPrekey : SignedPreKeyRecord
  oneTimePrekeys : List PreKeyRecord

structure PreKeyBundle where
  registrationId : UInt32
  deviceId : UInt32
  oneTimePrekey : Option (UInt32 × Bytes)
  signedPrekeyId : UInt32
  signedPrekeyPublic : Bytes
  signature : Bytes
  identityKey : Bytes
deriving DecidableEq

/-- `map_err` to `PardaError::KeyGeneration`. -/
def keyGeneration {α : Type} (result : Except String α) : Except PardaError α :=
  match result with
  | .ok a => .ok a
  | .error e => .error (.keyGeneration e)

/-- A chain of fallible steps that succeeds went through each of them. -/
lemma bind_eq_ok {ε α β : Type} {x : Except ε α} {f : α → Except ε β} {b : β} :
    x >>= f = .ok b ↔ ∃ a, x = .ok a ∧ f a = .ok b := by
  cases x with
  | error e => simp [Bind.bind, Except.bind]
  | ok a => simp [Bind.bind, Except.bind]

lemma keyGeneration_eq_ok {α : Type} {result : Except String α} {a : α} :
    keyGeneration result = .ok a ↔ result = .ok a := by
  cases result with
  | error e => simp [keyGeneration]
  | ok a' => simp [keyGeneration]

namespace LocalIdentity

/-- `generate`, with the public keys it draws and the signature over the signed prekey. -/
def generate (registrationId : UInt32) (identityKey signedPrekeyPublic signature : Bytes)
    (oneTimeKeys : ℕ → Bytes) : LocalIdentity where
  registrationId := registrationId
  identityKey := identityKey
  signedPrekey := ⟨.ok 1, .ok signedPrekeyPublic, .ok signature⟩
  oneTimePrekeys := (List.range oneTimePrekeyBatch).map
    (fun i => ⟨.ok (UInt32.ofNat i), .ok (oneTimeKeys i)⟩)

/-- The id and the key of the first one-time prekey of the pool, which stays in it. -/
def firstOneTimePrekey (identity : LocalIdentity) : Except PardaError (Option (UInt32 × Bytes)) :=
  match identity.oneTimePrekeys.head? with
  | none => .ok none
  | some pk => do
    let id ← keyGeneration pk.id
    let publicKey ← keyGeneration pk.publicKey
    pure (some (id, publicKey))

/-- `build_prekey_bundle`. What `PreKeyBundle::new` refuses is a parameter; otherwise it
records its arguments. -/
def buildPrekeyBundle (refuses : PreKeyBundle → Option String) (identity : LocalIdentity) :
    Except PardaError PreKeyBundle := do
  let oneTimePrekey ← identity.firstOneTimePrekey
  let signedPrekeyId ← keyGeneration identity.signedPrekey.id
  let signedPrekeyPublic ← keyGeneration identity.signedPrekey.publicKey
  let signature ← keyGeneration identity.signedPrekey.signature
  let bundle : PreKeyBundle :=
    { registrationId := identity.registrationId
      deviceId := 1
      oneTimePrekey := oneTimePrekey
      signedPrekeyId := signedPrekeyId
      signedPrekeyPublic := signedPrekeyPublic
      signature := signature
      identityKey := identity.identityKey }
  match refuses bundle with
  | some e => .error (.signal e)
  | none => .ok bundle

/-- The one-time prekey at the head of the pool. -/
def poolHead (identity : LocalIdentity) : Option Bytes :=
  match identity.oneTimePrekeys with
  | [] => none
  | pk :: _ => pk.publicKey.toOption

section Bundles

variable {identity : LocalIdentity}

lemma firstOneTimePrekey_eq_ok {prekey : Option (UInt32 × Bytes)}
    (h : identity.firstOneTimePrekey = .ok prekey) : prekey.map Prod.snd = identity.poolHead := by
  unfold firstOneTimePrekey at h
  unfold poolHead
  cases hpool : identity.oneTimePrekeys with
  | nil =>
    rw [hpool] at h
    cases h
    rfl
  | cons pk pool =>
    rw [hpool] at h
    simp only [List.head?_cons, bind_eq_ok, keyGeneration_eq_ok] at h
    obtain ⟨id, -, publicKey, hkey, heq⟩ := h
    cases heq
    simp [hkey, Except.toOption]

/-- A bundle carries the head of the pool it was built from. -/
theorem buildPrekeyBundle_oneTimePrekey {refuses : PreKeyBundle → Option String}
    {bundle : PreKeyBundle} (h : identity.buildPrekeyBundle refuses = .ok bundle) :
    bundle.oneTimePrekey.map Prod.snd = identity.poolHead := by
  simp only [buildPrekeyBundle, bind_eq_ok, keyGeneration_eq_ok] at h
  obtain ⟨prekey, hfirst, id, -, publicKey, -, signature, -, hnew⟩ := h
  split at hnew
  · cases hnew
  · cases hnew
    exact firstOneTimePrekey_eq_ok hfirst

end Bundles

end LocalIdentity

end Parda.Protocol
