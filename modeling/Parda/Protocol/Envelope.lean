import Mathlib.Data.Vector.Basic

/-!
# Wire envelopes

The data model of `protocol/src/envelope.rs` and the errors of `protocol/src/error.rs`
that the modelled functions return, with the third-party crates the workspace calls as
parameters.
-/

namespace Parda

abbrev Bytes := List UInt8

/-- A `[u8; 32]`. -/
abbrev Bytes32 := List.Vector UInt8 32

/-- The bytes of an ASCII string literal. -/
def asciiBytes (s : String) : Bytes :=
  s.toList.map (fun ch => UInt8.ofNat ch.toNat)

/-- `u64::MAX`. -/
def u64Max : ℕ := 2 ^ 64 - 1

namespace Protocol

/-- `PardaError`, restricted to the variants a modelled function returns. -/
inductive PardaError where
  | signal (message : String)
  | keyGeneration (message : String)
  | transport (message : String)
  | mixRouting (message : String)
  | codec (message : String)
  | selfDestructExpired
  | clockRollbackDetected (observedMs watermarkMs : UInt64)
  | selfDestructCrypto (message : String)
  | identityKeyChangedAfterVerification (peerId verifiedFingerprint observedFingerprint : String)
deriving DecidableEq, Repr

/-- The texts of `#[error]`. -/
def PardaError.display : PardaError → String
  | .signal message => "Signal protocol error: " ++ message
  | .keyGeneration message => "Key generation failed: " ++ message
  | .transport message => "Transport error: " ++ message
  | .mixRouting message => "Mix routing error: " ++ message
  | .codec message => "Envelope codec error: " ++ message
  | .selfDestructExpired => "Self-destructing message has already expired — key material is gone"
  | .clockRollbackDetected observedMs watermarkMs =>
    "Clock rollback detected: observed " ++ toString observedMs ++ "ms, last known-good was " ++
      toString watermarkMs ++ "ms"
  | .selfDestructCrypto message => "Self-destruct AEAD error: " ++ message
  | .identityKeyChangedAfterVerification peerId verifiedFingerprint observedFingerprint =>
    "Identity key for peer " ++ peerId ++ " changed after out-of-band verification: verified " ++
      verifiedFingerprint ++ ", now observing " ++ observedFingerprint

inductive EnvelopeType where
  | preKey
  | ratchet
  | sealedSender
deriving DecidableEq, Repr

def envelopeVersionV1 : UInt8 := 1
def envelopeVersionV2 : UInt8 := 2

/-- The envelope every transport carries. -/
structure MessageEnvelope where
  senderId : String
  recipientId : String
  ciphertext : Bytes
  envelopeType : EnvelopeType
  timestampMs : UInt64
  version : UInt8 := envelopeVersionV1
  sealedSender : Bool
  routingHint : Option Bytes := none
  selfDestructAt : Option UInt64 := none
  readTriggeredDestruct : Bool := false
  deadDropAddress : Option Bytes32 := none
deriving DecidableEq

/-- The fields `bp7` reads and writes in a primary block: the printed destination
endpoint, the creation time and the lifetime, both in milliseconds. -/
structure PrimaryBlock where
  destination : List Char
  creationTimestamp : UInt64
  lifetime : UInt64
deriving DecidableEq

/-- A `bp7::Bundle`: its primary block and, when there is one, its payload block. -/
structure Bundle where
  primary : PrimaryBlock
  payload : Option Bytes
deriving DecidableEq

/-- The third-party crates: `x25519-dalek`, `hkdf` with `sha2` and no salt, `sha2`,
`serde_json` on envelopes, and `bp7`. What the code relies on is stated where it is used. -/
structure Crates where
  x25519Public : Bytes32 → Bytes32
  x25519 : Bytes32 → Bytes32 → Bytes32
  hkdfSha256 : Bytes → Bytes → Bytes32
  sha256 : Bytes → Bytes32
  envelopeToJson : MessageEnvelope → Except String Bytes
  envelopeFromJson : Bytes → Except String MessageEnvelope
  eidWithDtn : List Char → Except String (List Char)
  primaryBuild : PrimaryBlock → Except String PrimaryBlock
  bundleToCbor : Bundle → Bytes
  bundleFromCbor : Bytes → Except String Bundle

end Protocol

end Parda
