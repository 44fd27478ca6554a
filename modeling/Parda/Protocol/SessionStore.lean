import Parda.Lib.Text
import Parda.Protocol.Trust

/-!
# The session store

Model of the session and identity operations of `InMemorySignalProtocolStore` of
`protocol/src/store.rs`, and of `burn_conversation` of `protocol/src/session.rs`.
-/

namespace Parda.Protocol

/-- What a burn removed. -/
structure SessionBurnResult where
  sessionRemoved : Bool
  identityTrustRemoved : Bool
deriving DecidableEq

namespace SignalStore

/-- A store with an identity and nothing else. -/
def new (identityKeyPair : IdentityKeyPair) (registrationId : UInt32) : SignalStore where
  identityKeyPair := some identityKeyPair
  registrationId := registrationId

def loadSession (store : SignalStore) (address : ProtocolAddress) : Option Bytes :=
  store.sessions address.key

def storeSession (store : SignalStore) (address : ProtocolAddress) (record : Bytes) : SignalStore :=
  { store with sessions := Function.update store.sessions address.key (some record) }

/-- Whether the identity is new or has changed, and the store that trusts it. -/
def saveIdentity (store : SignalStore) (address : ProtocolAddress) (identity : IdentityKey) :
    Bool × SignalStore :=
  (((store.trustedIdentities address.key).map fun existing => decide (existing ≠ identity)).getD true,
    { store with
      trustedIdentities := Function.update store.trustedIdentities address.key (some identity) })

/-- Trust on first use. -/
def isTrustedIdentity (store : SignalStore) (address : ProtocolAddress) (identity : IdentityKey) :
    Bool :=
  ((store.trustedIdentities address.key).map fun stored => decide (stored = identity)).getD true

def getIdentity (store : SignalStore) (address : ProtocolAddress) : Option IdentityKey :=
  store.trustedIdentities address.key

def burnSession (store : SignalStore) (address : ProtocolAddress) :
    SessionBurnResult × SignalStore :=
  (⟨(store.sessions address.key).isSome, (store.trustedIdentities address.key).isSome⟩,
    { store with
      sessions := Function.update store.sessions address.key none
      trustedIdentities := Function.update store.trustedIdentities address.key none })

def hasConversationState (store : SignalStore) (address : ProtocolAddress) : Bool :=
  (store.sessions address.key).isSome || (store.trustedIdentities address.key).isSome

/-- `burn_conversation` of the session manager. -/
def burnConversation (store : SignalStore) (remoteAddress : ProtocolAddress) :
    SessionBurnResult × SignalStore :=
  store.burnSession remoteAddress

end SignalStore

/-- The device number stands after the last point. -/
lemma eq_of_append_point {name name' digits digits' : List Char} (hdigits : '.' ∉ digits)
    (hdigits' : '.' ∉ digits') (h : name ++ '.' :: digits = name' ++ '.' :: digits') :
    name = name' ∧ digits = digits' := by
  have htail : ∀ (name digits : List Char), '.' ∉ digits →
      (name ++ '.' :: digits).reverse.takeWhile (· ≠ '.') = digits.reverse := by
    intro name digits hnot
    have hall : ∀ ch ∈ digits.reverse, decide (ch ≠ '.') = true := by
      intro ch hch
      rw [decide_eq_true_eq]
      rintro rfl
      exact hnot (List.mem_reverse.mp hch)
    rw [List.reverse_append, List.reverse_cons, List.append_assoc,
      List.takeWhile_append_of_pos hall]
    simp
  have hsame : digits = digits' := by
    have hreverse := htail name digits hdigits
    rw [h, htail name' digits' hdigits'] at hreverse
    exact (List.reverse_injective hreverse).symm
  subst hsame
  exact ⟨List.append_cancel_right h, rfl⟩

/-- No two addresses share a key. -/
theorem ProtocolAddress.key_injective : Function.Injective ProtocolAddress.key := by
  intro address address' h
  have hpoint : ∀ n : ℕ, '.' ∉ Nat.toDigits 10 n := by
    intro n hmem
    have hdigit := Text.isDigit_of_mem_toDigits hmem
    revert hdigit
    decide
  have hkey : ∀ a : ProtocolAddress,
      a.key.toList = a.name.toList ++ '.' :: Nat.toDigits 10 a.deviceId.toNat := by
    intro a
    unfold ProtocolAddress.key
    rw [String.toList_append, String.toList_append, List.append_assoc]
    change _ ++ (['.'] ++ (Nat.repr a.deviceId.toNat).toList) = _
    rw [Nat.toList_repr]
    rfl
  have hlist := congrArg String.toList h
  rw [hkey, hkey] at hlist
  obtain ⟨hname, hdevice⟩ := eq_of_append_point (hpoint _) (hpoint _) hlist
  obtain ⟨name, deviceId⟩ := address
  obtain ⟨name', deviceId'⟩ := address'
  have hid : deviceId.toNat = deviceId'.toNat := Text.toDigits_injective hdevice
  rw [ProtocolAddress.mk.injEq]
  exact ⟨String.toList_inj.mp hname, UInt32.toNat_inj.mp hid⟩

namespace SignalStore

variable {store : SignalStore} {address address' : ProtocolAddress}

/-- A burn leaves nothing of its address. -/
lemma burnSession_eq : (store.burnSession address).2 = store.setRecords address.key ⟨none, none⟩ :=
  rfl

/-- It leaves the other addresses as they were. -/
lemma records_burnSession_of_ne (h : address' ≠ address) :
    (store.burnSession address).2.records address'.key = store.records address'.key := by
  have hne : address'.key ≠ address.key := fun heq => h (ProtocolAddress.key_injective heq)
  unfold burnSession records
  simp only [Function.update_of_ne hne]

end SignalStore

end Parda.Protocol
