import Parda.Lib.Table
import Parda.Lib.Text
import Parda.Protocol.Envelope

/-!
# The persistent Signal store

Model of `PersistentSignalStore.kt`, which keeps the records of an in-memory store of
`libsignal` in the preferences of the app as well. An edit of the preferences is applied
at once, and `prefs.all` lists the entries in any order.
-/

namespace Parda.Android

open Text

structure SignalProtocolAddress where
  name : String
  deviceId : Int32
deriving DecidableEq

/-- `serialize` and the constructor that reads it back. -/
structure RecordCodec (ρ : Type) where
  serialize : ρ → Bytes
  parse : Bytes → Option ρ

def RecordCodec.RoundTrips {ρ : Type} (codec : RecordCodec ρ) : Prop :=
  ∀ r, codec.parse (codec.serialize r) = some r

/-- The records of `libsignal` and its `InMemorySignalProtocolStore`. The getters return
what the store holds. -/
structure Libsignal where
  IdentityKeyPair : Type
  PreKeyRecord : Type
  SignedPreKeyRecord : Type
  SessionRecord : Type
  IdentityKey : Type
  identityKeyPair : RecordCodec IdentityKeyPair
  preKeyRecord : RecordCodec PreKeyRecord
  signedPreKeyRecord : RecordCodec SignedPreKeyRecord
  sessionRecord : RecordCodec SessionRecord
  identityKey : RecordCodec IdentityKey
  Store : Type
  inMemory : IdentityKeyPair → Int32 → Store
  storePreKey : Store → Int32 → PreKeyRecord → Store
  removePreKey : Store → Int32 → Store
  storeSignedPreKey : Store → Int32 → SignedPreKeyRecord → Store
  removeSignedPreKey : Store → Int32 → Store
  storeSession : Store → SignalProtocolAddress → SessionRecord → Store
  deleteSession : Store → SignalProtocolAddress → Store
  deleteAllSessions : Store → String → Store
  saveIdentity : Store → SignalProtocolAddress → IdentityKey → Store × Bool
  preKey : Store → Int32 → Option PreKeyRecord
  signedPreKey : Store → Int32 → Option SignedPreKeyRecord
  session : Store → SignalProtocolAddress → Option SessionRecord
  identity : Store → SignalProtocolAddress → Option IdentityKey

/-- `android.util.Base64` and the digits of the runtime's integer parser. -/
structure Platform where
  encodeBase64 : Bytes → String
  decodeBase64 : String → Option Bytes
  digit : Char → Option ℕ

structure Platform.Correct (a : Platform) : Prop where
  base64 : ∀ bytes, a.decodeBase64 (a.encodeBase64 bytes) = some bytes
  digits : AsciiDigits a.digit

/-- A place for a record. -/
inductive Place where
  | preKey (id : Int32)
  | signedPreKey (id : Int32)
  | session (address : SignalProtocolAddress)
  | identity (address : SignalProtocolAddress)
deriving DecidableEq

/-- The name that a place belongs to. -/
def Place.name : Place → Option String
  | .preKey _ | .signedPreKey _ => none
  | .session address | .identity address => some address.name

/-- A session under the name. -/
def Place.isSessionOf (name : String) : Place → Bool
  | .session address => address.name = name
  | _ => false

namespace Libsignal

/-- A record in its place. -/
inductive Placed (L : Libsignal) where
  | preKey (id : Int32) (record : L.PreKeyRecord)
  | signedPreKey (id : Int32) (record : L.SignedPreKeyRecord)
  | session (address : SignalProtocolAddress) (record : L.SessionRecord)
  | identity (address : SignalProtocolAddress) (key : L.IdentityKey)

def Placed.place {L : Libsignal} : L.Placed → Place
  | .preKey id _ => .preKey id
  | .signedPreKey id _ => .signedPreKey id
  | .session address _ => .session address
  | .identity address _ => .identity address

variable (L : Libsignal)

/-- What a store holds in a place. -/
def holds (store : L.Store) : Place → Option L.Placed
  | .preKey id => (L.preKey store id).map (.preKey id)
  | .signedPreKey id => (L.signedPreKey store id).map (.signedPreKey id)
  | .session address => (L.session store address).map (.session address)
  | .identity address => (L.identity store address).map (.identity address)

/-- The store operation that puts a record in its place. -/
def put (store : L.Store) : L.Placed → L.Store
  | .preKey id record => L.storePreKey store id record
  | .signedPreKey id record => L.storeSignedPreKey store id record
  | .session address record => L.storeSession store address record
  | .identity address key => (L.saveIdentity store address key).1

/-- The in-memory store is four maps, and records round-trip through `serialize`. -/
structure Correct : Prop where
  identityKeyPair : L.identityKeyPair.RoundTrips
  preKeyRecord : L.preKeyRecord.RoundTrips
  signedPreKeyRecord : L.signedPreKeyRecord.RoundTrips
  sessionRecord : L.sessionRecord.RoundTrips
  identityKey : L.identityKey.RoundTrips
  holds_inMemory : ∀ keyPair registrationId place, L.holds (L.inMemory keyPair registrationId) place = none
  holds_put : ∀ store placed place, L.holds (L.put store placed) place =
    if placed.place = place then some placed else L.holds store place
  holds_removePreKey : ∀ store id place, L.holds (L.removePreKey store id) place =
    if place = .preKey id then none else L.holds store place
  holds_removeSignedPreKey : ∀ store id place, L.holds (L.removeSignedPreKey store id) place =
    if place = .signedPreKey id then none else L.holds store place
  holds_deleteSession : ∀ store address place, L.holds (L.deleteSession store address) place =
    if place = .session address then none else L.holds store place
  holds_deleteAllSessions : ∀ store name place, L.holds (L.deleteAllSessions store name) place =
    if place.isSessionOf name then none else L.holds store place

end Libsignal

inductive PrefValue where
  | string (value : String)
  | int (value : Int32)
deriving DecidableEq

/-- Entries with distinct keys, which `SharedPreferences` lists in any order. -/
abbrev Prefs := List (String × PrefValue)

namespace Prefs

def putString (prefs : Prefs) (key value : String) : Prefs :=
  Table.upsert Prod.fst prefs (key, .string value)

def putInt (prefs : Prefs) (key : String) (value : Int32) : Prefs :=
  Table.upsert Prod.fst prefs (key, .int value)

def remove (prefs : Prefs) (key : String) : Prefs := Table.deleteKey Prod.fst prefs key

def getString (prefs : Prefs) (key : String) : Option String :=
  match prefs.find? (fun entry => entry.1 = key) with
  | some (_, .string value) => some value
  | _ => none

def getInt (prefs : Prefs) (key : String) (default : Int32) : Int32 :=
  match prefs.find? (fun entry => entry.1 = key) with
  | some (_, .int value) => value
  | _ => default

/-- The editor that removes every key with a given start. -/
def removeStarting (prefs : Prefs) (start : String) : Prefs :=
  ((prefs.map Prod.fst).filter (fun key => startsWith key.toList start.toList)).foldl remove prefs

end Prefs

def keyIdentity : String := "identity_key_pair"
def keyRegistrationId : String := "registration_id"
def keyLocalUserId : String := "local_user_id"
def prekeyStart : String := "prekey_"
def signedPrekeyStart : String := "signed_prekey_"
def sessionStart : String := "session_"
def trustedIdentityStart : String := "identity_"

def addressKey (start : String) (address : SignalProtocolAddress) : String :=
  start ++ address.name ++ "::" ++ toString address.deviceId.toInt

def preKeyKey (start : String) (id : Int32) : String := start ++ toString id.toInt

structure PersistentSignalStore (L : Libsignal) where
  prefs : Prefs
  delegate : L.Store

namespace PersistentSignalStore

variable (a : Platform) (L : Libsignal)

def parseAddress (encoded : List Char) : Option SignalProtocolAddress :=
  match lastIndexOf [':', ':'] encoded with
  | none => none
  | some idx =>
    match toIntOrNull a.digit (encoded.drop (idx + 2)) with
    | none => none
    | some deviceId => some ⟨String.ofList (encoded.take idx), deviceId⟩

/-- A record from a preference, if it reads as one. -/
def decodeRecord {ρ : Type} (codec : RecordCodec ρ) (blob : String) : Option ρ :=
  (a.decodeBase64 blob).bind codec.parse

/-- The `when` of `restoreInto`. An exception drops the entry. -/
def restoreEntry (target : L.Store) (entry : String × PrefValue) : L.Store :=
  match entry with
  | (_, .int _) => target
  | (key, .string blob) =>
    let s := key.toList
    if startsWith s prekeyStart.toList then
      match toIntOrNull a.digit (s.drop prekeyStart.length), decodeRecord a L.preKeyRecord blob with
      | some id, some record => L.storePreKey target id record
      | _, _ => target
    else if startsWith s signedPrekeyStart.toList then
      match toIntOrNull a.digit (s.drop signedPrekeyStart.length),
        decodeRecord a L.signedPreKeyRecord blob with
      | some id, some record => L.storeSignedPreKey target id record
      | _, _ => target
    else if startsWith s sessionStart.toList then
      match parseAddress a (s.drop sessionStart.length), decodeRecord a L.sessionRecord blob with
      | some address, some record => L.storeSession target address record
      | _, _ => target
    else if startsWith s trustedIdentityStart.toList then
      match parseAddress a (s.drop trustedIdentityStart.length), decodeRecord a L.identityKey blob with
      | some address, some key => (L.saveIdentity target address key).1
      | _, _ => target
    else target

/-- `all` is the order in which the preferences are listed. -/
def restoreInto (all : Prefs) (target : L.Store) : L.Store :=
  all.foldl (restoreEntry a L) target

def load (prefs all : Prefs) : Option (PersistentSignalStore L) := do
  let identityB64 ← prefs.getString keyIdentity
  let registrationId := prefs.getInt keyRegistrationId 0
  let identityKeyPair ← decodeRecord a L.identityKeyPair identityB64
  pure ⟨prefs, restoreInto a L all (L.inMemory identityKeyPair registrationId)⟩

def create (identityKeyPair : L.IdentityKeyPair) (registrationId : Int32) (localUserId : String) :
    PersistentSignalStore L where
  prefs :=
    let prefs : Prefs := []
    let prefs := prefs.putString keyIdentity (a.encodeBase64 (L.identityKeyPair.serialize identityKeyPair))
    let prefs := prefs.putInt keyRegistrationId registrationId
    prefs.putString keyLocalUserId localUserId
  delegate := L.inMemory identityKeyPair registrationId

section Mutations

variable {L} (m : PersistentSignalStore L)

def storePreKey (preKeyId : Int32) (record : L.PreKeyRecord) : PersistentSignalStore L where
  delegate := L.storePreKey m.delegate preKeyId record
  prefs := m.prefs.putString (preKeyKey prekeyStart preKeyId)
    (a.encodeBase64 (L.preKeyRecord.serialize record))

def removePreKey (preKeyId : Int32) : PersistentSignalStore L where
  delegate := L.removePreKey m.delegate preKeyId
  prefs := m.prefs.remove (preKeyKey prekeyStart preKeyId)

def storeSignedPreKey (signedPreKeyId : Int32) (record : L.SignedPreKeyRecord) :
    PersistentSignalStore L where
  delegate := L.storeSignedPreKey m.delegate signedPreKeyId record
  prefs := m.prefs.putString (preKeyKey signedPrekeyStart signedPreKeyId)
    (a.encodeBase64 (L.signedPreKeyRecord.serialize record))

def removeSignedPreKey (signedPreKeyId : Int32) : PersistentSignalStore L where
  delegate := L.removeSignedPreKey m.delegate signedPreKeyId
  prefs := m.prefs.remove (preKeyKey signedPrekeyStart signedPreKeyId)

def storeSession (address : SignalProtocolAddress) (record : L.SessionRecord) :
    PersistentSignalStore L where
  delegate := L.storeSession m.delegate address record
  prefs := m.prefs.putString (addressKey sessionStart address)
    (a.encodeBase64 (L.sessionRecord.serialize record))

def deleteSession (address : SignalProtocolAddress) : PersistentSignalStore L where
  delegate := L.deleteSession m.delegate address
  prefs := m.prefs.remove (addressKey sessionStart address)

def deleteAllSessions (name : String) : PersistentSignalStore L where
  delegate := L.deleteAllSessions m.delegate name
  prefs := m.prefs.removeStarting (sessionStart ++ name ++ "::")

/-- With the answer of the in-memory store. -/
def saveIdentity (address : SignalProtocolAddress) (identityKey : L.IdentityKey) :
    PersistentSignalStore L × Bool :=
  let (delegate, changed) := L.saveIdentity m.delegate address identityKey
  (⟨m.prefs.putString (addressKey trustedIdentityStart address)
    (a.encodeBase64 (L.identityKey.serialize identityKey)), delegate⟩, changed)

def burnConversation (name : String) : PersistentSignalStore L :=
  let m := m.deleteAllSessions name
  { m with prefs := m.prefs.removeStarting (trustedIdentityStart ++ name ++ "::") }

end Mutations

end PersistentSignalStore

inductive StoreLabel (L : Libsignal) where
  | storePreKey (id : Int32) (record : L.PreKeyRecord)
  | removePreKey (id : Int32)
  | storeSignedPreKey (id : Int32) (record : L.SignedPreKeyRecord)
  | removeSignedPreKey (id : Int32)
  | storeSession (address : SignalProtocolAddress) (record : L.SessionRecord)
  | deleteSession (address : SignalProtocolAddress)
  | deleteAllSessions (name : String)
  | saveIdentity (address : SignalProtocolAddress) (key : L.IdentityKey)
  | burnConversation (name : String)

/-- The name whose sessions the operation is to delete. -/
def StoreLabel.name {L : Libsignal} : StoreLabel L → Option String
  | .deleteAllSessions name | .burnConversation name => some name
  | _ => none

namespace PersistentSignalStore

variable (a : Platform) {L : Libsignal}

def step (m : PersistentSignalStore L) : StoreLabel L → PersistentSignalStore L
  | .storePreKey id record => m.storePreKey a id record
  | .removePreKey id => m.removePreKey id
  | .storeSignedPreKey id record => m.storeSignedPreKey a id record
  | .removeSignedPreKey id => m.removeSignedPreKey id
  | .storeSession address record => m.storeSession a address record
  | .deleteSession address => m.deleteSession address
  | .deleteAllSessions name => m.deleteAllSessions name
  | .saveIdentity address key => (m.saveIdentity a address key).1
  | .burnConversation name => m.burnConversation name

end PersistentSignalStore

end Parda.Android
