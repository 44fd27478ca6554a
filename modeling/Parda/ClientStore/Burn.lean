import Parda.ClientStore.HoldingArea
import Parda.Protocol.SessionStore

/-!
# Burning a conversation

A device with its message store and its session store, under any calls of either. A burn is the
two calls that the documentation asks for, and is compared with never having kept anything of the
peer.
-/

namespace Parda.ClientStore

open Protocol

structure Device where
  db : Database
  store : SignalStore

/-- A call of either store. `libsignal` stands for the library's functions on one address, which
read and write its records. -/
inductive DeviceCall where
  | store (call : StoreCall)
  | loadSession (address : ProtocolAddress)
  | storeSession (address : ProtocolAddress) (record : Bytes)
  | saveIdentity (address : ProtocolAddress) (identity : IdentityKey)
  | isTrustedIdentity (address : ProtocolAddress) (identity : IdentityKey)
  | getIdentity (address : ProtocolAddress)
  | hasConversationState (address : ProtocolAddress)
  | burnConversation (remoteAddress : ProtocolAddress)
  | libsignal (address : ProtocolAddress)
      (compute : AddressRecords → AddressRecords × Except String Bytes)

inductive DeviceResult where
  | store (result : StoreResult)
  | session (record : Option Bytes)
  | identity (identity : Option IdentityKey)
  | answer (answer : Bool)
  | burned (result : SessionBurnResult)
  | computed (result : Except String Bytes)
  | done

namespace Device

variable (c : EnvelopeText)

def call (d : Device) : DeviceCall → DeviceResult × Device
  | .store call => (.store (d.db.call c call).1, { d with db := d.db.step c call })
  | .loadSession address => (.session (d.store.loadSession address), d)
  | .storeSession address record => (.done, { d with store := d.store.storeSession address record })
  | .saveIdentity address identity =>
    (.answer (d.store.saveIdentity address identity).1,
      { d with store := (d.store.saveIdentity address identity).2 })
  | .isTrustedIdentity address identity => (.answer (d.store.isTrustedIdentity address identity), d)
  | .getIdentity address => (.identity (d.store.getIdentity address), d)
  | .hasConversationState address => (.answer (d.store.hasConversationState address), d)
  | .burnConversation remoteAddress =>
    (.burned (d.store.burnConversation remoteAddress).1,
      { d with store := (d.store.burnConversation remoteAddress).2 })
  | .libsignal address compute =>
    let (records, result) := compute (d.store.records address.key)
    (.computed result, { d with store := d.store.setRecords address.key records })

def step (d : Device) (call : DeviceCall) : Device := (d.call c call).2

/-- What the calls return. -/
def results (d : Device) (calls : List DeviceCall) : List DeviceResult :=
  Machine.outputs (step c) (fun d call => some (d.call c call).1) d calls

/-- A device on which the store was just opened and no session was ever established. -/
def new (version : ℕ) (identityKeyPair : IdentityKeyPair) (registrationId : UInt32) : Device where
  db := (Database.schema version).runMigrations
  store := .new identityKeyPair registrationId

/-- `burn_conversation`, then `delete_history_for`. -/
def burn (d : Device) (remoteAddress : ProtocolAddress) (peerAddress : String) : Device where
  db := (d.db.deleteHistoryFor peerAddress).2
  store := (d.store.burnConversation remoteAddress).2

/-- The device as if it had kept nothing of the peer. -/
def without (d : Device) (remoteAddress : ProtocolAddress) (peerAddress : String) : Device where
  db := { d.db with
    messages := d.db.messages.map fun rows => Table.deleteKey MessageRow.peerAddress rows peerAddress
    pending := d.db.pending.map fun rows => Table.deleteKey PendingRow.peerAddress rows peerAddress }
  store := d.store.setRecords remoteAddress.key ⟨none, none⟩

def messagesOf (d : Device) (peerAddress : String) : List MessageRow :=
  (d.db.messages.getD []).filter fun row => row.peerAddress = peerAddress

def pendingOf (d : Device) (peerAddress : String) : List PendingRow :=
  (d.db.pending.getD []).filter fun row => row.peerAddress = peerAddress

/-- After a burn no calls return anything that depends on what was kept of the peer, and what
belongs to others is as it was. -/
structure Clears (d : Device) (remoteAddress : ProtocolAddress) (peerAddress : String) : Prop where
  unobservable : ∀ later, (d.burn remoteAddress peerAddress).results c later =
    (d.without remoteAddress peerAddress).results c later
  messages_others : ∀ other, other ≠ peerAddress →
    (d.burn remoteAddress peerAddress).messagesOf other = d.messagesOf other
  pending_others : ∀ other, other ≠ peerAddress →
    (d.burn remoteAddress peerAddress).pendingOf other = d.pendingOf other
  records_others : ∀ address, address ≠ remoteAddress →
    (d.burn remoteAddress peerAddress).store.records address.key = d.store.records address.key

variable {c} {d : Device} {remoteAddress : ProtocolAddress} {peerAddress : String}

lemma keyed_step (h : d.db.Keyed) (call : DeviceCall) : (d.step c call).db.Keyed := by
  cases call with
  | store call => exact h.step call
  | _ => exact h

/-- The calls of a burn, on the tables. -/
lemma burn_db (h : d.db.Opened) : (d.burn remoteAddress peerAddress).db =
    { d.db with
      messages := d.db.messages.map fun rows =>
        Table.deleteKey MessageRow.peerAddress rows peerAddress } := by
  obtain ⟨rows, hrows⟩ := Option.isSome_iff_exists.mp h.messages
  unfold burn Database.deleteHistoryFor
  rw [hrows]
  rfl

/-- With nothing of the peer in the holding area, a burned device is one that kept nothing. -/
lemma burn_eq_without (h : d.db.Opened)
    (hpending : ∀ row ∈ d.db.pending.getD [], row.peerAddress ≠ peerAddress) :
    d.burn remoteAddress peerAddress = d.without remoteAddress peerAddress := by
  obtain ⟨rows, hrows⟩ := Option.isSome_iff_exists.mp h.pending
  have hkept : d.db.pending.map (fun rows => Table.deleteKey PendingRow.peerAddress rows peerAddress)
      = d.db.pending := by
    rw [hrows, Option.getD_some] at hpending
    rw [hrows, Option.map_some, Table.deleteKey_eq_self hpending]
  have hdb : (d.burn remoteAddress peerAddress).db = (d.without remoteAddress peerAddress).db := by
    rw [burn_db h]
    unfold without
    rw [hkept]
  have hstore : (d.burn remoteAddress peerAddress).store =
      (d.without remoteAddress peerAddress).store := SignalStore.burnSession_eq
  exact congrArg₂ Device.mk hdb hstore

/-- A message of the peer that is still staged can be taken after the burn, and its take tells. -/
lemma not_clears_of_staged (h : d.db.Keyed) {row : PendingRow}
    (hrow : row ∈ d.db.pending.getD []) (hpeer : row.peerAddress = peerAddress) :
    ¬Clears c d remoteAddress peerAddress := by
  intro hclears
  have htake := hclears.unobservable [.store (.takeSelfDestructing row.id)]
  have hburned : (d.burn remoteAddress peerAddress).db.row? row.id = some row := by
    rw [burn_db h.opened]
    exact h.distinct.find?_of_mem hrow
  have hwithout : (d.without remoteAddress peerAddress).db.row? row.id = none := by
    obtain ⟨rows, hrows, hdistinct⟩ := h.exists_rows
    rw [hrows, Option.getD_some] at hrow
    unfold Database.row? without
    dsimp only
    rw [hrows, Option.map_some, Option.getD_some, List.find?_eq_none]
    intro row' hrow' hid
    obtain ⟨hmem, hne⟩ := Table.mem_deleteKey.mp hrow'
    have hsame : row' = row :=
      List.inj_on_of_nodup_map hdistinct hmem hrow (of_decide_eq_true hid)
    exact hne (hsame ▸ hpeer)
  have hresults : ∀ d' : Device, d'.results c [.store (.takeSelfDestructing row.id)] =
      [.store (.state (d'.db.takeSelfDestructing row.id).1)] := fun _ => rfl
  rw [hresults, hresults, Database.takeSelfDestructing_fst, Database.takeSelfDestructing_fst,
    hburned, hwithout] at htake
  cases hstate : row.state with
  | error e => simp [hstate, Except.map] at htake
  | ok state => simp [hstate, Except.map] at htake

lemma messagesOf_burn_of_ne (h : d.db.Opened) {other : String} (hne : other ≠ peerAddress) :
    (d.burn remoteAddress peerAddress).messagesOf other = d.messagesOf other := by
  obtain ⟨rows, hrows⟩ := Option.isSome_iff_exists.mp h.messages
  unfold messagesOf
  rw [burn_db h, hrows, Option.map_some, Option.getD_some, Option.getD_some]
  unfold Table.deleteKey
  rw [List.filter_filter]
  apply List.filter_congr
  intro row hrow
  by_cases hother : row.peerAddress = other
  · simp [hother, hne]
  · simp [hother]

lemma keyed_new (version : ℕ) (identityKeyPair : IdentityKeyPair) (registrationId : UInt32) :
    (new version identityKeyPair registrationId).db.Keyed :=
  Database.keyed_opened version

lemma keyed_run (h : d.db.Keyed) (calls : List DeviceCall) :
    (Machine.run (step c) d calls).db.Keyed := by
  have hstep : ∀ (d : Device) (call : DeviceCall), d.db.Keyed → (d.step c call).db.Keyed :=
    fun _ call h => keyed_step h call
  exact Machine.run_invariant hstep h calls

end Device

/-- A burn clears everything of the peer exactly when nothing of the peer is in the holding
area. -/
theorem burn_clears_iff (c : EnvelopeText) (version : ℕ) (identityKeyPair : IdentityKeyPair)
    (registrationId : UInt32) (history : List DeviceCall) (remoteAddress : ProtocolAddress)
    (peerAddress : String) :
    Device.Clears c
        (Machine.run (Device.step c) (.new version identityKeyPair registrationId) history)
        remoteAddress peerAddress ↔
      ∀ row ∈ (Machine.run (Device.step c) (.new version identityKeyPair registrationId)
          history).db.pending.getD [], row.peerAddress ≠ peerAddress := by
  have hkeyed := Device.keyed_run (c := c)
    (Device.keyed_new version identityKeyPair registrationId) history
  constructor
  · intro hclears row hrow hpeer
    exact Device.not_clears_of_staged hkeyed hrow hpeer hclears
  · intro hnone
    refine ⟨?_, ?_, ?_, ?_⟩
    · intro later
      rw [Device.burn_eq_without hkeyed.opened hnone]
    · intro other hne
      exact Device.messagesOf_burn_of_ne hkeyed.opened hne
    · intro other hne
      unfold Device.pendingOf
      rw [Device.burn_db hkeyed.opened]
    · intro address hne
      exact SignalStore.records_burnSession_of_ne hne

section Staged

/-- There is a session with a peer, and a message staged with it. -/
def stagedDevice : Device :=
  Machine.run (Device.step .compact)
    (.new 0 ⟨.replicate 33 5, .replicate 32 6⟩ 1)
    [.storeSession ⟨"bob", 1⟩ [1, 2, 3], .store (.stageSelfDestructing "a" "bob" stagedState 1000)]

/-- What is staged outlives the burn: its take returns the ciphertext with its key. -/
theorem not_clears_staged :
    ¬Device.Clears .compact stagedDevice ⟨"bob", 1⟩ "bob" ∧
      (stagedDevice.burn ⟨"bob", 1⟩ "bob").results .compact
        [.store (.takeSelfDestructing "a")] = [.store (.state (.ok (some stagedState)))] := by
  have hkeyed : stagedDevice.db.Keyed := Device.keyed_run (Device.keyed_new _ _ _) _
  exact ⟨Device.not_clears_of_staged hkeyed List.mem_cons_self rfl, rfl⟩

end Staged

end Parda.ClientStore
