import Parda.ClientStore.Pending
import Parda.Lib.Machine
import Parda.Server.Base64

/-!
# The local message store

Model of `LocalMessageStore` of `client-store/src/lib.rs`: the tables as SQLite keeps them, each
absent until its migration has run, and the operations, each one transaction.
-/

namespace Parda.ClientStore

open Protocol

inductive MessageDirection where
  | sent
  | received
deriving DecidableEq, Repr

namespace MessageDirection

def asStr : MessageDirection → String
  | .sent => "sent"
  | .received => "received"

def fromStr (s : String) : Option MessageDirection :=
  if s = "sent" then some .sent else if s = "received" then some .received else none

lemma fromStr_asStr (direction : MessageDirection) : fromStr direction.asStr = some direction := by
  cases direction <;> decide

end MessageDirection

/-- `serde_json` on envelopes, with what it says of text that it does not read. -/
structure EnvelopeText where
  text : JsonText 127
  base64 : Base64
  refusal : Bytes → String

namespace EnvelopeText

variable (c : EnvelopeText)

def toText (envelope : MessageEnvelope) : Bytes :=
  c.text.encode (MessageEnvelope.json c.base64) envelope

def fromText (bytes : Bytes) : Except String MessageEnvelope :=
  match c.text.decode (MessageEnvelope.json c.base64) bytes with
  | some envelope => .ok envelope
  | none => .error (c.refusal bytes)

lemma fromText_toText (envelope : MessageEnvelope) : c.fromText (c.toText envelope) = .ok envelope := by
  unfold fromText toText
  rw [JsonText.decode_encode _ _ MessageEnvelope.json_fits]

/-- Compact JSON, and a word for all that it refuses. -/
def compact : EnvelopeText := ⟨JsonText.compact 127, Server.standardBase64, fun _ => "malformed"⟩

end EnvelopeText

/-- A row of the `messages` table. -/
structure MessageRow where
  id : String
  peerAddress : String
  direction : String
  envelopeJson : Bytes
  storedAtMs : Int64
deriving DecidableEq

structure StoredMessage where
  id : String
  peerAddress : String
  direction : MessageDirection
  envelope : MessageEnvelope
  storedAtMs : UInt64
deriving DecidableEq

variable (c : EnvelopeText)

/-- The row a message is written as. -/
def StoredMessage.row (message : StoredMessage) : MessageRow where
  id := message.id
  peerAddress := message.peerAddress
  direction := message.direction.asStr
  envelopeJson := c.toText message.envelope
  storedAtMs := message.storedAtMs.toInt64

/-- The columns of a row read back. -/
def MessageRow.message (row : MessageRow) : Except StoreError StoredMessage :=
  match c.fromText row.envelopeJson with
  | .error e => .error (.codec e)
  | .ok envelope =>
    match MessageDirection.fromStr row.direction with
    | none => .error (.codec s!"corrupt direction column: {row.direction.quote}")
    | some direction =>
      .ok ⟨row.id, row.peerAddress, direction, envelope, row.storedAtMs.toUInt64⟩

lemma StoredMessage.row_message (message : StoredMessage) :
    (message.row c).message c = .ok message := by
  unfold MessageRow.message StoredMessage.row
  simp only [EnvelopeText.fromText_toText, MessageDirection.fromStr_asStr, UInt64.toUInt64_toInt64]

/-- The content of a database file. -/
structure Database where
  userVersion : ℕ
  messages : Option (List MessageRow)
  pending : Option (List PendingRow)

def currentSchemaVersion : ℕ := 2

def noSuchTable (name : String) : StoreError := .sqlite ("no such table: " ++ name)

def isSelfDestructing (envelope : MessageEnvelope) : Bool :=
  envelope.selfDestructAt.isSome || envelope.readTriggeredDestruct

/-- The deadline of a row as SQL compares it: signed, and `NULL` never passes. -/
def PendingRow.expiredBy (row : PendingRow) (nowMs : UInt64) : Bool :=
  match row.expiresAtMs with
  | none => false
  | some expiresAtMs => expiresAtMs ≤ nowMs.toInt64

namespace Database

def storeMessage (db : Database) (id peerAddress : String) (direction : MessageDirection)
    (envelope : MessageEnvelope) : Except StoreError String × Database :=
  if isSelfDestructing envelope then (.error .refusesSelfDestructingMessage, db)
  else
    match db.messages with
    | none => (.error (noSuchTable "messages"), db)
    | some rows =>
      if rows.any (fun row => row.id = id) then
        (.error (.sqlite "UNIQUE constraint failed: messages.id"), db)
      else
        let message : StoredMessage := ⟨id, peerAddress, direction, envelope, envelope.timestampMs⟩
        (.ok id, { db with messages := some (rows ++ [message.row c]) })

def historyFor (db : Database) (order : Table.OrderBy MessageRow.storedAtMs)
    (peerAddress : String) : Except StoreError (List StoredMessage) :=
  match db.messages with
  | none => .error (noSuchTable "messages")
  | some rows =>
    (order.sort (rows.filter fun row => row.peerAddress = peerAddress)).mapM (MessageRow.message c)

def deleteHistoryFor (db : Database) (peerAddress : String) : Except StoreError ℕ × Database :=
  match db.messages with
  | none => (.error (noSuchTable "messages"), db)
  | some rows =>
    (.ok (rows.countP fun row => row.peerAddress = peerAddress),
      { db with messages := some (Table.deleteKey MessageRow.peerAddress rows peerAddress) })

def stageSelfDestructing (db : Database) (id peerAddress : String)
    (state : PersistedSelfDestructState) (stagedAtMs : UInt64) :
    Except StoreError String × Database :=
  match db.pending with
  | none => (.error (noSuchTable "pending_self_destruct"), db)
  | some rows =>
    match ClientStore.stageSelfDestructing rows id peerAddress state stagedAtMs with
    | .error e => (.error e, db)
    | .ok rows => (.ok id, { db with pending := some rows })

/-- A row that cannot be selected, also for want of the table, is no row. -/
def takeSelfDestructing (db : Database) (id : String) :
    Except StoreError (Option PersistedSelfDestructState) × Database :=
  match db.pending with
  | none => (.ok none, db)
  | some rows =>
    let taken := ClientStore.takeSelfDestructing rows id
    (taken.1, { db with pending := some taken.2 })

def purgeExpiredSelfDestructing (db : Database) (nowMs : UInt64) :
    Except StoreError ℕ × Database :=
  match db.pending with
  | none => (.error (noSuchTable "pending_self_destruct"), db)
  | some rows =>
    (.ok (rows.countP fun row => row.expiredBy nowMs),
      { db with pending := some (rows.filter fun row => !row.expiredBy nowMs) })

def pendingSelfDestructIds (db : Database) (order : Table.OrderBy PendingRow.stagedAtMs)
    (peerAddress : String) : Except StoreError (List String) :=
  match db.pending with
  | none => .error (noSuchTable "pending_self_destruct")
  | some rows =>
    .ok ((order.sort (rows.filter fun row => row.peerAddress = peerAddress)).map PendingRow.id)

/-- `CREATE TABLE IF NOT EXISTS`. -/
def createTable {ρ : Type} (table : Option (List ρ)) : Option (List ρ) := some (table.getD [])

def runMigrations (db : Database) : Database where
  userVersion := if db.userVersion < currentSchemaVersion then currentSchemaVersion else db.userVersion
  messages := if db.userVersion < 1 then createTable db.messages else db.messages
  pending := if db.userVersion < 2 then createTable db.pending else db.pending

/-- A new database of a schema version. -/
def schema (version : ℕ) : Database where
  userVersion := version
  messages := if version < 1 then none else some []
  pending := if version < 2 then none else some []

end Database

/-- A call of the store, with the id it draws and the order of the rows it selects. -/
inductive StoreCall where
  | storeMessage (id peerAddress : String) (direction : MessageDirection)
      (envelope : MessageEnvelope)
  | historyFor (peerAddress : String) (order : Table.OrderBy MessageRow.storedAtMs)
  | deleteHistoryFor (peerAddress : String)
  | stageSelfDestructing (id peerAddress : String) (state : PersistedSelfDestructState)
      (stagedAtMs : UInt64)
  | takeSelfDestructing (id : String)
  | purgeExpiredSelfDestructing (nowMs : UInt64)
  | pendingSelfDestructIds (peerAddress : String) (order : Table.OrderBy PendingRow.stagedAtMs)
  | reopen

inductive StoreResult where
  | id (result : Except StoreError String)
  | history (result : Except StoreError (List StoredMessage))
  | affected (result : Except StoreError ℕ)
  | state (result : Except StoreError (Option PersistedSelfDestructState))
  | ids (result : Except StoreError (List String))
  | opened

namespace Database

def call (db : Database) : StoreCall → StoreResult × Database
  | .storeMessage id peerAddress direction envelope =>
    let (result, db) := db.storeMessage c id peerAddress direction envelope
    (.id result, db)
  | .historyFor peerAddress order => (.history (db.historyFor c order peerAddress), db)
  | .deleteHistoryFor peerAddress =>
    let (result, db) := db.deleteHistoryFor peerAddress
    (.affected result, db)
  | .stageSelfDestructing id peerAddress state stagedAtMs =>
    let (result, db) := db.stageSelfDestructing id peerAddress state stagedAtMs
    (.id result, db)
  | .takeSelfDestructing id =>
    let (result, db) := db.takeSelfDestructing id
    (.state result, db)
  | .purgeExpiredSelfDestructing nowMs =>
    let (result, db) := db.purgeExpiredSelfDestructing nowMs
    (.affected result, db)
  | .pendingSelfDestructIds peerAddress order =>
    (.ids (db.pendingSelfDestructIds order peerAddress), db)
  | .reopen => (.opened, db.runMigrations)

def step (db : Database) (call : StoreCall) : Database := (db.call c call).2

section Schema

variable {c} {db db' : Database}

/-- The same schema version and the same tables. -/
structure SameSchema (db db' : Database) : Prop where
  userVersion : db'.userVersion = db.userVersion
  messages : db'.messages.isSome = db.messages.isSome
  pending : db'.pending.isSome = db.pending.isSome

lemma SameSchema.refl (db : Database) : SameSchema db db := ⟨rfl, rfl, rfl⟩

lemma sameSchema_storeMessage (id peerAddress : String) (direction : MessageDirection)
    (envelope : MessageEnvelope) :
    SameSchema db (db.storeMessage c id peerAddress direction envelope).2 := by
  unfold storeMessage
  split
  · exact .refl db
  · split
    · exact .refl db
    · rename_i hrows
      split
      · exact .refl db
      · exact ⟨rfl, by rw [hrows]; rfl, rfl⟩

lemma sameSchema_deleteHistoryFor (peerAddress : String) :
    SameSchema db (db.deleteHistoryFor peerAddress).2 := by
  unfold deleteHistoryFor
  split
  · exact .refl db
  · rename_i hrows
    exact ⟨rfl, by rw [hrows]; rfl, rfl⟩

lemma sameSchema_stageSelfDestructing (id peerAddress : String)
    (state : PersistedSelfDestructState) (stagedAtMs : UInt64) :
    SameSchema db (db.stageSelfDestructing id peerAddress state stagedAtMs).2 := by
  unfold stageSelfDestructing
  split
  · exact .refl db
  · rename_i hrows
    split
    · exact .refl db
    · exact ⟨rfl, rfl, by rw [hrows]; rfl⟩

lemma sameSchema_takeSelfDestructing (id : String) :
    SameSchema db (db.takeSelfDestructing id).2 := by
  unfold takeSelfDestructing
  split
  · exact .refl db
  · rename_i hrows
    exact ⟨rfl, rfl, by rw [hrows]; rfl⟩

lemma sameSchema_purgeExpiredSelfDestructing (nowMs : UInt64) :
    SameSchema db (db.purgeExpiredSelfDestructing nowMs).2 := by
  unfold purgeExpiredSelfDestructing
  split
  · exact .refl db
  · rename_i hrows
    exact ⟨rfl, rfl, by rw [hrows]; rfl⟩

/-- Only a migration changes the schema. -/
lemma sameSchema_step (db : Database) {call : StoreCall} (h : call ≠ .reopen) :
    SameSchema db (db.step c call) := by
  cases call with
  | storeMessage id peerAddress direction envelope =>
    exact sameSchema_storeMessage id peerAddress direction envelope
  | historyFor peerAddress order => exact .refl db
  | deleteHistoryFor peerAddress => exact sameSchema_deleteHistoryFor peerAddress
  | stageSelfDestructing id peerAddress state stagedAtMs =>
    exact sameSchema_stageSelfDestructing id peerAddress state stagedAtMs
  | takeSelfDestructing id => exact sameSchema_takeSelfDestructing id
  | purgeExpiredSelfDestructing nowMs => exact sameSchema_purgeExpiredSelfDestructing nowMs
  | pendingSelfDestructIds peerAddress order => exact .refl db
  | reopen => exact absurd rfl h

/-- The tables of its schema version are there. -/
structure Migrated (db : Database) : Prop where
  messages : 1 ≤ db.userVersion → db.messages.isSome = true
  pending : 2 ≤ db.userVersion → db.pending.isSome = true

/-- All tables are there, as they are once the migrations have run. -/
structure Opened (db : Database) : Prop where
  version : currentSchemaVersion ≤ db.userVersion
  messages : db.messages.isSome = true
  pending : db.pending.isSome = true

lemma migrated_schema (version : ℕ) : (schema version).Migrated := by
  unfold schema
  constructor
  · intro h
    dsimp only at h ⊢
    rw [if_neg (not_lt.mpr h)]
    rfl
  · intro h
    dsimp only at h ⊢
    rw [if_neg (not_lt.mpr h)]
    rfl

lemma Migrated.runMigrations (h : db.Migrated) : db.runMigrations.Opened := by
  unfold Database.runMigrations
  refine ⟨?_, ?_, ?_⟩
  · dsimp only
    split
    · exact le_rfl
    · rename_i hnot
      exact not_lt.mp hnot
  · dsimp only
    split
    · rfl
    · rename_i hnot
      exact h.messages (not_lt.mp hnot)
  · dsimp only
    split
    · rfl
    · rename_i hnot
      exact h.pending (not_lt.mp hnot)

lemma Opened.migrated (h : db.Opened) : db.Migrated :=
  ⟨fun _ => h.messages, fun _ => h.pending⟩

lemma Migrated.step (h : db.Migrated) (call : StoreCall) : (db.step c call).Migrated := by
  by_cases hcall : call = .reopen
  · subst hcall
    exact h.runMigrations.migrated
  · have hsame := sameSchema_step (c := c) db hcall
    exact ⟨fun hv => hsame.messages ▸ h.messages (hsame.userVersion ▸ hv),
      fun hv => hsame.pending ▸ h.pending (hsame.userVersion ▸ hv)⟩

lemma Opened.step (h : db.Opened) (call : StoreCall) : (db.step c call).Opened := by
  by_cases hcall : call = .reopen
  · subst hcall
    exact h.migrated.runMigrations
  · have hsame := sameSchema_step (c := c) db hcall
    exact ⟨hsame.userVersion ▸ h.version, hsame.messages ▸ h.messages, hsame.pending ▸ h.pending⟩

/-- A database is usable from its first opening on, whatever an earlier build left in it. -/
lemma opened_run (version : ℕ) (earlier calls : List StoreCall) :
    (Machine.run (step c) (schema version) (earlier ++ .reopen :: calls)).Opened := by
  have hmigrated : ∀ (db : Database) (call : StoreCall), db.Migrated → (db.step c call).Migrated :=
    fun _ call h => h.step call
  have hopened : ∀ (db : Database) (call : StoreCall), db.Opened → (db.step c call).Opened :=
    fun _ call h => h.step call
  have hearlier := Machine.run_invariant hmigrated (migrated_schema version) earlier
  rw [Machine.run_append, Machine.run_cons]
  exact Machine.run_invariant hopened hearlier.runMigrations calls

end Schema

end Database

end Parda.ClientStore
