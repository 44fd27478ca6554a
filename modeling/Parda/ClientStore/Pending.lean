import Parda.Lib.Table
import Parda.Protocol.SelfDestruct

/-!
# The self-destruct holding area

Model of the `pending_self_destruct` table of `client-store/src/lib.rs`. Rows hold the
columns as SQLite stores them.
-/

namespace Parda.ClientStore

open Protocol

/-- `StoreError`, restricted to the variants that the modelled functions return. -/
inductive StoreError where
  | refusesSelfDestructingMessage
  | sqlite (message : String)
  | codec (message : String)
deriving DecidableEq

structure PendingRow where
  id : String
  peerAddress : String
  ciphertext : Bytes
  keyBytes : Bytes
  mode : String
  expiresAtMs : Option Int64
  stagedAtMs : Int64
deriving DecidableEq

def modeToStr : DestructMode → String
  | .timeBound => "time_bound"
  | .readTriggered => "read_triggered"
  | .combined => "combined"

def modeFromStr (s : String) : Option DestructMode :=
  if s = "time_bound" then some .timeBound
  else if s = "read_triggered" then some .readTriggered
  else if s = "combined" then some .combined
  else none

/-- The row that `stage_self_destructing` inserts. -/
def pendingRow (id peerAddress : String) (state : PersistedSelfDestructState)
    (stagedAtMs : UInt64) : PendingRow where
  id
  peerAddress
  ciphertext := state.ciphertext
  keyBytes := state.keyBytes.toList
  mode := modeToStr state.mode
  expiresAtMs := state.expiresAtMs.map UInt64.toInt64
  stagedAtMs := stagedAtMs.toInt64

/-- The id is a fresh `local_row_id`. -/
def stageSelfDestructing (rows : List PendingRow) (id peerAddress : String)
    (state : PersistedSelfDestructState) (stagedAtMs : UInt64) : Except StoreError (List PendingRow) :=
  if rows.any (fun row => row.id = id) then
    .error (.sqlite "UNIQUE constraint failed: pending_self_destruct.id")
  else .ok (rows ++ [pendingRow id peerAddress state stagedAtMs])

/-- The columns of a row read back. -/
def PendingRow.state (row : PendingRow) : Except StoreError PersistedSelfDestructState :=
  match modeFromStr row.mode with
  | none => .error (.codec s!"corrupt mode column: {row.mode.quote}")
  | some mode =>
    if h : row.keyBytes.length = 32 then
      .ok ⟨row.ciphertext, ⟨row.keyBytes, h⟩, mode, row.expiresAtMs.map Int64.toUInt64⟩
    else .error (.codec
      s!"corrupt key_bytes column: expected 32 bytes, got {row.keyBytes.length}")

/-- The row is deleted even when its columns cannot be read back. -/
def takeSelfDestructing (rows : List PendingRow) (id : String) :
    Except StoreError (Option PersistedSelfDestructState) × List PendingRow :=
  match rows.find? (fun row => row.id = id) with
  | none => (.ok none, rows)
  | some row => (row.state.map some, Table.deleteKey PendingRow.id rows id)

lemma modeFromStr_modeToStr (mode : DestructMode) : modeFromStr (modeToStr mode) = some mode := by
  cases mode <;> decide

lemma PendingRow.state_eq {row : PendingRow} {mode : DestructMode}
    (hmode : modeFromStr row.mode = some mode) (hlen : row.keyBytes.length = 32) :
    row.state = .ok
      ⟨row.ciphertext, ⟨row.keyBytes, hlen⟩, mode, row.expiresAtMs.map Int64.toUInt64⟩ := by
  unfold PendingRow.state
  rw [hmode]
  exact dif_pos hlen

/-- A staged state reads back as it was. -/
theorem pendingRow_state (id peerAddress : String) (state : PersistedSelfDestructState)
    (stagedAtMs : UInt64) : (pendingRow id peerAddress state stagedAtMs).state = .ok state := by
  obtain ⟨ciphertext, ⟨keyBytes, hlen⟩, mode, expiresAtMs⟩ := state
  have hmode := modeFromStr_modeToStr mode
  have hexpires : (expiresAtMs.map UInt64.toInt64).map Int64.toUInt64 = expiresAtMs := by
    cases expiresAtMs with
    | none => rfl
    | some ms => simp
  rw [PendingRow.state_eq (by exact hmode) (by exact hlen)]
  change Except.ok (PersistedSelfDestructState.mk ciphertext ⟨keyBytes, hlen⟩ mode
    ((expiresAtMs.map UInt64.toInt64).map Int64.toUInt64)) = _
  rw [hexpires]

end Parda.ClientStore
