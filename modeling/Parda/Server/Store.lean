import Mathlib.Data.List.Sort
import Parda.Lib.Table
import Parda.Protocol.Envelope

/-!
# The relay's message store

Model of the message and pull-stage tables of `server/src/store.rs`. Each function is
one locked section, a sequence of SQL statements. Rows hold the envelopes themselves
where the database holds their JSON, and the `id` column is the envelope's own id.
Timestamps are cast to SQLite's signed integers as the source casts them.
-/

namespace Parda.Server

open Protocol

/-- An envelope with the id the relay assigned on receipt. -/
structure StoredEnvelope where
  id : String
  envelope : MessageEnvelope
deriving DecidableEq

structure MessageRow where
  recipientId : String
  envelope : StoredEnvelope
  createdAtMs : Int64
deriving DecidableEq

structure PullStage where
  rendezvousToken : String
  messages : List StoredEnvelope
  stagedAtMs : Int64
deriving DecidableEq

structure RelayStore where
  messages : List MessageRow := []
  pullStages : List PullStage := []
deriving DecidableEq

def pullStageTtlMs : UInt64 := 5 * 60 * 1000

/-- `u64::saturating_sub`. -/
def saturatingSub (a b : UInt64) : UInt64 := if b ≤ a then a - b else 0

namespace RelayStore

/-- `INSERT INTO messages`. A second row with one id is a constraint error, on which the
source panics. -/
def enqueue (s : RelayStore) (recipientId : String) (envelope : StoredEnvelope) :
    Option RelayStore :=
  if s.messages.any (fun row => row.envelope.id = envelope.id) then none
  else some { s with
    messages := s.messages ++ [⟨recipientId, envelope, envelope.envelope.timestampMs.toInt64⟩] }

def isFor (userId : String) (row : MessageRow) : Bool := row.recipientId = userId

/-- The queue of a user, `ORDER BY created_at_ms ASC`. -/
def selectPending (s : RelayStore) (userId : String) : List StoredEnvelope :=
  ((s.messages.filter (isFor userId)).insertionSort
    (fun a b => a.createdAtMs ≤ b.createdAtMs)).map MessageRow.envelope

/-- `DELETE FROM messages WHERE recipient_id = ?1`. -/
def clearPending (s : RelayStore) (userId : String) : RelayStore :=
  { s with messages := s.messages.filter (fun row => !isFor userId row) }

def drain (s : RelayStore) (userId : String) : RelayStore × List StoredEnvelope :=
  (s.clearPending userId, s.selectPending userId)

/-- The stage is old enough for the sweep of a `stage_pull` at `nowMs`. -/
def expired (nowMs : UInt64) (stage : PullStage) : Bool :=
  stage.stagedAtMs < (saturatingSub nowMs pullStageTtlMs).toInt64

def sweepStages (s : RelayStore) (nowMs : UInt64) : RelayStore :=
  { s with pullStages := s.pullStages.filter (fun stage => !expired nowMs stage) }

def upsertStage (s : RelayStore) (token : String) (envelopes : List StoredEnvelope)
    (nowMs : UInt64) : RelayStore :=
  { s with
    pullStages :=
      Table.upsert PullStage.rendezvousToken s.pullStages ⟨token, envelopes, nowMs.toInt64⟩ }

/-- The second section of `stage_pull`: the sweep and the upsert. -/
def insertStage (s : RelayStore) (token : String) (envelopes : List StoredEnvelope)
    (nowMs : UInt64) : RelayStore :=
  (s.sweepStages nowMs).upsertStage token envelopes nowMs

/-- `stage_pull` run to its end. -/
def stagePull (s : RelayStore) (recipientId token : String) (nowMs : UInt64) : RelayStore :=
  let (s', envelopes) := s.drain recipientId
  s'.insertStage token envelopes nowMs

def fetchPull (s : RelayStore) (token : String) : RelayStore × Option (List StoredEnvelope) :=
  ({ s with pullStages := Table.deleteKey PullStage.rendezvousToken s.pullStages token },
    (s.pullStages.find? (fun stage => stage.rendezvousToken = token)).map PullStage.messages)

def deletes (userId messageId : String) (row : MessageRow) : Bool :=
  row.envelope.id = messageId && isFor userId row

/-- `delete_message`, with whether a row was affected. -/
def deleteMessage (s : RelayStore) (userId messageId : String) : RelayStore × Bool :=
  ({ s with messages := s.messages.filter (fun row => !deletes userId messageId row) },
    s.messages.any (deletes userId messageId))

/-- The queued envelopes. -/
def queued (s : RelayStore) : Multiset StoredEnvelope :=
  Table.items (fun row : MessageRow => [row.envelope]) s.messages

/-- The staged envelopes. -/
def staged (s : RelayStore) : Multiset StoredEnvelope :=
  Table.items PullStage.messages s.pullStages

/-- The primary key of `pull_stages`. -/
def TokensDistinct (s : RelayStore) : Prop :=
  Table.KeysDistinct PullStage.rendezvousToken s.pullStages

variable {s s' : RelayStore}

lemma enqueue_cases {recipientId : String} {envelope : StoredEnvelope}
    (h : s.enqueue recipientId envelope = some s') :
    (∀ row ∈ s.messages, row.envelope.id ≠ envelope.id) ∧
      s' = { s with messages := s.messages ++
        [⟨recipientId, envelope, envelope.envelope.timestampMs.toInt64⟩] } := by
  unfold enqueue at h
  by_cases hany : s.messages.any (fun row => row.envelope.id = envelope.id) = true
  · rw [if_pos hany] at h
    cases h
  · rw [if_neg hany] at h
    refine ⟨?_, (Option.some.inj h).symm⟩
    intro row hrow heq
    exact hany (List.any_eq_true.mpr ⟨row, hrow, by simpa using heq⟩)

lemma mem_selectPending {userId : String} {e : StoredEnvelope} :
    e ∈ s.selectPending userId ↔ ∃ row ∈ s.messages, row.recipientId = userId ∧ row.envelope = e := by
  unfold selectPending
  rw [List.mem_map]
  constructor
  · rintro ⟨row, hrow, rfl⟩
    rw [(List.perm_insertionSort _ _).mem_iff, List.mem_filter] at hrow
    exact ⟨row, hrow.1, by simpa [isFor] using hrow.2, rfl⟩
  · rintro ⟨row, hrow, huser, rfl⟩
    refine ⟨row, ?_, rfl⟩
    rw [(List.perm_insertionSort _ _).mem_iff, List.mem_filter]
    exact ⟨hrow, by simpa [isFor] using huser⟩

/-- Draining moves a user's queue out and leaves the rest. -/
theorem queued_drain (s : RelayStore) (userId : String) :
    s.queued = (s.selectPending userId : Multiset StoredEnvelope) + (s.clearPending userId).queued := by
  have hpending : (s.selectPending userId : Multiset StoredEnvelope) =
      Table.items (fun row : MessageRow => [row.envelope]) (s.messages.filter (isFor userId)) := by
    have hperm := (List.perm_insertionSort (fun a b : MessageRow => a.createdAtMs ≤ b.createdAtMs)
      (s.messages.filter (isFor userId))).map MessageRow.envelope
    unfold selectPending Table.items
    rw [Multiset.coe_eq_coe, ← List.map_eq_flatMap]
    exact hperm
  rw [hpending]
  exact (Table.items_filter_add (isFor userId) s.messages).symm

/-- A fetch moves one stage out and leaves the rest. -/
theorem staged_fetchPull (h : s.TokensDistinct) (token : String) :
    s.staged = (((s.fetchPull token).2.getD [] : List StoredEnvelope) : Multiset StoredEnvelope) +
      (s.fetchPull token).1.staged :=
  Table.items_deleteKey h token

end RelayStore

end Parda.Server
