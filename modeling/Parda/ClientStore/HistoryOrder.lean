import Parda.ClientStore.History
import Parda.Lib.SignedCast

/-!
# The order of a history

`history_for` sorts by the signed column that `timestamp_ms` was cast to.
-/

namespace Parda.ClientStore

open Protocol SignedCast

/-- Oldest first by what the senders wrote, and stored at that time. -/
structure OldestFirst (messages : List StoredMessage) : Prop where
  sorted : messages.Pairwise fun message message' =>
    message.envelope.timestampMs ≤ message'.envelope.timestampMs
  stored : ∀ message ∈ messages, message.storedAtMs = message.envelope.timestampMs

/-- The messages were all sent in one half of the range of times. -/
def SentNear (messages : List StoredMessage) : Prop :=
  messages.Pairwise fun message message' =>
    SameHalf message.envelope.timestampMs message'.envelope.timestampMs

instance (messages : List StoredMessage) : Decidable (SentNear messages) :=
  inferInstanceAs (Decidable (messages.Pairwise _))

variable {c : EnvelopeText}

/-- What is kept was accepted. -/
lemma accepted_of_mem_foldl {events : List HistoryEvent} {message : StoredMessage}
    (h : message ∈ events.foldl keepEvent []) : .accepted message ∈ events := by
  have hkept : ∀ kept, message ∈ events.foldl keepEvent kept →
      message ∈ kept ∨ .accepted message ∈ events := by
    clear h
    induction events with
    | nil => exact fun _ hmem => Or.inl hmem
    | cons event events ih =>
      intro kept hmem
      rcases ih _ hmem with hnow | hlater
      · cases event with
        | accepted new =>
          rcases List.mem_append.mp hnow with hold | hnew
          · exact Or.inl hold
          · rw [List.mem_singleton.mp hnew]
            exact Or.inr List.mem_cons_self
        | deleted deleted => exact Or.inl (List.mem_filter.mp hnow).1
      · exact Or.inr (List.mem_cons_of_mem _ hlater)
  exact (hkept [] h).resolve_left List.not_mem_nil

namespace Database

/-- A message is stored under the time that its sender wrote. -/
lemma storedAtMs_of_mem_historyEvents (db : Database) (calls : List StoreCall)
    {message : StoredMessage} (h : .accepted message ∈ db.historyEvents c calls) :
    message.storedAtMs = message.envelope.timestampMs := by
  have hout : ∀ (db : Database) (call : StoreCall), True → ∀ event ∈ db.historyEvent c call,
      ∀ message, event = .accepted message → message.storedAtMs = message.envelope.timestampMs := by
    intro db call _ event hevent message hmessage
    rw [Option.mem_def] at hevent
    cases call with
    | storeMessage id peerAddress direction envelope =>
      unfold historyEvent at hevent
      dsimp only at hevent
      split at hevent
      · rw [← Option.some.inj hevent] at hmessage
        cases hmessage
        rfl
      · cases hevent
    | deleteHistoryFor peerAddress =>
      unfold historyEvent at hevent
      dsimp only at hevent
      split at hevent
      · rw [← Option.some.inj hevent] at hmessage
        cases hmessage
      · cases hevent
    | historyFor peerAddress order => cases hevent
    | stageSelfDestructing id peerAddress state stagedAtMs => cases hevent
    | takeSelfDestructing id => cases hevent
    | purgeExpiredSelfDestructing nowMs => cases hevent
    | pendingSelfDestructIds peerAddress order => cases hevent
    | reopen => cases hevent
  have hstep : ∀ (db : Database) (call : StoreCall), True → True := fun _ _ _ => trivial
  exact Machine.forall_mem_outputs hstep hout trivial calls _ h message rfl

/-- A history is sorted by its column. -/
lemma historyFor_sorted {db : Database} {order : Table.OrderBy MessageRow.storedAtMs}
    {peerAddress : String} {messages : List StoredMessage}
    (h : db.historyFor c order peerAddress = .ok messages) :
    messages.Pairwise fun message message' =>
      message.storedAtMs.toInt64 ≤ message'.storedAtMs.toInt64 := by
  have hcolumn : ∀ (row : MessageRow) (message : StoredMessage),
      row.message c = .ok message → message.storedAtMs.toInt64 = row.storedAtMs := by
    intro row message hrow
    unfold MessageRow.message at hrow
    split at hrow
    · cases hrow
    · split at hrow
      · cases hrow
      · cases hrow
        exact Int64.toInt64_toUInt64 row.storedAtMs
  unfold historyFor at h
  cases hrows : db.messages with
  | none =>
    rw [hrows] at h
    cases h
  | some rows =>
    rw [hrows] at h
    have hread := map_ok_of_mapM_eq_ok h
    have hsorted := order.sort_sorted (rows.filter fun row => row.peerAddress = peerAddress)
    -- the order of the rows, as one on what they read back as
    have hresults : ((order.sort (rows.filter fun row => row.peerAddress = peerAddress)).map
        (MessageRow.message c)).Pairwise fun result result' =>
          ∀ message message', result = .ok message → result' = .ok message' →
            message.storedAtMs.toInt64 ≤ message'.storedAtMs.toInt64 := by
      rw [List.pairwise_map]
      apply hsorted.imp
      intro row row' hle message message' hrow hrow'
      rw [hcolumn row message hrow, hcolumn row' message' hrow']
      exact hle
    rw [← hread, List.pairwise_map] at hresults
    exact hresults.imp fun hle => hle _ _ rfl rfl

end Database

variable {db : Database} {kept : List StoredMessage}

/-- The history of a peer is oldest first exactly when its messages were sent in one half of the
range of times. -/
lemma Database.Keeps.query_oldestFirst_iff (h : db.Keeps c kept) (hopen : db.messages.isSome = true)
    (hkept : ∀ message ∈ kept, message.storedAtMs = message.envelope.timestampMs)
    (order : Table.OrderBy MessageRow.storedAtMs) (peerAddress : String) :
    (∃ messages, db.historyFor c order peerAddress = .ok messages ∧ OldestFirst messages) ↔
      SentNear (kept.filter fun message => message.peerAddress = peerAddress) := by
  obtain ⟨messages, hmessages, hperm⟩ := h.historyFor hopen order peerAddress
  have hstored : ∀ message ∈ messages, message.storedAtMs = message.envelope.timestampMs :=
    fun message hmessage => hkept message (List.mem_filter.mp (hperm.mem_iff.mp hmessage)).1
  have hsigned : messages.Pairwise fun message message' =>
      message.envelope.timestampMs.toInt64 ≤ message'.envelope.timestampMs.toInt64 := by
    apply (List.Pairwise.iff_of_mem ?_).mp (Database.historyFor_sorted hmessages)
    intro message message' hmessage hmessage'
    rw [hstored message hmessage, hstored message' hmessage']
  have hnear : SentNear messages ↔
      SentNear (kept.filter fun message => message.peerAddress = peerAddress) :=
    hperm.pairwise_iff fun h => SameHalf.symm h
  rw [← hnear]
  unfold SentNear
  rw [← pairwise_le_iff hsigned]
  constructor
  · rintro ⟨messages', hmessages', holdest⟩
    rw [hmessages] at hmessages'
    cases hmessages'
    exact holdest.sorted
  · intro hsorted
    exact ⟨messages, hmessages, hsorted, hstored⟩

/-- After any calls, a history is oldest first exactly when the messages it keeps were all sent in
one half of the range of times. -/
theorem oldestFirst_iff (c : EnvelopeText) (version : ℕ) (earlier calls : List StoreCall)
    (peerAddress : String) (order : Table.OrderBy MessageRow.storedAtMs) :
    (∃ messages,
      (Machine.run (Database.step c) (Database.schema version)
        (earlier ++ .reopen :: calls)).historyFor c order peerAddress = .ok messages ∧
      OldestFirst messages) ↔
      SentNear (keptOf peerAddress ((Database.schema version).historyEvents c
        (earlier ++ .reopen :: calls))) := by
  have hkeeps := (Database.keeps_schema (c := c) version).run (earlier ++ .reopen :: calls)
  have hopen := (Database.opened_run (c := c) version earlier calls).messages
  rw [keptOf_eq_filter]
  apply hkeeps.query_oldestFirst_iff hopen
  intro message hmessage
  exact Database.storedAtMs_of_mem_historyEvents _ _ (accepted_of_mem_foldl hmessage)

def received (timestampMs : UInt64) : MessageEnvelope where
  senderId := "bob"
  recipientId := "me"
  ciphertext := [1]
  envelopeType := .ratchet
  timestampMs
  sealedSender := false

/-- A sender whose clock is right, then one whose clock is far ahead. -/
def farAhead : List StoreCall :=
  [.storeMessage "a" "bob" .received (received 1000),
    .storeMessage "b" "bob" .received (received 9223372036854775808)]

theorem not_oldestFirst_farAhead :
    ¬∃ messages,
      (Machine.run (Database.step .compact) (Database.schema 0)
        ([] ++ .reopen :: farAhead)).historyFor .compact (.stable _) "bob" = .ok messages ∧
      OldestFirst messages := by
  have hkeeps := (Database.keeps_schema (c := .compact) 0).run ([] ++ .reopen :: farAhead)
  have hopen := (Database.opened_run (c := .compact) 0 [] farAhead).messages
  rw [hkeeps.query_oldestFirst_iff hopen (by decide +kernel)]
  decide +kernel

end Parda.ClientStore
