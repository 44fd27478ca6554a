import Mathlib.Data.List.Induction
import Parda.Lib.Simulation
import Parda.Server.Conservation

/-!
# The order of a queue

The order in which `drain` hands out a user's mail, beside the order in which the mail arrived.
The queue is sorted by `created_at_ms`, which holds the time that its sender wrote.
-/

namespace Parda.Server

open Machine Protocol

/-- A change to the queue of a user. -/
inductive MailEvent where
  | accepted (recipientId : String) (envelope : StoredEnvelope)
  | cleared (userId : String)
  | deleted (userId messageId : String)

/-- The user whose queue a section hands out. -/
def StoreOp.takesFrom : StoreOp → Option String
  | .drain userId => some userId
  | .stageDrain recipientId _ => some recipientId
  | .enqueue _ _ | .stageInsert _ _ | .fetchPull _ | .deleteMessage _ _ => none

def StoreRun.mailEvent (s : StoreRun) : StoreOp → Option MailEvent
  | .enqueue recipientId envelope =>
    if (s.store.enqueue recipientId envelope).isSome then some (.accepted recipientId envelope)
    else none
  | .drain userId => some (.cleared userId)
  | .stageDrain recipientId _ => some (.cleared recipientId)
  | .deleteMessage userId messageId => some (.deleted userId messageId)
  | .stageInsert _ _ | .fetchPull _ => none

def mailEvents (ops : List StoreOp) : List MailEvent :=
  outputs StoreRun.step StoreRun.mailEvent {} ops

/-- The queue of a user in order of arrival, after one more event. -/
def arrive (userId : String) (pending : List StoredEnvelope) : MailEvent → List StoredEnvelope
  | .accepted recipientId envelope =>
    if recipientId = userId then pending ++ [envelope] else pending
  | .cleared cleared => if cleared = userId then [] else pending
  | .deleted owner messageId =>
    if owner = userId then pending.filter (fun e => e.id ≠ messageId) else pending

/-- The pending envelopes of a user, in the order in which they were enqueued. -/
def pendingOf (userId : String) (events : List MailEvent) : List StoredEnvelope :=
  events.foldl (arrive userId) []

/-- What a drain of the user hands out after these operations. -/
def drained (userId : String) (ops : List StoreOp) : List StoredEnvelope :=
  ((run StoreRun.step {} ops).store.drain userId).2

/-- Every queue is handed out in order of arrival, and every stage holds one so handed out. -/
structure InArrivalOrder (ops : List StoreOp) : Prop where
  drains : ∀ before op after userId, ops = before ++ op :: after → op.takesFrom = some userId →
    drained userId before = pendingOf userId (mailEvents before)
  stages : ∀ before after, ops = before ++ after →
    ∀ stage ∈ (run StoreRun.step {} before).store.pullStages, ∃ earlier later recipientId,
      before = earlier ++ .stageDrain recipientId stage.rendezvousToken :: later ∧
        stage.messages = pendingOf recipientId (mailEvents earlier)

/-- The senders' times do not decrease, as SQLite reads them. -/
def TimesAscend (pending : List StoredEnvelope) : Prop :=
  pending.Pairwise fun e e' => e.envelope.timestampMs.toInt64 ≤ e'.envelope.timestampMs.toInt64

instance (pending : List StoredEnvelope) : Decidable (TimesAscend pending) :=
  inferInstanceAs (Decidable (pending.Pairwise _))

/-- Whenever a queue is handed out, its senders' times ascend. -/
def SendersInOrder (ops : List StoreOp) : Prop :=
  ∀ before op after userId, ops = before ++ op :: after → op.takesFrom = some userId →
    TimesAscend (pendingOf userId (mailEvents before))

/-- The rows of a user, as they were inserted. -/
structure StoreRun.Queues (userId : String) (s : StoreRun) (pending : List StoredEnvelope) :
    Prop where
  rows : (s.store.messages.filter (RelayStore.isFor userId)).map MessageRow.envelope = pending
  times : ∀ row ∈ s.store.messages,
    row.createdAtMs = row.envelope.envelope.timestampMs.toInt64

section Queues

variable {s : StoreRun} {userId : String} {pending : List StoredEnvelope}

/-- Sorting a queue leaves it as it arrived exactly when the senders' times ascend. -/
lemma StoreRun.Queues.selectPending_eq_iff (h : s.Queues userId pending) :
    s.store.selectPending userId = pending ↔ TimesAscend pending := by
  have hiff : ∀ rows : List MessageRow, (∀ row ∈ rows, row ∈ s.store.messages) →
      (rows.Pairwise (fun a b => a.createdAtMs ≤ b.createdAtMs) ↔
        TimesAscend (rows.map MessageRow.envelope)) := by
    intro rows hrows
    unfold TimesAscend
    rw [List.pairwise_map]
    apply List.Pairwise.iff_of_mem
    intro a b ha hb
    rw [h.times a (hrows a ha), h.times b (hrows b hb)]
  have hfilter : ∀ row ∈ s.store.messages.filter (RelayStore.isFor userId),
      row ∈ s.store.messages := fun row hrow => (List.mem_filter.mp hrow).1
  unfold RelayStore.selectPending
  constructor
  · intro heq
    rw [← heq, ← hiff]
    · exact (Table.OrderBy.stable MessageRow.createdAtMs).sort_sorted _
    · intro row hrow
      exact hfilter row ((List.mem_insertionSort _).mp hrow)
  · intro hascend
    rw [← h.rows, ← hiff _ hfilter] at hascend
    rw [hascend.insertionSort_eq]
    exact h.rows

lemma StoreRun.Queues.enqueue (h : s.Queues userId pending) (recipientId : String)
    (envelope : StoredEnvelope) {store : RelayStore}
    (henqueue : s.store.enqueue recipientId envelope = some store) :
    (s.step (.enqueue recipientId envelope)).Queues userId
      (arrive userId pending (.accepted recipientId envelope)) := by
  rw [step_enqueue_some henqueue]
  obtain ⟨-, rfl⟩ := RelayStore.enqueue_cases henqueue
  constructor
  · dsimp only [arrive]
    rw [List.filter_append, List.map_append, h.rows]
    by_cases huser : recipientId = userId
    · simp [RelayStore.isFor, huser]
    · simp [RelayStore.isFor, huser]
  · intro row hrow
    rcases List.mem_append.mp hrow with hold | hnew
    · exact h.times row hold
    · rw [List.mem_singleton.mp hnew]

lemma StoreRun.Queues.clearPending (h : s.Queues userId pending) (cleared : String) {t : StoreRun}
    (ht : t.store.messages = (s.store.clearPending cleared).messages) :
    t.Queues userId (arrive userId pending (.cleared cleared)) := by
  constructor
  · rw [ht]
    dsimp only [arrive, RelayStore.clearPending]
    rw [List.filter_filter]
    by_cases huser : cleared = userId
    · simp [huser]
    · rw [if_neg huser, ← h.rows]
      congr 1
      apply List.filter_congr
      intro row _
      by_cases hrow : row.recipientId = userId
      · simp [RelayStore.isFor, hrow, Ne.symm huser]
      · simp [RelayStore.isFor, hrow]
  · intro row hrow
    rw [ht] at hrow
    exact h.times row (List.mem_filter.mp hrow).1

lemma StoreRun.Queues.deleteMessage (h : s.Queues userId pending) (owner messageId : String) :
    (s.step (.deleteMessage owner messageId)).Queues userId
      (arrive userId pending (.deleted owner messageId)) := by
  constructor
  · dsimp only [arrive, StoreRun.step, RelayStore.deleteMessage]
    rw [List.filter_filter]
    by_cases huser : owner = userId
    · rw [if_pos huser, ← h.rows, List.filter_map, List.filter_filter]
      congr 1
      apply List.filter_congr
      intro row _
      by_cases hrow : row.recipientId = userId
      · simp [RelayStore.deletes, RelayStore.isFor, hrow, huser]
      · simp [RelayStore.isFor, hrow]
    · rw [if_neg huser, ← h.rows]
      congr 1
      apply List.filter_congr
      intro row _
      by_cases hrow : row.recipientId = userId
      · simp [RelayStore.deletes, RelayStore.isFor, hrow, Ne.symm huser]
      · simp [RelayStore.isFor, hrow]
  · intro row hrow
    exact h.times row (List.mem_filter.mp hrow).1

lemma StoreRun.Queues.congr (h : s.Queues userId pending) {t : StoreRun}
    (ht : t.store.messages = s.store.messages) : t.Queues userId pending :=
  ⟨ht ▸ h.rows, ht ▸ h.times⟩

lemma StoreRun.messages_stageInsert (s : StoreRun) (k : ℕ) (nowMs : UInt64) :
    (s.step (.stageInsert k nowMs)).store.messages = s.store.messages := by
  cases hp : s.staging[k]? with
  | none => rw [step_stageInsert_none hp]
  | some p => rw [step_stageInsert_some hp]; rfl

/-- A section does to a queue what its event says. -/
lemma simulates_arrive (userId : String) :
    Simulates (StoreRun.Queues userId) StoreRun.mailEvent StoreRun.step
      (fun _ _ => (none : Option Unit)) (arrive userId) (fun _ _ => none) where
  stutter s pending op h hevent := by
    refine ⟨?_, rfl⟩
    cases op with
    | enqueue recipientId envelope =>
      cases henqueue : s.store.enqueue recipientId envelope with
      | none => rwa [StoreRun.step_enqueue_none henqueue]
      | some store => simp [StoreRun.mailEvent, henqueue] at hevent
    | stageInsert k nowMs => exact h.congr (s.messages_stageInsert k nowMs)
    | fetchPull token => exact h.congr rfl
    | drain cleared => cases hevent
    | stageDrain recipientId token => cases hevent
    | deleteMessage owner messageId => cases hevent
  forward s pending op event h hevent := by
    refine ⟨?_, rfl⟩
    cases op with
    | enqueue recipientId envelope =>
      cases henqueue : s.store.enqueue recipientId envelope with
      | none => simp [StoreRun.mailEvent, henqueue] at hevent
      | some store =>
        simp only [StoreRun.mailEvent, henqueue, Option.isSome_some, if_true,
          Option.some.injEq] at hevent
        rw [← hevent]
        exact h.enqueue recipientId envelope henqueue
    | drain cleared =>
      rw [← Option.some.inj hevent]
      exact h.clearPending cleared rfl
    | stageDrain recipientId token =>
      rw [← Option.some.inj hevent]
      exact h.clearPending recipientId rfl
    | deleteMessage owner messageId =>
      rw [← Option.some.inj hevent]
      exact h.deleteMessage owner messageId
    | stageInsert k nowMs => cases hevent
    | fetchPull token => cases hevent

end Queues

/-- The rows of a user after a run are the mail that the run's events leave pending. -/
lemma queues_run (userId : String) (ops : List StoreOp) :
    (run StoreRun.step {} ops).Queues userId (pendingOf userId (mailEvents ops)) := by
  have hstart : StoreRun.Queues userId {} [] := ⟨rfl, by simp⟩
  exact ((simulates_arrive userId).run hstart ops).1

/-- Where the stages of a run came from. -/
structure Provenance (ops : List StoreOp) : Prop where
  staging : ∀ p ∈ (run StoreRun.step {} ops).staging, ∃ earlier later recipientId,
    ops = earlier ++ .stageDrain recipientId p.rendezvousToken :: later ∧
      p.messages = drained recipientId earlier
  stages : ∀ stage ∈ (run StoreRun.step {} ops).store.pullStages, ∃ earlier later recipientId,
    ops = earlier ++ .stageDrain recipientId stage.rendezvousToken :: later ∧
      stage.messages = drained recipientId earlier

section Provenance

variable {ops : List StoreOp} {token : String} {messages : List StoredEnvelope}

/-- What came from a run came from a longer one. -/
lemma exists_drained_append (op : StoreOp)
    (h : ∃ earlier later recipientId, ops = earlier ++ .stageDrain recipientId token :: later ∧
      messages = drained recipientId earlier) :
    ∃ earlier later recipientId,
      ops ++ [op] = earlier ++ .stageDrain recipientId token :: later ∧
        messages = drained recipientId earlier := by
  obtain ⟨earlier, later, recipientId, rfl, hmessages⟩ := h
  exact ⟨earlier, later ++ [op], recipientId, by simp, hmessages⟩

/-- A section that adds no stage keeps what is known of the others. -/
lemma Provenance.of_subset (h : Provenance ops) (op : StoreOp)
    (hstaging : (run StoreRun.step {} (ops ++ [op])).staging ⊆ (run StoreRun.step {} ops).staging)
    (hstages : (run StoreRun.step {} (ops ++ [op])).store.pullStages ⊆
      (run StoreRun.step {} ops).store.pullStages) : Provenance (ops ++ [op]) where
  staging p hp := exists_drained_append op (h.staging p (hstaging hp))
  stages stage hstage := exists_drained_append op (h.stages stage (hstages hstage))

lemma Provenance.append (h : Provenance ops) (op : StoreOp) : Provenance (ops ++ [op]) := by
  have hrun : run StoreRun.step {} (ops ++ [op]) = (run StoreRun.step {} ops).step op := by
    rw [run_append, run_cons, run_nil]
  cases op with
  | enqueue recipientId envelope =>
    apply h.of_subset
    · rw [hrun]
      cases henqueue : (run StoreRun.step {} ops).store.enqueue recipientId envelope with
      | none => rw [StoreRun.step_enqueue_none henqueue]; exact List.Subset.refl _
      | some store => rw [StoreRun.step_enqueue_some henqueue]; exact List.Subset.refl _
    · rw [hrun]
      cases henqueue : (run StoreRun.step {} ops).store.enqueue recipientId envelope with
      | none => rw [StoreRun.step_enqueue_none henqueue]; exact List.Subset.refl _
      | some store =>
        rw [StoreRun.step_enqueue_some henqueue]
        obtain ⟨-, rfl⟩ := RelayStore.enqueue_cases henqueue
        exact List.Subset.refl _
  | drain userId =>
    exact h.of_subset _ (hrun ▸ List.Subset.refl _) (hrun ▸ List.Subset.refl _)
  | deleteMessage userId messageId =>
    exact h.of_subset _ (hrun ▸ List.Subset.refl _) (hrun ▸ List.Subset.refl _)
  | fetchPull rendezvousToken =>
    exact h.of_subset _ (hrun ▸ List.Subset.refl _) (hrun ▸ List.filter_subset_self _)
  | stageDrain recipientId rendezvousToken =>
    constructor
    · rw [hrun]
      intro p hp
      rcases List.mem_cons.mp hp with rfl | hold
      · exact ⟨ops, [], recipientId, rfl, rfl⟩
      · exact exists_drained_append _ (h.staging p hold)
    · rw [hrun]
      intro stage hstage
      exact exists_drained_append _ (h.stages stage hstage)
  | stageInsert k nowMs =>
    cases hp : (run StoreRun.step {} ops).staging[k]? with
    | none =>
      rw [StoreRun.step_stageInsert_none hp] at hrun
      exact h.of_subset _ (hrun ▸ List.Subset.refl _) (hrun ▸ List.Subset.refl _)
    | some p =>
      rw [StoreRun.step_stageInsert_some hp] at hrun
      constructor
      · rw [hrun]
        intro q hq
        exact exists_drained_append _ (h.staging q (List.mem_of_mem_eraseIdx hq))
      · rw [hrun]
        intro stage hstage
        rcases List.mem_cons.mp hstage with rfl | hold
        · exact exists_drained_append _ (h.staging p (List.mem_of_getElem? hp))
        · have hswept := (List.mem_filter.mp hold).1
          exact exists_drained_append _ (h.stages stage (List.mem_filter.mp hswept).1)

/-- Every stage holds what a `stage_pull` under its token drained. -/
lemma provenance_run (ops : List StoreOp) : Provenance ops := by
  induction ops using List.reverseRecOn with
  | nil => exact ⟨by simp [run], by simp [run]⟩
  | append_singleton ops op ih => exact ih.append op

end Provenance

/-- Mail is handed out in order of arrival exactly when, whenever a queue is handed out, the times
its senders wrote ascend. -/
theorem inArrivalOrder_iff (ops : List StoreOp) : InArrivalOrder ops ↔ SendersInOrder ops := by
  have hdrained : ∀ userId before, drained userId before = pendingOf userId (mailEvents before) ↔
      TimesAscend (pendingOf userId (mailEvents before)) :=
    fun userId before => (queues_run userId before).selectPending_eq_iff
  constructor
  · intro h before op after userId hops htakes
    exact (hdrained userId before).mp (h.drains before op after userId hops htakes)
  · intro h
    have hdrains : ∀ before op after userId, ops = before ++ op :: after →
        op.takesFrom = some userId → drained userId before = pendingOf userId (mailEvents before) :=
      fun before op after userId hops htakes =>
        (hdrained userId before).mpr (h before op after userId hops htakes)
    refine ⟨hdrains, ?_⟩
    rintro before after rfl stage hstage
    obtain ⟨earlier, later, recipientId, rfl, hmessages⟩ :=
      (provenance_run before).stages stage hstage
    refine ⟨earlier, later, recipientId, rfl, ?_⟩
    rw [hmessages]
    exact hdrains earlier (.stageDrain recipientId stage.rendezvousToken) (later ++ after) recipientId
      (by simp) rfl

/-- A message with the time that its sender wrote. -/
def timedMail (id : String) (timestampMs : UInt64) : StoredEnvelope :=
  ⟨id, { senderId := "alice", recipientId := "bob", ciphertext := [1], envelopeType := .ratchet,
         timestampMs, sealedSender := false }⟩

/-- A sender whose clock is one second ahead, then one whose clock is not. -/
def clockSkew : List StoreOp :=
  [.enqueue "bob" (timedMail "m1" 2000), .enqueue "bob" (timedMail "m2" 1000), .drain "bob"]

theorem not_inArrivalOrder_clockSkew : ¬InArrivalOrder clockSkew := by
  intro h
  have hdrains := h.drains [.enqueue "bob" (timedMail "m1" 2000), .enqueue "bob" (timedMail "m2" 1000)]
    (.drain "bob") [] "bob" rfl rfl
  exact absurd hdrains (by decide +kernel)

end Parda.Server
