import Parda.ClientStore.Database
import Parda.Lib.Simulation

/-!
# Durable history

What the `messages` table holds after any sequence of calls: of every peer the messages accepted
since the last deletion of its history, and never a self-destructing one.
-/

namespace Parda.ClientStore

open Protocol

inductive HistoryEvent where
  | accepted (message : StoredMessage)
  | deleted (peerAddress : String)

variable (c : EnvelopeText)

/-- What a call did to the history, by the result it returned. -/
def Database.historyEvent (db : Database) : StoreCall → Option HistoryEvent
  | .storeMessage id peerAddress direction envelope =>
    if (db.storeMessage c id peerAddress direction envelope).1.isOk then
      some (.accepted ⟨id, peerAddress, direction, envelope, envelope.timestampMs⟩)
    else none
  | .deleteHistoryFor peerAddress =>
    if (db.deleteHistoryFor peerAddress).1.isOk then some (.deleted peerAddress) else none
  | _ => none

def Database.historyEvents (db : Database) (calls : List StoreCall) : List HistoryEvent :=
  Machine.outputs (Database.step c) (Database.historyEvent c) db calls

/-- The messages of a peer accepted since the last deletion of its history. -/
def keptOf (peerAddress : String) (events : List HistoryEvent) : List StoredMessage :=
  events.foldl (fun kept event =>
    match event with
    | .accepted message => if message.peerAddress = peerAddress then kept ++ [message] else kept
    | .deleted deleted => if deleted = peerAddress then [] else kept) []

/-- Every row of the table is an envelope that does not self-destruct. -/
def Database.Durable (db : Database) : Prop :=
  ∀ rows ∈ db.messages, ∀ row ∈ rows, ∃ envelope,
    c.fromText row.envelopeJson = .ok envelope ∧ envelope.selfDestructAt = none ∧
      envelope.readTriggeredDestruct = false

/-- A whole history, of all peers, after one more event. -/
def keepEvent (kept : List StoredMessage) : HistoryEvent → List StoredMessage
  | .accepted message => kept ++ [message]
  | .deleted peerAddress => kept.filter fun message => message.peerAddress ≠ peerAddress

/-- The table holds these messages, each of which may be kept. -/
structure Database.Keeps (db : Database) (kept : List StoredMessage) : Prop where
  rows : db.messages.getD [] = kept.map (StoredMessage.row c)
  durable : ∀ message ∈ kept, isSelfDestructing message.envelope = false

variable {c}

lemma keptOf_eq_filter (peerAddress : String) (events : List HistoryEvent) :
    keptOf peerAddress events =
      (events.foldl keepEvent []).filter fun message => message.peerAddress = peerAddress := by
  have hgeneral : ∀ kept : List StoredMessage,
      events.foldl (fun kept event =>
        match event with
        | .accepted message => if message.peerAddress = peerAddress then kept ++ [message] else kept
        | .deleted deleted => if deleted = peerAddress then [] else kept)
          (kept.filter fun message => message.peerAddress = peerAddress) =
        (events.foldl keepEvent kept).filter fun message => message.peerAddress = peerAddress := by
    induction events with
    | nil => exact fun _ => rfl
    | cons event events ih =>
      intro kept
      rw [List.foldl_cons, List.foldl_cons, ← ih]
      congr 1
      cases event with
      | accepted message =>
        by_cases h : message.peerAddress = peerAddress
        · simp [keepEvent, h]
        · simp [keepEvent, h]
      | deleted deleted =>
        by_cases h : deleted = peerAddress
        · simp [keepEvent, h, List.filter_filter]
        · simp only [keepEvent, h, if_false, List.filter_filter]
          apply List.filter_congr
          intro message _
          by_cases hmessage : message.peerAddress = peerAddress
          · have hne : peerAddress ≠ deleted := fun heq => h heq.symm
            simp [hmessage, hne]
          · simp [hmessage]
  exact hgeneral []

/-- What a computation that succeeds returned for every element. -/
lemma map_ok_of_mapM_eq_ok {α β ε : Type} {f : α → Except ε β} {l : List α} {bs : List β}
    (h : l.mapM f = .ok bs) : bs.map Except.ok = l.map f := by
  induction l generalizing bs with
  | nil =>
    cases h
    rfl
  | cons a l ih =>
    rw [List.mapM_cons] at h
    cases hb : f a with
    | error e =>
      rw [hb] at h
      cases h
    | ok b =>
      rw [hb] at h
      cases htail : l.mapM f with
      | error e =>
        rw [htail] at h
        cases h
      | ok tail =>
        rw [htail] at h
        cases h
        rw [List.map_cons, List.map_cons, ih htail, hb]

/-- A computation that succeeds on every element. -/
lemma exists_mapM_eq_ok {α β ε : Type} {f : α → Except ε β} {l : List α}
    (h : ∀ a ∈ l, ∃ b, f a = .ok b) : ∃ bs, l.mapM f = .ok bs := by
  induction l with
  | nil => exact ⟨[], rfl⟩
  | cons a l ih =>
    rw [List.forall_mem_cons] at h
    obtain ⟨b, hb⟩ := h.1
    obtain ⟨bs, hbs⟩ := ih h.2
    refine ⟨b :: bs, ?_⟩
    rw [List.mapM_cons, hb, hbs]
    rfl

namespace Database

variable {db : Database} {kept : List StoredMessage}

/-- A refused message changes nothing. -/
lemma storeMessage_error {id peerAddress : String} {direction : MessageDirection}
    {envelope : MessageEnvelope} {e : StoreError}
    (h : (db.storeMessage c id peerAddress direction envelope).1 = .error e) :
    (db.storeMessage c id peerAddress direction envelope).2 = db := by
  unfold storeMessage at h ⊢
  by_cases hself : isSelfDestructing envelope = true
  · rw [if_pos hself]
  · rw [if_neg hself] at h ⊢
    cases hrows : db.messages with
    | none => rfl
    | some rows =>
      simp only [hrows] at h ⊢
      split
      · rfl
      · rename_i hfresh
        rw [if_neg hfresh] at h
        cases h

/-- What an accepted message adds. -/
lemma storeMessage_ok {id peerAddress : String} {direction : MessageDirection}
    {envelope : MessageEnvelope}
    (h : (db.storeMessage c id peerAddress direction envelope).1.isOk = true) :
    isSelfDestructing envelope = false ∧ ∃ rows, db.messages = some rows ∧
      (db.storeMessage c id peerAddress direction envelope).2 =
        { db with messages := some (rows ++
          [StoredMessage.row c ⟨id, peerAddress, direction, envelope, envelope.timestampMs⟩]) } := by
  unfold storeMessage at h ⊢
  by_cases hself : isSelfDestructing envelope = true
  · rw [if_pos hself] at h
    cases h
  · rw [if_neg hself] at h ⊢
    refine ⟨Bool.not_eq_true _ ▸ hself, ?_⟩
    cases hrows : db.messages with
    | none =>
      simp only [hrows] at h
      cases h
    | some rows =>
      simp only [hrows] at h ⊢
      split
      · rename_i hold
        rw [if_pos hold] at h
        cases h
      · exact ⟨rows, rfl, rfl⟩

lemma Keeps.storeMessage (h : db.Keeps c kept) (id peerAddress : String)
    (direction : MessageDirection) (envelope : MessageEnvelope) :
    (db.storeMessage c id peerAddress direction envelope).2.Keeps c
      (((db.historyEvent c (.storeMessage id peerAddress direction envelope)).map
        (keepEvent kept)).getD kept) := by
  unfold historyEvent
  by_cases hok : (db.storeMessage c id peerAddress direction envelope).1.isOk = true
  · obtain ⟨hself, rows, hrows, hnext⟩ := storeMessage_ok hok
    have hkept := h.rows
    rw [hrows, Option.getD_some] at hkept
    simp only [hok, if_true, Option.map_some, Option.getD_some, keepEvent]
    rw [hnext]
    constructor
    · simp [hkept]
    · intro message hmessage
      rcases List.mem_append.mp hmessage with hold | hnew
      · exact h.durable message hold
      · rw [List.mem_singleton.mp hnew]
        exact hself
  · simp only [hok, Bool.false_eq_true, if_false, Option.map_none, Option.getD_none]
    cases hresult : (db.storeMessage c id peerAddress direction envelope).1 with
    | error e =>
      rw [storeMessage_error hresult]
      exact h
    | ok id' =>
      rw [hresult] at hok
      exact absurd rfl hok

lemma Keeps.deleteHistoryFor (h : db.Keeps c kept) (peerAddress : String) :
    (db.deleteHistoryFor peerAddress).2.Keeps c
      (((db.historyEvent c (.deleteHistoryFor peerAddress)).map (keepEvent kept)).getD kept) := by
  unfold historyEvent Database.deleteHistoryFor
  cases hrows : db.messages with
  | none => exact h
  | some rows =>
    have hkept := h.rows
    rw [hrows, Option.getD_some] at hkept
    constructor
    · change Table.deleteKey MessageRow.peerAddress rows peerAddress =
        (kept.filter fun message => message.peerAddress ≠ peerAddress).map (StoredMessage.row c)
      unfold Table.deleteKey
      rw [hkept, List.filter_map]
      rfl
    · intro message hmessage
      exact h.durable message (List.mem_filter.mp hmessage).1

lemma Keeps.runMigrations (h : db.Keeps c kept) : db.runMigrations.Keeps c kept := by
  refine ⟨?_, h.durable⟩
  have hrows : db.runMigrations.messages.getD [] = db.messages.getD [] := by
    unfold Database.runMigrations
    dsimp only
    split <;> rfl
  rw [hrows]
  exact h.rows

/-- The other calls leave the table alone. -/
lemma Keeps.congr {db' : Database} (h : db.Keeps c kept) (hmessages : db'.messages = db.messages) :
    db'.Keeps c kept :=
  ⟨hmessages ▸ h.rows, h.durable⟩

lemma stageSelfDestructing_messages (id peerAddress : String) (state : PersistedSelfDestructState)
    (stagedAtMs : UInt64) :
    (db.stageSelfDestructing id peerAddress state stagedAtMs).2.messages = db.messages := by
  unfold stageSelfDestructing
  split
  · rfl
  · split <;> rfl

lemma takeSelfDestructing_messages (id : String) :
    (db.takeSelfDestructing id).2.messages = db.messages := by
  unfold takeSelfDestructing
  split <;> rfl

lemma purgeExpiredSelfDestructing_messages (nowMs : UInt64) :
    (db.purgeExpiredSelfDestructing nowMs).2.messages = db.messages := by
  unfold purgeExpiredSelfDestructing
  split <;> rfl

/-- A call does to the kept messages what its event says. -/
lemma Keeps.step (h : db.Keeps c kept) (call : StoreCall) :
    (db.step c call).Keeps c (((db.historyEvent c call).map (keepEvent kept)).getD kept) := by
  cases call with
  | storeMessage id peerAddress direction envelope =>
    exact h.storeMessage id peerAddress direction envelope
  | historyFor peerAddress order => exact h
  | deleteHistoryFor peerAddress => exact h.deleteHistoryFor peerAddress
  | stageSelfDestructing id peerAddress state stagedAtMs =>
    exact h.congr (stageSelfDestructing_messages id peerAddress state stagedAtMs)
  | takeSelfDestructing id => exact h.congr (takeSelfDestructing_messages id)
  | purgeExpiredSelfDestructing nowMs => exact h.congr (purgeExpiredSelfDestructing_messages nowMs)
  | pendingSelfDestructIds peerAddress order => exact h
  | reopen => exact h.runMigrations

/-- The table after a run is the history that the run's events say. -/
lemma Keeps.run (h : db.Keeps c kept) (calls : List StoreCall) :
    (Machine.run (Database.step c) db calls).Keeps c
      ((db.historyEvents c calls).foldl keepEvent kept) := by
  induction calls generalizing db kept with
  | nil => exact h
  | cons call calls ih =>
    have htail := ih (h.step call)
    unfold historyEvents at htail ⊢
    rw [Machine.run_cons, Machine.outputs_cons, List.foldl_append]
    cases hevent : db.historyEvent c call with
    | none => simpa [hevent] using htail
    | some event => simpa [hevent] using htail

lemma keeps_schema (version : ℕ) : (schema version).Keeps c [] := by
  refine ⟨?_, by simp⟩
  unfold schema
  dsimp only
  split <;> rfl

lemma Keeps.isDurable (h : db.Keeps c kept) : db.Durable c := by
  intro rows hrows row hrow
  have hkept := h.rows
  rw [Option.mem_def.mp hrows, Option.getD_some] at hkept
  rw [hkept] at hrow
  obtain ⟨message, hmessage, rfl⟩ := List.mem_map.mp hrow
  have hself := h.durable message hmessage
  unfold isSelfDestructing at hself
  rw [Bool.or_eq_false_iff, Option.isSome_eq_false_iff, Option.isNone_iff_eq_none] at hself
  exact ⟨message.envelope, EnvelopeText.fromText_toText c _, hself.1, hself.2⟩

/-- The history of a peer reads back as the messages kept of it. -/
lemma Keeps.historyFor (h : db.Keeps c kept) (hopen : db.messages.isSome = true)
    (order : Table.OrderBy MessageRow.storedAtMs) (peerAddress : String) :
    ∃ messages, db.historyFor c order peerAddress = .ok messages ∧
      messages.Perm (kept.filter fun message => message.peerAddress = peerAddress) := by
  obtain ⟨rows, hrows⟩ := Option.isSome_iff_exists.mp hopen
  have hkept := h.rows
  rw [hrows, Option.getD_some] at hkept
  have hselected : rows.filter (fun row => row.peerAddress = peerAddress) =
      (kept.filter fun message => message.peerAddress = peerAddress).map (StoredMessage.row c) := by
    rw [hkept, List.filter_map]
    rfl
  -- every selected row reads back, in whatever order the rows come
  have hread : ∀ row ∈ order.sort (rows.filter fun row => row.peerAddress = peerAddress),
      ∃ message, row.message c = .ok message := by
    intro row hrow
    have hmem := (order.sort_perm _).mem_iff.mp hrow
    rw [hselected] at hmem
    obtain ⟨message, -, rfl⟩ := List.mem_map.mp hmem
    exact ⟨message, StoredMessage.row_message c message⟩
  obtain ⟨messages, hall⟩ := exists_mapM_eq_ok hread
  refine ⟨messages, ?_, ?_⟩
  · unfold Database.historyFor
    rw [hrows]
    exact hall
  · have hinj : Function.Injective (Except.ok : StoredMessage → Except StoreError StoredMessage) :=
      fun _ _ heq => Except.ok.inj heq
    apply (List.map_perm_map_iff hinj).mp
    rw [map_ok_of_mapM_eq_ok hall]
    refine ((order.sort_perm _).map _).trans ?_
    rw [hselected, List.map_map]
    have hback : (MessageRow.message c ∘ StoredMessage.row c) = Except.ok :=
      funext (StoredMessage.row_message c)
    rw [hback]

end Database

/-- After any calls on a database of any schema version, whatever was in it when it was opened:
the table holds no self-destructing message, a refused message changed nothing, and the history of
a peer is what was accepted of it since its last deletion. -/
theorem history_integrity (c : EnvelopeText) (version : ℕ) (earlier calls : List StoreCall) :
    Machine.EveryState (Database.step c) (Database.Durable c) (Database.schema version)
        (earlier ++ .reopen :: calls) ∧
      (∀ (db : Database) (id peerAddress : String) (direction : MessageDirection)
        (envelope : MessageEnvelope) (e : StoreError),
        (db.storeMessage c id peerAddress direction envelope).1 = .error e →
          (db.storeMessage c id peerAddress direction envelope).2 = db) ∧
      ∀ (peerAddress : String) (order : Table.OrderBy MessageRow.storedAtMs),
        ∃ messages,
          (Machine.run (Database.step c) (Database.schema version)
            (earlier ++ .reopen :: calls)).historyFor c order peerAddress = .ok messages ∧
          (messages : Multiset StoredMessage) =
            keptOf peerAddress ((Database.schema version).historyEvents c
              (earlier ++ .reopen :: calls)) := by
  have hkeeps := Database.keeps_schema (c := c) version
  refine ⟨?_, fun _ _ _ _ _ _ => Database.storeMessage_error, fun peerAddress order => ?_⟩
  · have hstep : ∀ (db : Database) (call : StoreCall), (∃ kept, db.Keeps c kept) →
        ∃ kept, (db.step c call).Keeps c kept := fun _ call ⟨_, h⟩ => ⟨_, h.step call⟩
    have hall := Machine.everyState_of_step hstep ⟨[], hkeeps⟩ (earlier ++ .reopen :: calls)
    exact hall.mono fun db ⟨_, h⟩ => h.isDurable
  · have hopen := (Database.opened_run (c := c) version earlier calls).messages
    obtain ⟨messages, hmessages, hperm⟩ :=
      (hkeeps.run (earlier ++ .reopen :: calls)).historyFor hopen order peerAddress
    refine ⟨messages, hmessages, ?_⟩
    rw [keptOf_eq_filter]
    exact Multiset.coe_eq_coe.mpr hperm

end Parda.ClientStore
