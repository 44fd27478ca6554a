import Parda.ClientStore.HoldingArea
import Parda.ClientStore.Lifecycle
import Parda.Lib.SignedCast

/-!
# What a purge sweeps

The deadlines of the holding area are unsigned, and its column is signed. A purge compares in
the column.
-/

namespace Parda.ClientStore

open Protocol SignedCast

/-- A message as it was handed to `stage_self_destructing`. -/
structure StagedMessage where
  id : String
  peerAddress : String
  state : PersistedSelfDestructState
  stagedAtMs : UInt64

namespace StagedMessage

def row (message : StagedMessage) : PendingRow :=
  pendingRow message.id message.peerAddress message.state message.stagedAtMs

/-- The deadline has passed, as `restore` compares it. -/
def passed (nowMs : UInt64) (message : StagedMessage) : Bool :=
  match message.state.expiresAtMs with
  | none => false
  | some deadline => deadline ≤ nowMs

def call (message : StagedMessage) : StoreCall :=
  .stageSelfDestructing message.id message.peerAddress message.state message.stagedAtMs

end StagedMessage

/-- The holding area has the rows of these messages. -/
def Database.Contains (db : Database) (staged : List StagedMessage) : Prop :=
  db.pending = some (staged.map StagedMessage.row)

/-- The purge deletes the messages whose deadline has passed, and counts them. -/
def Database.PurgesExactly (db : Database) (staged : List StagedMessage) (nowMs : UInt64) : Prop :=
  db.purgeExpiredSelfDestructing nowMs = (.ok (staged.countP (StagedMessage.passed nowMs)),
    { db with
      pending := some ((staged.filter fun message => !message.passed nowMs).map StagedMessage.row) })

/-- The deadlines are in the half of the range that the time is in. -/
def DeadlinesNear (staged : List StagedMessage) (nowMs : UInt64) : Prop :=
  ∀ message ∈ staged, ∀ deadline ∈ message.state.expiresAtMs, SameHalf deadline nowMs

section Purge

variable {db : Database} {staged : List StagedMessage} {nowMs : UInt64}

lemma StagedMessage.row_injective : Function.Injective StagedMessage.row := by
  intro message message' heq
  obtain ⟨id, peerAddress, state, stagedAtMs⟩ := message
  obtain ⟨id', peerAddress', state', stagedAtMs'⟩ := message'
  have hstate : state = state' := by
    have hread := congrArg PendingRow.state heq
    change (pendingRow id peerAddress state stagedAtMs).state =
      (pendingRow id' peerAddress' state' stagedAtMs').state at hread
    rw [pendingRow_state, pendingRow_state] at hread
    exact Except.ok.inj hread
  have hstagedAt : stagedAtMs = stagedAtMs' := by
    have hcast : stagedAtMs.toInt64 = stagedAtMs'.toInt64 := congrArg PendingRow.stagedAtMs heq
    rw [← stagedAtMs.toUInt64_toInt64, hcast, UInt64.toUInt64_toInt64]
  have hid : id = id' := congrArg PendingRow.id heq
  have hpeer : peerAddress = peerAddress' := congrArg PendingRow.peerAddress heq
  rw [hid, hpeer, hstate, hstagedAt]

/-- SQL finds the deadlines of a message passed as `restore` does exactly when they are near. -/
lemma expiredBy_eq_passed_iff {message : StagedMessage} :
    message.row.expiredBy nowMs = message.passed nowMs ↔
      ∀ deadline ∈ message.state.expiresAtMs, SameHalf deadline nowMs := by
  unfold StagedMessage.row pendingRow PendingRow.expiredBy StagedMessage.passed
  cases message.state.expiresAtMs with
  | none => simp
  | some deadline =>
    simp only [Option.map_some, Option.mem_some_iff, forall_eq']
    rw [decide_eq_decide]
    exact toInt64_le_iff_le

/-- Two filters of a list agree only where their tests do. -/
lemma forall_eq_of_filter_eq {α : Type} {l : List α} {p q : α → Bool}
    (h : l.filter p = l.filter q) : ∀ a ∈ l, p a = q a := by
  intro a ha
  have hmem : a ∈ l.filter p ↔ a ∈ l.filter q := by rw [h]
  rw [List.mem_filter, List.mem_filter, and_iff_right ha, and_iff_right ha] at hmem
  exact Bool.eq_iff_iff.mpr hmem

/-- A purge is exact exactly when every deadline is in the half of the range that the time is
in. -/
theorem purgesExactly_iff (h : db.Contains staged) (nowMs : UInt64) :
    db.PurgesExactly staged nowMs ↔ DeadlinesNear staged nowMs := by
  have hpurge : db.purgeExpiredSelfDestructing nowMs =
      (.ok (staged.countP fun message => message.row.expiredBy nowMs),
        { db with
          pending := some
            ((staged.filter fun message => !message.row.expiredBy nowMs).map
              StagedMessage.row) }) := by
    unfold Database.purgeExpiredSelfDestructing
    rw [h]
    dsimp only
    rw [List.countP_map, List.filter_map]
    rfl
  unfold Database.PurgesExactly
  rw [hpurge]
  constructor
  · intro hexact message hmessage
    have hpending := congrArg (fun result => result.2.pending) hexact
    have hfilter := StagedMessage.row_injective.list_map (Option.some.inj hpending)
    have hagree := forall_eq_of_filter_eq hfilter message hmessage
    exact expiredBy_eq_passed_iff.mp (Bool.not_inj hagree)
  · intro hnear
    have hagree : ∀ message ∈ staged, message.row.expiredBy nowMs = message.passed nowMs :=
      fun message hmessage => expiredBy_eq_passed_iff.mpr (hnear message hmessage)
    have hcount : staged.countP (fun message => message.row.expiredBy nowMs) =
        staged.countP (StagedMessage.passed nowMs) :=
      List.countP_congr fun message hmessage => by rw [hagree message hmessage]
    have hfilter : (staged.filter fun message => !message.row.expiredBy nowMs) =
        staged.filter fun message => !message.passed nowMs :=
      List.filter_congr fun message hmessage => by rw [hagree message hmessage]
    rw [hcount, hfilter]

end Purge

namespace Database

variable {c : EnvelopeText} {db : Database}

/-- The rows are those of messages that these calls staged. -/
def HoldsStaged (calls : List StoreCall) (db : Database) : Prop :=
  ∃ staged : List StagedMessage, db.pending.getD [] = staged.map StagedMessage.row ∧
    ∀ message ∈ staged, message.call ∈ calls

lemma HoldsStaged.congr {calls : List StoreCall} (h : db.HoldsStaged calls) {db' : Database}
    (hrows : db'.pending.getD [] = db.pending.getD []) : db'.HoldsStaged calls := by
  obtain ⟨staged, hstaged, hcalls⟩ := h
  exact ⟨staged, hrows.trans hstaged, hcalls⟩

/-- A call that takes rows out of an open store. -/
lemma HoldsStaged.filter {calls : List StoreCall} (h : db.HoldsStaged calls) {db' : Database}
    {p : PendingRow → Bool} (hnone : db.pending = none → db'.pending = none)
    (hsome : ∀ rows, db.pending = some rows → db'.pending = some (rows.filter p)) :
    db'.HoldsStaged calls := by
  cases hrows : db.pending with
  | none => exact h.congr (by rw [hnone hrows, hrows])
  | some rows =>
    obtain ⟨staged, hstaged, hcalls⟩ := h
    rw [hrows, Option.getD_some] at hstaged
    refine ⟨staged.filter (p ∘ StagedMessage.row), ?_, ?_⟩
    · rw [hsome rows hrows, Option.getD_some, hstaged, List.filter_map]
    · intro message hmessage
      exact hcalls message (List.mem_filter.mp hmessage).1

lemma HoldsStaged.step {calls : List StoreCall} (h : db.HoldsStaged calls) {call : StoreCall}
    (hcall : call ∈ calls) : (db.step c call).HoldsStaged calls := by
  cases call with
  | storeMessage id peerAddress direction envelope =>
    exact h.congr (congrArg (·.getD []) (storeMessage_pending id peerAddress direction envelope))
  | historyFor peerAddress order => exact h
  | deleteHistoryFor peerAddress =>
    exact h.congr (congrArg (·.getD []) (deleteHistoryFor_pending peerAddress))
  | stageSelfDestructing id peerAddress state stagedAtMs =>
    change (db.stageSelfDestructing id peerAddress state stagedAtMs).2.HoldsStaged calls
    cases hrows : db.pending with
    | none =>
      unfold stageSelfDestructing
      rw [hrows]
      exact h
    | some rows =>
      rw [stageSelfDestructing_eq hrows]
      split
      · exact h
      · obtain ⟨staged, hstaged, hcalls⟩ := h
        rw [hrows, Option.getD_some] at hstaged
        refine ⟨staged ++ [⟨id, peerAddress, state, stagedAtMs⟩], ?_, ?_⟩
        · rw [List.map_append, ← hstaged]
          rfl
        · intro message hmessage
          rcases List.mem_append.mp hmessage with hold | hnew
          · exact hcalls message hold
          · rw [List.mem_singleton.mp hnew]
            exact hcall
  | takeSelfDestructing id =>
    refine h.filter ?_ fun rows hrows => pending_takeSelfDestructing hrows id
    intro hrows
    change (db.takeSelfDestructing id).2.pending = none
    unfold takeSelfDestructing
    rw [hrows]
    exact hrows
  | purgeExpiredSelfDestructing nowMs =>
    refine h.filter ?_ fun rows hrows => pending_purge hrows nowMs
    intro hrows
    change (db.purgeExpiredSelfDestructing nowMs).2.pending = none
    unfold purgeExpiredSelfDestructing
    rw [hrows]
    exact hrows
  | pendingSelfDestructIds peerAddress order => exact h
  | reopen => exact h.congr runMigrations_pending

lemma HoldsStaged.run {calls : List StoreCall} (h : db.HoldsStaged calls) {later : List StoreCall}
    (hlater : ∀ call ∈ later, call ∈ calls) :
    (Machine.run (Database.step c) db later).HoldsStaged calls := by
  have hstep : ∀ (db : Database) (call : StoreCall), db.HoldsStaged calls → call ∈ calls →
      (db.step c call).HoldsStaged calls := fun _ _ hdb hcall => hdb.step hcall
  exact (Machine.everyState_of_everyStep hstep h (Machine.everyStep_of_forall_mem db hlater)).last

/-- An open store holds the rows of messages that were staged in it, whatever was called. -/
theorem exists_contains_run (version : ℕ) (earlier calls : List StoreCall) :
    ∃ staged, (Machine.run (step c) (schema version) (earlier ++ .reopen :: calls)).Contains staged ∧
      ∀ message ∈ staged, message.call ∈ earlier ++ .reopen :: calls := by
  have hstart : (schema version).HoldsStaged (earlier ++ .reopen :: calls) := by
    refine ⟨[], ?_, by simp⟩
    unfold schema
    dsimp only
    split <;> rfl
  obtain ⟨staged, hstaged, hcalls⟩ := hstart.run (c := c) fun _ hcall => hcall
  obtain ⟨rows, hrows⟩ :=
    Option.isSome_iff_exists.mp (opened_run (c := c) version earlier calls).pending
  rw [hrows, Option.getD_some] at hstaged
  exact ⟨staged, hrows.trans (congrArg some hstaged), hcalls⟩

end Database

section Sealed

/-- Sealed with the longest window there is, in milliseconds. -/
def longestCall : SealCall := .seal [104, 105] 1000 (fromMillis 18446744073709551615)

/-- What the application hands over to be staged. -/
def longestState : PersistedSelfDestructState :=
  match (sampleSealed longestCall).1.exportForPersistence (sampleSealed longestCall).2 with
  | .ok state => state
  | .error _ => ⟨[], List.Vector.replicate 32 0, .timeBound, none⟩

def longestStaged : Database :=
  Machine.run (Database.step .compact) (Database.schema 0)
    [.reopen, .stageSelfDestructing "a" "bob" longestState 1000]

theorem purgesExactly_iff_longest :
    longestStaged.PurgesExactly [⟨"a", "bob", longestState, 1000⟩] 9223372036854775808 ↔
      DeadlinesNear [⟨"a", "bob", longestState, 1000⟩] 9223372036854775808 :=
  purgesExactly_iff (show longestStaged.pending = some _ by decide +kernel) 9223372036854775808

theorem not_purgesExactly_longest :
    longestState.expiresAtMs = some 18446744073709551615 ∧
      ¬longestStaged.PurgesExactly [⟨"a", "bob", longestState, 1000⟩] 2000 := by
  refine ⟨by decide +kernel, ?_⟩
  intro h
  have hpending := congrArg (fun result => result.2.pending) h
  exact absurd hpending (by decide +kernel)

end Sealed

end Parda.ClientStore
