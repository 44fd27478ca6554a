import Parda.ClientStore.Database
import Parda.Lib.Simulation

/-!
# The holding area over runs

What becomes of one staged message under any calls. Its row is followed on its own: no other
row has a say in it.
-/

namespace Parda.ClientStore

open Protocol

/-- The ids that calls stage under. -/
def stagedIds (calls : List StoreCall) : List String :=
  calls.filterMap fun call =>
    match call with
    | .stageSelfDestructing id _ _ _ => some id
    | _ => none

/-- A call that removes a message staged under `id` with a deadline: its take, or a purge that the
deadline has passed at, compared as SQL does. -/
def StoreCall.Removes (id : String) (expiresAtMs : Option UInt64) : StoreCall → Prop
  | .takeSelfDestructing id' => id' = id
  | .purgeExpiredSelfDestructing nowMs => ∃ ms ∈ expiresAtMs, ms.toInt64 ≤ nowMs.toInt64
  | _ => False

/-- The id that a call is about. -/
def StoreCall.about : StoreCall → Option String
  | .stageSelfDestructing id _ _ _ => some id
  | .takeSelfDestructing id => some id
  | _ => none

namespace Database

def row? (db : Database) (id : String) : Option PendingRow :=
  (db.pending.getD []).find? fun row => row.id = id

def Holds (db : Database) (id : String) : Prop := (db.row? id).isSome = true

end Database

variable (c : EnvelopeText)

/-- The states that the takes of an id return. -/
def takesOf (id : String) (db : Database) (calls : List StoreCall) :
    List PersistedSelfDestructState :=
  Machine.outputs (Database.step c) (fun db call =>
    match call with
    | .takeSelfDestructing id' =>
      if id' = id then (db.takeSelfDestructing id').1.toOption.join else none
    | _ => none) db calls

/-- The holding area gives every staged message back once, as it was staged. -/
structure ExactlyOnce (start : Database) (calls : List StoreCall) : Prop where
  taken_once : ∀ id, (takesOf c id start calls).length ≤ 1
  taken_as_staged : ∀ before id after, calls = before ++ .takeSelfDestructing id :: after →
    ∃ taken, ((Machine.run (Database.step c) start before).takeSelfDestructing id).1 = .ok taken ∧
      ∀ state ∈ taken, ∃ peerAddress stagedAtMs,
        .stageSelfDestructing id peerAddress state stagedAtMs ∈ before
  gone_for_good : ∀ before call after id, calls = before ++ call :: after →
    (Machine.run (Database.step c) start before).Holds id →
      ¬(Machine.run (Database.step c) start (before ++ [call])).Holds id →
        ((Machine.run (Database.step c) start calls).takeSelfDestructing id).1 = .ok none ∧
        ∀ order peerAddress, ∃ ids,
          (Machine.run (Database.step c) start calls).pendingSelfDestructIds order peerAddress =
            .ok ids ∧ id ∉ ids
  held_until_removed : ∀ before id peerAddress state stagedAtMs after,
    calls = before ++ .stageSelfDestructing id peerAddress state stagedAtMs :: after →
      (∀ call ∈ after, ¬call.Removes id state.expiresAtMs) →
        ((Machine.run (Database.step c) start calls).takeSelfDestructing id).1 = .ok (some state) ∧
        ∀ order peerAddress', ∃ ids,
          (Machine.run (Database.step c) start calls).pendingSelfDestructIds order peerAddress' =
            .ok ids ∧ (id ∈ ids ↔ peerAddress' = peerAddress)
  others_unaffected : ∀ before call after id id', calls = before ++ call :: after →
    call.about = some id' → id' ≠ id →
      (Machine.run (Database.step c) start (before ++ [call])).row? id =
        (Machine.run (Database.step c) start before).row? id

variable {c}

/-- What a call does to the row of an id. -/
def nextRow (id : String) (row : Option PendingRow) : StoreCall → Option PendingRow
  | .stageSelfDestructing id' peerAddress state stagedAtMs =>
    if id' = id then row.or (some (pendingRow id peerAddress state stagedAtMs)) else row
  | .takeSelfDestructing id' => if id' = id then none else row
  | .purgeExpiredSelfDestructing nowMs => row.filter fun row => !row.expiredBy nowMs
  | _ => row

namespace Database

variable {db : Database} {id : String}

/-- A usable holding area, with its primary key. -/
structure Keyed (db : Database) : Prop where
  opened : db.Opened
  distinct : Table.KeysDistinct PendingRow.id (db.pending.getD [])

lemma Keyed.exists_rows (h : db.Keyed) :
    ∃ rows, db.pending = some rows ∧ Table.KeysDistinct PendingRow.id rows := by
  obtain ⟨rows, hrows⟩ := Option.isSome_iff_exists.mp h.opened.pending
  have hdistinct := h.distinct
  rw [hrows, Option.getD_some] at hdistinct
  exact ⟨rows, hrows, hdistinct⟩

/-- Staging under an id that is in use fails and changes nothing. -/
lemma stageSelfDestructing_eq {rows : List PendingRow} (hrows : db.pending = some rows)
    (id peerAddress : String) (state : PersistedSelfDestructState) (stagedAtMs : UInt64) :
    (db.stageSelfDestructing id peerAddress state stagedAtMs).2 =
      if (db.row? id).isSome then db
      else { db with pending := some (rows ++ [pendingRow id peerAddress state stagedAtMs]) } := by
  have hany : rows.any (fun row => row.id = id) = (db.row? id).isSome := by
    unfold row?
    rw [hrows, Option.getD_some, Bool.eq_iff_iff, List.any_eq_true, List.find?_isSome]
  unfold stageSelfDestructing ClientStore.stageSelfDestructing
  rw [hrows]
  simp only [hany]
  by_cases hheld : (db.row? id).isSome = true
  · simp [hheld]
  · simp [hheld]

lemma Keyed.stageSelfDestructing (h : db.Keyed) (id peerAddress : String)
    (state : PersistedSelfDestructState) (stagedAtMs : UInt64) :
    Table.KeysDistinct PendingRow.id
      ((db.stageSelfDestructing id peerAddress state stagedAtMs).2.pending.getD []) := by
  obtain ⟨rows, hrows, hdistinct⟩ := h.exists_rows
  rw [stageSelfDestructing_eq hrows]
  split
  · exact h.distinct
  · rename_i hfree
    have hfresh : id ∉ rows.map PendingRow.id := by
      intro hmem
      obtain ⟨row, hrow, rfl⟩ := List.mem_map.mp hmem
      apply hfree
      unfold row?
      rw [hrows, Option.getD_some, hdistinct.find?_of_mem hrow]
      rfl
    unfold Table.KeysDistinct at hdistinct ⊢
    rw [Option.getD_some, List.map_append]
    refine List.nodup_append.mpr ⟨hdistinct, List.nodup_singleton _, ?_⟩
    intro id' hid' id'' hid'' heq
    rw [List.mem_singleton.mp hid''] at heq
    have hid : id' = id := heq
    exact hfresh (hid ▸ hid')

lemma pending_takeSelfDestructing {rows : List PendingRow} (hrows : db.pending = some rows)
    (id : String) :
    (db.takeSelfDestructing id).2.pending = some (Table.deleteKey PendingRow.id rows id) := by
  unfold takeSelfDestructing ClientStore.takeSelfDestructing
  rw [hrows]
  dsimp only
  cases hfind : rows.find? (fun row => row.id = id) with
  | some row => rfl
  | none =>
    rw [List.find?_eq_none] at hfind
    refine congrArg some (List.filter_eq_self.mpr ?_).symm
    simpa using hfind

lemma pending_purge {rows : List PendingRow} (hrows : db.pending = some rows) (nowMs : UInt64) :
    (db.purgeExpiredSelfDestructing nowMs).2.pending =
      some (rows.filter fun row => !row.expiredBy nowMs) := by
  unfold purgeExpiredSelfDestructing
  rw [hrows]

lemma storeMessage_pending (id peerAddress : String) (direction : MessageDirection)
    (envelope : MessageEnvelope) :
    (db.storeMessage c id peerAddress direction envelope).2.pending = db.pending := by
  unfold storeMessage
  split
  · rfl
  · split
    · rfl
    · split <;> rfl

lemma deleteHistoryFor_pending (peerAddress : String) :
    (db.deleteHistoryFor peerAddress).2.pending = db.pending := by
  unfold deleteHistoryFor
  split <;> rfl

lemma runMigrations_pending : db.runMigrations.pending.getD [] = db.pending.getD [] := by
  unfold runMigrations
  dsimp only
  split <;> rfl

lemma Keyed.step (h : db.Keyed) (call : StoreCall) : (db.step c call).Keyed := by
  refine ⟨h.opened.step call, ?_⟩
  obtain ⟨rows, hrows, hdistinct⟩ := h.exists_rows
  cases call with
  | storeMessage id peerAddress direction envelope =>
    change Table.KeysDistinct PendingRow.id
      ((db.storeMessage c id peerAddress direction envelope).2.pending.getD [])
    rw [storeMessage_pending]
    exact h.distinct
  | historyFor peerAddress order => exact h.distinct
  | deleteHistoryFor peerAddress =>
    change Table.KeysDistinct PendingRow.id ((db.deleteHistoryFor peerAddress).2.pending.getD [])
    rw [deleteHistoryFor_pending]
    exact h.distinct
  | stageSelfDestructing id peerAddress state stagedAtMs =>
    exact h.stageSelfDestructing id peerAddress state stagedAtMs
  | takeSelfDestructing id =>
    change Table.KeysDistinct PendingRow.id ((db.takeSelfDestructing id).2.pending.getD [])
    rw [pending_takeSelfDestructing hrows]
    exact hdistinct.filter _
  | purgeExpiredSelfDestructing nowMs =>
    change Table.KeysDistinct PendingRow.id
      ((db.purgeExpiredSelfDestructing nowMs).2.pending.getD [])
    rw [pending_purge hrows]
    exact hdistinct.filter _
  | pendingSelfDestructIds peerAddress order => exact h.distinct
  | reopen =>
    change Table.KeysDistinct PendingRow.id (db.runMigrations.pending.getD [])
    rw [runMigrations_pending]
    exact h.distinct

lemma row?_congr {db' : Database} (h : db'.pending.getD [] = db.pending.getD []) (id : String) :
    db'.row? id = db.row? id := by
  unfold row?
  rw [h]

/-- The row of an id goes its own way. -/
theorem Keyed.row?_step (h : db.Keyed) (call : StoreCall) (id : String) :
    (db.step c call).row? id = nextRow id (db.row? id) call := by
  obtain ⟨rows, hrows, hdistinct⟩ := h.exists_rows
  have hrow : db.row? id = rows.find? fun row => row.id = id := by
    unfold row?
    rw [hrows, Option.getD_some]
  cases call with
  | storeMessage id' peerAddress direction envelope =>
    exact row?_congr (congrArg (Option.getD · [])
      (storeMessage_pending (c := c) id' peerAddress direction envelope)) id
  | historyFor peerAddress order => rfl
  | deleteHistoryFor peerAddress =>
    exact row?_congr (congrArg (Option.getD · []) (deleteHistoryFor_pending peerAddress)) id
  | stageSelfDestructing id' peerAddress state stagedAtMs =>
    change (db.stageSelfDestructing id' peerAddress state stagedAtMs).2.row? id = _
    rw [stageSelfDestructing_eq hrows, nextRow]
    by_cases hid : id' = id
    · subst hid
      rw [if_pos rfl]
      cases hheld : db.row? id' with
      | some row => simpa using hheld
      | none =>
        rw [hrow] at hheld
        simp [row?, hheld, pendingRow]
    · rw [if_neg hid]
      split
      · rfl
      · rw [hrow]
        simp [row?, List.find?_append, pendingRow, hid]
  | takeSelfDestructing id' =>
    change (db.takeSelfDestructing id').2.row? id = _
    rw [nextRow]
    unfold row?
    rw [pending_takeSelfDestructing hrows, Option.getD_some, hrows, Option.getD_some]
    by_cases hid : id' = id
    · subst hid
      rw [if_pos rfl, List.find?_eq_none]
      intro row hmem
      simpa using (Table.mem_deleteKey.mp hmem).2
    · rw [if_neg hid, Table.find?_deleteKey_of_ne (fun heq => hid heq.symm)]
  | purgeExpiredSelfDestructing nowMs =>
    change (db.purgeExpiredSelfDestructing nowMs).2.row? id = _
    rw [nextRow]
    unfold row?
    rw [pending_purge hrows, Option.getD_some, hrows, Option.getD_some, hdistinct.find?_filter]
  | pendingSelfDestructIds peerAddress order => rfl
  | reopen => exact row?_congr runMigrations_pending id

/-- What a take returns is decided by the row. -/
lemma takeSelfDestructing_fst (db : Database) (id : String) :
    (db.takeSelfDestructing id).1 =
      match db.row? id with
      | none => .ok none
      | some row => row.state.map some := by
  unfold takeSelfDestructing row?
  cases db.pending with
  | none => rfl
  | some rows =>
    rw [Option.getD_some]
    unfold ClientStore.takeSelfDestructing
    dsimp only
    cases rows.find? (fun row => row.id = id) with
    | none => rfl
    | some row => rfl

/-- A listing shows the ids of the peer's rows. -/
lemma Keyed.pendingSelfDestructIds (h : db.Keyed) (order : Table.OrderBy PendingRow.stagedAtMs)
    (peerAddress : String) :
    ∃ ids, db.pendingSelfDestructIds order peerAddress = .ok ids ∧
      ∀ id, id ∈ ids ↔ ∃ row ∈ db.row? id, row.peerAddress = peerAddress := by
  obtain ⟨rows, hrows, hdistinct⟩ := h.exists_rows
  unfold Database.pendingSelfDestructIds row?
  rw [hrows, Option.getD_some]
  refine ⟨_, rfl, fun id => ?_⟩
  rw [((order.sort_perm _).map _).mem_iff, List.mem_map]
  constructor
  · rintro ⟨row, hrow, rfl⟩
    obtain ⟨hmem, hpeer⟩ := List.mem_filter.mp hrow
    exact ⟨row, hdistinct.find?_of_mem hmem, of_decide_eq_true hpeer⟩
  · rintro ⟨row, hrow, hpeer⟩
    refine ⟨row, List.mem_filter.mpr ⟨List.mem_of_find?_eq_some hrow, decide_eq_true hpeer⟩, ?_⟩
    simpa using List.find?_some hrow

lemma Keyed.run (h : db.Keyed) (calls : List StoreCall) :
    (Machine.run (Database.step c) db calls).Keyed := by
  have hstep : ∀ (db : Database) (call : StoreCall), db.Keyed → (db.step c call).Keyed :=
    fun _ call h => h.step call
  exact Machine.run_invariant hstep h calls

/-- The row of an id after a run. -/
theorem Keyed.row?_run (h : db.Keyed) (calls : List StoreCall) (id : String) :
    (Machine.run (Database.step c) db calls).row? id = calls.foldl (nextRow id) (db.row? id) := by
  induction calls generalizing db with
  | nil => rfl
  | cons call calls ih =>
    rw [Machine.run_cons, List.foldl_cons, ih (h.step call), h.row?_step call]

lemma keyed_opened (version : ℕ) : (schema version).runMigrations.Keyed := by
  refine ⟨(migrated_schema version).runMigrations, ?_⟩
  rw [runMigrations_pending]
  unfold schema
  dsimp only
  split <;> exact List.nodup_nil

lemma row?_opened (version : ℕ) (id : String) : (schema version).runMigrations.row? id = none := by
  unfold row?
  rw [runMigrations_pending]
  unfold schema
  dsimp only
  split <;> rfl

end Database

section Rows

variable {id : String} {calls : List StoreCall} {row : PendingRow}

lemma stagedIds_append (calls calls' : List StoreCall) :
    stagedIds (calls ++ calls') = stagedIds calls ++ stagedIds calls' :=
  List.filterMap_append

lemma mem_stagedIds {call : StoreCall} {peerAddress : String} {state : PersistedSelfDestructState}
    {stagedAtMs : UInt64} (h : call = .stageSelfDestructing id peerAddress state stagedAtMs)
    (hmem : call ∈ calls) : id ∈ stagedIds calls :=
  List.mem_filterMap.mpr ⟨call, hmem, by rw [h]⟩

/-- What was never staged is never there. -/
lemma foldl_nextRow_none (h : id ∉ stagedIds calls) : calls.foldl (nextRow id) none = none := by
  induction calls with
  | nil => rfl
  | cons call calls ih =>
    have htail : id ∉ stagedIds calls := by
      intro hmem
      apply h
      have hsplit := stagedIds_append [call] calls
      rw [List.singleton_append] at hsplit
      rw [hsplit]
      exact List.mem_append_right _ hmem
    have hnext : nextRow id none call = none := by
      cases call with
      | stageSelfDestructing id' peerAddress state stagedAtMs =>
        rw [nextRow, if_neg]
        intro heq
        exact h (mem_stagedIds (by rw [heq]) List.mem_cons_self)
      | takeSelfDestructing id' =>
        rw [nextRow]
        split <;> rfl
      | _ => rfl
    rw [List.foldl_cons, hnext, ih htail]

/-- What is there was staged. -/
lemma exists_staged (h : calls.foldl (nextRow id) none = some row) :
    ∃ peerAddress state stagedAtMs,
      .stageSelfDestructing id peerAddress state stagedAtMs ∈ calls ∧
        row = pendingRow id peerAddress state stagedAtMs := by
  induction calls using List.reverseRecOn generalizing row with
  | nil => cases h
  | append_singleton calls call ih =>
    rw [List.foldl_append, List.foldl_cons, List.foldl_nil] at h
    have hold : calls.foldl (nextRow id) none = some row →
        ∃ peerAddress state stagedAtMs,
          .stageSelfDestructing id peerAddress state stagedAtMs ∈ calls ++ [call] ∧
            row = pendingRow id peerAddress state stagedAtMs := by
      intro hrow
      obtain ⟨peerAddress, state, stagedAtMs, hmem, heq⟩ := ih hrow
      exact ⟨peerAddress, state, stagedAtMs, List.mem_append_left _ hmem, heq⟩
    cases call with
    | stageSelfDestructing id' peerAddress state stagedAtMs =>
      rw [nextRow] at h
      split at h
      · rename_i hid
        rcases Option.or_eq_some_iff.mp h with hrow | ⟨-, hnew⟩
        · exact hold hrow
        · rw [hid]
          exact ⟨peerAddress, state, stagedAtMs, by simp, (Option.some.inj hnew).symm⟩
      · exact hold h
    | takeSelfDestructing id' =>
      rw [nextRow] at h
      split at h
      · cases h
      · exact hold h
    | purgeExpiredSelfDestructing nowMs =>
      rw [nextRow] at h
      exact hold (Option.filter_eq_some_iff.mp h).1
    | storeMessage id' peerAddress direction envelope => exact hold h
    | historyFor peerAddress order => exact hold h
    | deleteHistoryFor peerAddress => exact hold h
    | pendingSelfDestructIds peerAddress order => exact hold h
    | reopen => exact hold h

lemma expiredBy_pendingRow {peerAddress : String} {state : PersistedSelfDestructState}
    {stagedAtMs nowMs : UInt64} :
    (pendingRow id peerAddress state stagedAtMs).expiredBy nowMs = true ↔
      (StoreCall.purgeExpiredSelfDestructing nowMs).Removes id state.expiresAtMs := by
  unfold PendingRow.expiredBy pendingRow StoreCall.Removes
  cases state.expiresAtMs with
  | none => simp
  | some ms => simp

/-- What is not removed stays. -/
lemma foldl_nextRow_some {peerAddress : String} {state : PersistedSelfDestructState}
    {stagedAtMs : UInt64} (h : ∀ call ∈ calls, ¬call.Removes id state.expiresAtMs) :
    calls.foldl (nextRow id) (some (pendingRow id peerAddress state stagedAtMs)) =
      some (pendingRow id peerAddress state stagedAtMs) := by
  induction calls with
  | nil => rfl
  | cons call calls ih =>
    rw [List.forall_mem_cons] at h
    have hnext : nextRow id (some (pendingRow id peerAddress state stagedAtMs)) call =
        some (pendingRow id peerAddress state stagedAtMs) := by
      cases call with
      | stageSelfDestructing id' peerAddress' state' stagedAtMs' =>
        rw [nextRow]
        split <;> rfl
      | takeSelfDestructing id' =>
        have hne : id' ≠ id := h.1
        rw [nextRow, if_neg hne]
      | purgeExpiredSelfDestructing nowMs =>
        have hkept : ¬(pendingRow id peerAddress state stagedAtMs).expiredBy nowMs = true :=
          fun hexpired => h.1 (expiredBy_pendingRow.mp hexpired)
        rw [nextRow, Option.filter_eq_some_iff]
        exact ⟨rfl, by simpa using hkept⟩
      | _ => rfl
    rw [List.foldl_cons, hnext, ih h.2]

lemma stagedIds_cons (call : StoreCall) (calls : List StoreCall) :
    stagedIds (call :: calls) = stagedIds [call] ++ stagedIds calls :=
  stagedIds_append [call] calls

lemma nextRow_none {call : StoreCall} (h : id ∉ stagedIds [call]) : nextRow id none call = none :=
  foldl_nextRow_none h

/-- An id gives its state to one take at most. -/
lemma takesOf_length {db : Database} (h : db.Keyed) (hnodup : (stagedIds calls).Nodup)
    (hheld : (db.row? id).isSome = true → id ∉ stagedIds calls) :
    (takesOf c id db calls).length ≤ 1 ∧
      (db.row? id = none → id ∉ stagedIds calls → takesOf c id db calls = []) := by
  induction calls generalizing db with
  | nil => exact ⟨Nat.zero_le _, fun _ _ => rfl⟩
  | cons call calls ih =>
    rw [stagedIds_cons] at hnodup hheld ⊢
    obtain ⟨-, htail, hdisjoint⟩ := List.nodup_append.mp hnodup
    have hrow : (db.step c call).row? id = nextRow id (db.row? id) call := h.row?_step call id
    have hheld' : ((db.step c call).row? id).isSome = true → id ∉ stagedIds calls := by
      intro hsome hmem
      rw [hrow] at hsome
      by_cases hstaged : id ∈ stagedIds [call]
      · exact hdisjoint id hstaged id hmem rfl
      · cases hdb : db.row? id with
        | none =>
          rw [hdb, nextRow_none hstaged] at hsome
          cases hsome
        | some row => exact hheld (by rw [hdb]; rfl) (List.mem_append_right _ hmem)
    obtain ⟨hone, hnone⟩ := ih (h.step call) htail hheld'
    have hcons : takesOf c id db (call :: calls) =
        (match call with
        | .takeSelfDestructing id' =>
          if id' = id then (db.takeSelfDestructing id').1.toOption.join else none
        | _ => none).toList ++ takesOf c id (db.step c call) calls := rfl
    by_cases hcall : call = .takeSelfDestructing id
    · subst hcall
      rw [nextRow, if_pos rfl] at hrow
      cases hdb : db.row? id with
      | none =>
        have hempty : takesOf c id db (.takeSelfDestructing id :: calls) =
            takesOf c id (db.step c (.takeSelfDestructing id)) calls := by
          rw [hcons]
          dsimp only
          rw [Database.takeSelfDestructing_fst, hdb, if_pos rfl]
          rfl
        rw [hempty]
        exact ⟨hone, fun _ hstaged => hnone hrow fun hmem =>
          hstaged (List.mem_append_right _ hmem)⟩
      | some row =>
        -- the row is gone, and no later call stages it again
        have hlater := hnone hrow fun hmem =>
          hheld (by rw [hdb]; rfl) (List.mem_append_right _ hmem)
        refine ⟨?_, nofun⟩
        rw [hcons, hlater, List.append_nil]
        dsimp only
        cases (if id = id then (db.takeSelfDestructing id).1.toOption.join else none) with
        | none => exact Nat.zero_le _
        | some state => exact le_rfl
    · have hempty : takesOf c id db (call :: calls) = takesOf c id (db.step c call) calls := by
        rw [hcons]
        cases call with
        | takeSelfDestructing id' =>
          have hne : id' ≠ id := fun heq => hcall (by rw [heq])
          dsimp only
          rw [if_neg hne]
          rfl
        | _ => rfl
      rw [hempty]
      refine ⟨hone, fun hdb hstaged => ?_⟩
      rw [List.mem_append, not_or] at hstaged
      exact hnone (by rw [hrow, hdb, nextRow_none hstaged.1]) hstaged.2

end Rows

section Runs

variable {db : Database} {id peerAddress : String} {state : PersistedSelfDestructState}
  {stagedAtMs : UInt64} {before after : List StoreCall}

/-- From an empty holding area a take returns what was staged. -/
lemma take_as_staged (h : db.Keyed) (hempty : db.row? id = none) (before : List StoreCall) :
    ∃ taken, ((Machine.run (Database.step c) db before).takeSelfDestructing id).1 = .ok taken ∧
      ∀ state ∈ taken, ∃ peerAddress stagedAtMs,
        .stageSelfDestructing id peerAddress state stagedAtMs ∈ before := by
  have hrow := h.row?_run (c := c) before id
  rw [hempty] at hrow
  rw [Database.takeSelfDestructing_fst, hrow]
  cases hfound : before.foldl (nextRow id) none with
  | none => exact ⟨none, rfl, by simp⟩
  | some row =>
    obtain ⟨peerAddress, state, stagedAtMs, hmem, rfl⟩ := exists_staged hfound
    refine ⟨some state, ?_, ?_⟩
    · dsimp only
      rw [pendingRow_state]
      rfl
    · intro state' hstate'
      obtain rfl : state = state' := Option.some.inj hstate'
      exact ⟨peerAddress, stagedAtMs, hmem⟩

/-- A state with no row of the id takes and lists nothing of it. -/
lemma Database.Keyed.absent (h : db.Keyed) (hrow : db.row? id = none) :
    (db.takeSelfDestructing id).1 = .ok none ∧
      ∀ order peerAddress, ∃ ids, db.pendingSelfDestructIds order peerAddress = .ok ids ∧
        id ∉ ids := by
  refine ⟨?_, fun order peerAddress => ?_⟩
  · rw [Database.takeSelfDestructing_fst, hrow]
  · obtain ⟨ids, hids, hmem⟩ := h.pendingSelfDestructIds order peerAddress
    refine ⟨ids, hids, fun hlisted => ?_⟩
    obtain ⟨row, hsome, -⟩ := (hmem id).mp hlisted
    rw [hrow] at hsome
    cases hsome

/-- A state with a staged row takes it as it was staged, and lists it for its peer. -/
lemma Database.Keyed.present (h : db.Keyed)
    (hrow : db.row? id = some (pendingRow id peerAddress state stagedAtMs)) :
    (db.takeSelfDestructing id).1 = .ok (some state) ∧
      ∀ order peerAddress', ∃ ids, db.pendingSelfDestructIds order peerAddress' = .ok ids ∧
        (id ∈ ids ↔ peerAddress' = peerAddress) := by
  refine ⟨?_, fun order peerAddress' => ?_⟩
  · rw [Database.takeSelfDestructing_fst, hrow]
    dsimp only
    rw [pendingRow_state]
    rfl
  · obtain ⟨ids, hids, hmem⟩ := h.pendingSelfDestructIds order peerAddress'
    refine ⟨ids, hids, ?_⟩
    rw [hmem id, hrow]
    constructor
    · rintro ⟨row, hsome, rfl⟩
      rw [← Option.some.inj hsome]
      rfl
    · rintro rfl
      exact ⟨_, rfl, rfl⟩

/-- Where no id is drawn twice, what is gone is not staged again. -/
lemma row?_of_gone (h : db.Keyed) (hempty : db.row? id = none) {call : StoreCall}
    (hunique : (stagedIds (before ++ call :: after)).Nodup)
    (hheld : (Machine.run (Database.step c) db before).Holds id)
    (hgone : ¬(Machine.run (Database.step c) db (before ++ [call])).Holds id) :
    (Machine.run (Database.step c) db (before ++ call :: after)).row? id = none := by
  obtain ⟨row, hrow⟩ := Option.isSome_iff_exists.mp hheld
  rw [h.row?_run, hempty] at hrow
  obtain ⟨peerAddress, state, stagedAtMs, hmem, -⟩ := exists_staged hrow
  have hlater : id ∉ stagedIds after := by
    rw [stagedIds_append, stagedIds_cons] at hunique
    intro hstaged
    exact (List.nodup_append.mp hunique).2.2 id (mem_stagedIds rfl hmem) id
      (List.mem_append_right _ hstaged) rfl
  have hafter : (Machine.run (Database.step c) db (before ++ [call])).row? id = none := by
    simpa [Database.Holds] using hgone
  have hsplit : before ++ call :: after = (before ++ [call]) ++ after := by simp
  rw [hsplit, Machine.run_append, (h.run _).row?_run, hafter, foldl_nextRow_none hlater]

/-- Where no id is drawn twice, what is staged stays until it is removed. -/
lemma row?_of_kept (h : db.Keyed) (hempty : db.row? id = none)
    (hunique : (stagedIds (before ++ .stageSelfDestructing id peerAddress state stagedAtMs ::
      after)).Nodup) (hkept : ∀ call ∈ after, ¬call.Removes id state.expiresAtMs) :
    (Machine.run (Database.step c) db
      (before ++ .stageSelfDestructing id peerAddress state stagedAtMs :: after)).row? id =
        some (pendingRow id peerAddress state stagedAtMs) := by
  have hbefore : id ∉ stagedIds before := by
    rw [stagedIds_append, stagedIds_cons] at hunique
    intro hstaged
    exact (List.nodup_append.mp hunique).2.2 id hstaged id
      (List.mem_append_left _ (mem_stagedIds rfl List.mem_cons_self)) rfl
  rw [h.row?_run, hempty, List.foldl_append, List.foldl_cons, foldl_nextRow_none hbefore, nextRow,
    if_pos rfl, Option.none_or, foldl_nextRow_some hkept]

/-- A call about one id leaves the rows of the others. -/
lemma nextRow_of_about {call : StoreCall} {id' : String} (habout : call.about = some id')
    (hne : id' ≠ id) (row : Option PendingRow) : nextRow id row call = row := by
  cases call with
  | stageSelfDestructing id'' peerAddress state stagedAtMs =>
    rw [nextRow, if_neg]
    rintro rfl
    exact hne (Option.some.inj habout).symm
  | takeSelfDestructing id'' =>
    rw [nextRow, if_neg]
    rintro rfl
    exact hne (Option.some.inj habout).symm
  | _ => cases habout

end Runs

/-- The holding area is exactly-once: under any calls of the store, when no id is drawn twice. -/
theorem exactly_once (c : EnvelopeText) (version : ℕ) (calls : List StoreCall)
    (hunique : (stagedIds calls).Nodup) :
    ExactlyOnce c (Database.schema version).runMigrations calls := by
  have hstart := Database.keyed_opened version
  have hempty := Database.row?_opened version
  refine ⟨?_, ?_, ?_, ?_, ?_⟩
  · intro id
    exact (takesOf_length hstart hunique (by rw [hempty]; nofun)).1
  · intro before id after hcalls
    exact take_as_staged hstart (hempty id) before
  · intro before call after id hcalls hheld hgone
    subst hcalls
    exact (hstart.run _).absent (row?_of_gone hstart (hempty id) hunique hheld hgone)
  · intro before id peerAddress state stagedAtMs after hcalls hkept
    subst hcalls
    exact (hstart.run _).present (row?_of_kept hstart (hempty id) hunique hkept)
  · intro before call after id id' hcalls habout hne
    rw [Machine.run_append, Machine.run_cons, Machine.run_nil, (hstart.run before).row?_step call id,
      nextRow_of_about habout hne]

section Staged

def stagedState : PersistedSelfDestructState where
  ciphertext := [1, 2, 3]
  keyBytes := List.Vector.replicate 32 7
  mode := .combined
  expiresAtMs := some 18446744073709551615

/-- Two messages staged, one of them taken, twice, and a purge. -/
def stagedCalls : List StoreCall :=
  [.stageSelfDestructing "a" "bob" stagedState 1000, .stageSelfDestructing "b" "eve" stagedState 1001,
    .takeSelfDestructing "a", .takeSelfDestructing "a", .purgeExpiredSelfDestructing 2000]

theorem exactly_once_staged :
    ExactlyOnce .compact (Database.schema 1).runMigrations stagedCalls :=
  exactly_once .compact 1 stagedCalls (by decide)

end Staged

end Parda.ClientStore
