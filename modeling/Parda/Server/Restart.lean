import Parda.Server.StagePull

/-!
# The relay across crashes and restarts

The process of the relay over its database file: `run_migrations` on every open, the locked
sections of the store while it is up, requests that are dropped, and a stop between any two
statements that commit. The file keeps what was committed; what a task holds between two sections,
and an answer that has not reached its client, go down with the process. No statement fails.
-/

namespace Parda.Server

open Machine

/-- The tables that a file has and the version it is marked with. -/
structure Schema where
  userVersion : ℤ := 0
  prekeyBundles : Bool := false
  messages : Bool := false
  pullStages : Bool := false
deriving DecidableEq

def currentSchemaVersion : ℤ := 2

/-- The statements of `run_migrations`. The index is no table. -/
inductive Migration where
  | createPrekeyBundles
  | createMessages
  | createMessagesIndex
  | createPullStages
  | setUserVersion (version : ℤ)
deriving DecidableEq

/-- What a statement commits. A table that is there already stays as it is. -/
def Migration.commit (schema : Schema) : Migration → Schema
  | .createPrekeyBundles => { schema with prekeyBundles := true }
  | .createMessages => { schema with messages := true }
  | .createMessagesIndex => schema
  | .createPullStages => { schema with pullStages := true }
  | .setUserVersion version => { schema with userVersion := version }

/-- `run_migrations` over a file whose version it has read. -/
def runMigrations (current : ℤ) : List Migration :=
  (if current < 1 then [.createPrekeyBundles, .createMessages, .createMessagesIndex] else []) ++
    (if current < 2 then [.createPullStages] else []) ++
    (if current < currentSchemaVersion then [.setUserVersion currentSchemaVersion] else [])

namespace Schema

def migrate (schema : Schema) (statements : List Migration) : Schema :=
  statements.foldl Migration.commit schema

/-- A file that this relay or an earlier one has left, wherever it stopped. -/
structure Consistent (schema : Schema) : Prop where
  version_one : 1 ≤ schema.userVersion → schema.prekeyBundles = true ∧ schema.messages = true
  version_two : 2 ≤ schema.userVersion → schema.pullStages = true

def Complete (schema : Schema) : Prop :=
  schema.prekeyBundles = true ∧ schema.messages = true ∧ schema.pullStages = true

instance (schema : Schema) : Decidable schema.Complete := inferInstanceAs (Decidable (_ ∧ _ ∧ _))

end Schema

/-- The envelopes that a section hands to a client. -/
def StoreRun.answer (s : StoreRun) : StoreOp → List StoredEnvelope
  | .drain userId => s.store.selectPending userId
  | .fetchPull rendezvousToken => (s.store.fetchPull rendezvousToken).2.getD []
  | _ => []

/-- How many statements of a section change the file. -/
def StoreOp.commits : StoreOp → ℕ
  | .stageInsert _ _ => 2
  | _ => 1

/-- A section that stops with only `n` of its statements committed. Of the two of a
`stage_pull` the first is the sweep. -/
def StoreRun.stopIn (s : StoreRun) (op : StoreOp) (n : ℕ) : StoreRun :=
  match op, n with
  | _, 0 => s
  | .stageInsert k nowMs, _ =>
    match s.staging[k]? with
    | none => s
    | some _ => { s with
        store := s.store.sweepStages nowMs
        swept := s.swept + s.store.sweptBy nowMs }
  | _, _ => s

/-- What the first `n` statements of a section throw away: mail that the sweep finds too old, and
mail under the token that the upsert overwrites. -/
def StoreRun.discards (s : StoreRun) (op : StoreOp) (n : ℕ) : Multiset StoredEnvelope :=
  match op with
  | .stageInsert k nowMs =>
    match s.staging[k]? with
    | none => 0
    | some p =>
      (if 1 ≤ n then s.store.sweptBy nowMs else 0) +
        (if 2 ≤ n then (s.store.replacedBy p.rendezvousToken nowMs : Multiset StoredEnvelope) else 0)
  | _ => 0

/-- The file and the process on it, with the answers on their way to a client, what the clients
have, and what went down with a process or a request. -/
structure RelayLife where
  schema : Schema := {}
  up : Bool := false
  run : StoreRun := {}
  unsent : List (List StoredEnvelope) := []
  delivered : Multiset StoredEnvelope := 0
  lost : Multiset StoredEnvelope := 0

/-- `start` opens the file and is stopped after some of the statements, if there are more. An
answer may not get to its client, and a `stage_pull` may be dropped between its two sections. -/
inductive LifeStep where
  | start (statements : ℕ)
  | handle (op : StoreOp)
  | respond (k : ℕ)
  | dropResponse (k : ℕ)
  | dropRequest (k : ℕ)
  | crash
  | crashIn (op : StoreOp) (statements : ℕ)
deriving DecidableEq

namespace RelayLife

/-- A process on a file that earlier ones have left. -/
def opened (schema : Schema) (store : RelayStore) : RelayLife :=
  { schema, run := { store, enqueued := store.queued + store.staged } }

def start (s : RelayLife) (statements : ℕ) : RelayLife :=
  if s.up then s
  else
    let migrations := runMigrations s.schema.userVersion
    { s with
      schema := s.schema.migrate (migrations.take statements)
      up := decide (migrations.length ≤ statements) }

/-- A locked section, when the process is up and its tables are there. -/
def handle (s : RelayLife) (op : StoreOp) : RelayLife :=
  if s.up ∧ s.schema.Complete then
    { s with run := s.run.step op, unsent := s.run.answer op :: s.unsent }
  else s

/-- The answer reaches its client. -/
def respond (s : RelayLife) (k : ℕ) : RelayLife :=
  match s.unsent[k]? with
  | none => s
  | some envelopes => { s with
      unsent := s.unsent.eraseIdx k
      delivered := s.delivered + envelopes }

def dropResponse (s : RelayLife) (k : ℕ) : RelayLife :=
  match s.unsent[k]? with
  | none => s
  | some envelopes => { s with
      unsent := s.unsent.eraseIdx k
      lost := s.lost + envelopes }

def dropRequest (s : RelayLife) (k : ℕ) : RelayLife :=
  match s.run.staging[k]? with
  | none => s
  | some p => { s with
      run := { s.run with staging := s.run.staging.eraseIdx k }
      lost := s.lost + p.messages }

/-- The envelopes on their way to a client. -/
def inFlight (s : RelayLife) : Multiset StoredEnvelope := Table.items id s.unsent

/-- The envelopes that only the process has. -/
def inHand (s : RelayLife) : Multiset StoredEnvelope := s.run.beingStaged + s.inFlight

def crash (s : RelayLife) : RelayLife :=
  { s with
    up := false
    run := { s.run with staging := [] }
    unsent := []
    lost := s.lost + s.inHand }

/-- The state in which a section stops. -/
def stopped (s : RelayLife) (op : StoreOp) (statements : ℕ) : RelayLife :=
  if s.up ∧ s.schema.Complete then
    if op.commits ≤ statements then s.handle op
    else { s with run := s.run.stopIn op statements }
  else s

def step (s : RelayLife) : LifeStep → RelayLife
  | .start statements => s.start statements
  | .handle op => s.handle op
  | .respond k => s.respond k
  | .dropResponse k => s.dropResponse k
  | .dropRequest k => s.dropRequest k
  | .crash => s.crash
  | .crashIn op statements => (s.stopped op statements).crash

/-- The relay draws an id it never drew before. -/
def FreshId (s : RelayLife) : LifeStep → Prop
  | .handle op | .crashIn op _ => s.run.FreshId op
  | _ => True

instance decidableFreshId (s : RelayLife) : ∀ a, Decidable (s.FreshId a)
  | .handle op | .crashIn op _ => inferInstanceAs (Decidable (s.run.FreshId op))
  | .start _ | .respond _ | .dropResponse _ | .dropRequest _ | .crash =>
    inferInstanceAs (Decidable True)

/-- What `n` statements of a section throw away, when the process is up. -/
def discards (s : RelayLife) (op : StoreOp) (n : ℕ) : Multiset StoredEnvelope :=
  if s.up ∧ s.schema.Complete then s.run.discards op n else 0

/-- The envelopes that a step loses. -/
def loses (s : RelayLife) : LifeStep → Multiset StoredEnvelope
  | .start _ | .respond _ => 0
  | .handle op => s.discards op op.commits
  | .dropResponse k => (s.unsent[k]?.getD [] : List StoredEnvelope)
  | .dropRequest k => ((s.run.staging[k]?.map Staging.messages).getD [] : List StoredEnvelope)
  | .crash => s.inHand
  | .crashIn op statements => s.discards op statements + (s.stopped op statements).inHand

def Harmless (s : RelayLife) (a : LifeStep) : Prop := s.loses a = 0

instance (s : RelayLife) (a : LifeStep) : Decidable (s.Harmless a) :=
  inferInstanceAs (Decidable (s.loses a = 0))

/-- The envelopes that nobody will get any more, and nobody deleted. -/
def gone (s : RelayLife) : Multiset StoredEnvelope := s.lost + (s.run.swept + s.run.replaced)

/-- Where everything that was ever enqueued is. -/
def Accounted (s : RelayLife) : Prop :=
  s.run.enqueued = s.run.store.queued + s.run.store.staged + s.inHand + s.delivered +
    s.run.deleted + s.run.replaced + s.run.swept + s.lost

/-- What holds of the relay at all times. -/
structure Safe (s : RelayLife) : Prop where
  accounted : s.Accounted
  enqueued_nodup : s.run.enqueued.Nodup
  delivered_nodup : s.delivered.Nodup
  delivered_gone : Disjoint s.delivered
    (s.run.store.queued + s.run.store.staged + s.inHand + s.lost)
  tables : s.up = true → s.schema.Complete
  restarts : ∀ statements, 5 ≤ statements → (s.start statements).up = true

end RelayLife

section Migrations

variable {schema : Schema}

/-- The statements for each version that a file may have. -/
lemma runMigrations_cases (current : ℤ) :
    (current < 1 ∧ runMigrations current = [.createPrekeyBundles, .createMessages,
      .createMessagesIndex, .createPullStages, .setUserVersion 2]) ∨
    (1 ≤ current ∧ current < 2 ∧
      runMigrations current = [.createPullStages, .setUserVersion 2]) ∨
    (2 ≤ current ∧ runMigrations current = []) := by
  unfold runMigrations currentSchemaVersion
  by_cases hone : current < 1
  · have htwo : current < 2 := by omega
    exact Or.inl ⟨hone, by simp [hone, htwo]⟩
  · by_cases htwo : current < 2
    · exact Or.inr (Or.inl ⟨not_lt.mp hone, htwo, by simp [hone, htwo]⟩)
    · exact Or.inr (Or.inr ⟨not_lt.mp htwo, by simp [hone, htwo]⟩)

lemma length_runMigrations_le (current : ℤ) : (runMigrations current).length ≤ 5 := by
  rcases runMigrations_cases current with ⟨-, hlist⟩ | ⟨-, -, hlist⟩ | ⟨-, hlist⟩
  · rw [hlist]
    decide
  · rw [hlist]
    decide
  · rw [hlist]
    decide

/-- A file that all migrations have run on has every table. -/
lemma Schema.Consistent.complete_migrate (h : schema.Consistent) :
    (schema.migrate (runMigrations schema.userVersion)).Complete := by
  rcases runMigrations_cases schema.userVersion with ⟨-, hlist⟩ | ⟨hone, -, hlist⟩ | ⟨htwo, hlist⟩
  · rw [hlist]
    exact ⟨rfl, rfl, rfl⟩
  · rw [hlist]
    exact ⟨(h.version_one hone).1, (h.version_one hone).2, rfl⟩
  · have hone := h.version_one (by omega)
    rw [hlist]
    exact ⟨hone.1, hone.2, h.version_two htwo⟩

/-- The version is the last thing that the migrations write. -/
lemma userVersion_migrate_take (schema : Schema) (statements : ℕ)
    (h : statements < (runMigrations schema.userVersion).length) :
    (schema.migrate ((runMigrations schema.userVersion).take statements)).userVersion =
      schema.userVersion := by
  rcases runMigrations_cases schema.userVersion with ⟨-, hlist⟩ | ⟨-, -, hlist⟩ | ⟨-, hlist⟩
  · rw [hlist] at h ⊢
    obtain rfl | rfl | rfl | rfl | rfl : statements = 0 ∨ statements = 1 ∨ statements = 2 ∨
        statements = 3 ∨ statements = 4 := by
      simp only [List.length_cons, List.length_nil] at h
      omega
    all_goals rfl
  · rw [hlist] at h ⊢
    obtain rfl | rfl : statements = 0 ∨ statements = 1 := by
      simp only [List.length_cons, List.length_nil] at h
      omega
    all_goals rfl
  · rw [hlist, List.take_nil]
    rfl

/-- No statement drops a table. -/
lemma tables_migrate (schema : Schema) (statements : List Migration) :
    (schema.prekeyBundles = true → (schema.migrate statements).prekeyBundles = true) ∧
      (schema.messages = true → (schema.migrate statements).messages = true) ∧
      (schema.pullStages = true → (schema.migrate statements).pullStages = true) := by
  unfold Schema.migrate
  induction statements generalizing schema with
  | nil => exact ⟨id, id, id⟩
  | cons statement statements ih =>
    obtain ⟨hprekeys, hmessages, hstages⟩ := ih (statement.commit schema)
    rw [List.foldl_cons]
    refine ⟨fun h => hprekeys ?_, fun h => hmessages ?_, fun h => hstages ?_⟩
    all_goals cases statement <;> first | exact h | rfl

/-- Wherever the migrations stop, the version still tells which tables there are. -/
lemma Schema.Consistent.migrate (h : schema.Consistent) (statements : ℕ) :
    (schema.migrate ((runMigrations schema.userVersion).take statements)).Consistent := by
  by_cases hall : (runMigrations schema.userVersion).length ≤ statements
  · rw [List.take_of_length_le hall]
    obtain ⟨hprekeys, hmessages, hstages⟩ := h.complete_migrate
    exact ⟨fun _ => ⟨hprekeys, hmessages⟩, fun _ => hstages⟩
  · have hversion := userVersion_migrate_take schema statements (not_le.mp hall)
    obtain ⟨hprekeys, hmessages, hstages⟩ :=
      tables_migrate schema ((runMigrations schema.userVersion).take statements)
    constructor
    · intro hone
      rw [hversion] at hone
      exact ⟨hprekeys (h.version_one hone).1, hmessages (h.version_one hone).2⟩
    · intro htwo
      rw [hversion] at htwo
      exact hstages (h.version_two htwo)

end Migrations

namespace StoreRun

variable {s : StoreRun}

/-- What a section hands out is added to what was returned, and decides nothing else. -/
lemma step_returned (s : StoreRun) (r : Multiset StoredEnvelope) (op : StoreOp) :
    step { s with returned := r } op = { s.step op with returned := r + s.answer op } := by
  cases op with
  | enqueue recipientId envelope =>
    cases henq : s.store.enqueue recipientId envelope with
    | none =>
      rw [step_enqueue_none henq, step_enqueue_none (s := { s with returned := r }) henq]
      simp [answer]
    | some store =>
      rw [step_enqueue_some henq, step_enqueue_some (s := { s with returned := r }) henq]
      simp [answer]
  | stageInsert k nowMs =>
    cases hp : s.staging[k]? with
    | none =>
      rw [step_stageInsert_none hp, step_stageInsert_none (s := { s with returned := r }) hp]
      simp [answer]
    | some p =>
      rw [step_stageInsert_some hp, step_stageInsert_some (s := { s with returned := r }) hp]
      simp [answer]
  | stageDrain recipientId rendezvousToken => simp [step, answer]
  | deleteMessage userId messageId => simp [step, answer]
  | _ => rfl

lemma stopIn_cases (s : StoreRun) (op : StoreOp) (n : ℕ) :
    s.stopIn op n = s ∨ ∃ nowMs, s.stopIn op n = { s with
      store := s.store.sweepStages nowMs
      swept := s.swept + s.store.sweptBy nowMs } := by
  cases n with
  | zero => exact Or.inl (by cases op <;> rfl)
  | succ n =>
    cases op with
    | stageInsert k nowMs =>
      cases hp : s.staging[k]? with
      | none => exact Or.inl (by simp only [stopIn, hp])
      | some p => exact Or.inr ⟨nowMs, by simp only [stopIn, hp]⟩
    | _ => exact Or.inl rfl

/-- A `stage_pull` that runs to its end may sweep and may overwrite. -/
lemma discards_stageInsert {s : StoreRun} {k : ℕ} {p : Staging} (hp : s.staging[k]? = some p)
    {nowMs : UInt64} {n : ℕ} (h : (StoreOp.stageInsert k nowMs).commits ≤ n) :
    s.discards (.stageInsert k nowMs) n =
      s.store.sweptBy nowMs + s.store.replacedBy p.rendezvousToken nowMs := by
  have htwo : 2 ≤ n := h
  have hone : 1 ≤ n := by omega
  simp only [discards, hp, hone, htwo, if_true]

lemma discarded_step (s : StoreRun) (op : StoreOp) :
    (s.step op).swept + (s.step op).replaced =
      s.swept + s.replaced + s.discards op op.commits := by
  cases op with
  | enqueue recipientId envelope =>
    cases henq : s.store.enqueue recipientId envelope with
    | none =>
      rw [step_enqueue_none henq]
      exact (add_zero _).symm
    | some store =>
      rw [step_enqueue_some henq]
      exact (add_zero _).symm
  | stageInsert k nowMs =>
    cases hp : s.staging[k]? with
    | none =>
      rw [step_stageInsert_none hp]
      simp only [discards, hp, add_zero]
    | some p =>
      rw [step_stageInsert_some hp, discards_stageInsert hp le_rfl]
      exact add_add_add_comm _ _ _ _
  | _ => exact (add_zero _).symm

lemma discarded_stopIn (s : StoreRun) {op : StoreOp} {n : ℕ} (h : n < op.commits) :
    (s.stopIn op n).swept + (s.stopIn op n).replaced = s.swept + s.replaced + s.discards op n := by
  cases op with
  | stageInsert k nowMs =>
    obtain rfl | rfl : n = 0 ∨ n = 1 := by
      simp only [StoreOp.commits] at h
      omega
    · cases hp : s.staging[k]? <;> simp [stopIn, discards, hp]
    · cases hp : s.staging[k]? with
      | none => simp only [stopIn, discards, hp, add_zero]
      | some p =>
        simp only [stopIn, discards, hp, le_refl, if_true, show ¬2 ≤ 1 by decide, if_false, add_zero]
        exact add_right_comm _ _ _
  | _ =>
    obtain rfl : n = 0 := by
      simp only [StoreOp.commits] at h
      omega
    exact (add_zero _).symm

end StoreRun

namespace RelayLife

variable {s : RelayLife}

lemma accounted_iff : s.Accounted ↔
    StoreRun.Accounted { s.run with returned := s.inFlight + s.delivered + s.lost } := by
  have hsame : s.run.store.queued + s.run.store.staged + s.inHand + s.delivered + s.run.deleted +
      s.run.replaced + s.run.swept + s.lost =
      s.run.store.queued + s.run.store.staged + (s.inFlight + s.delivered + s.lost) +
        s.run.deleted + s.run.beingStaged + s.run.replaced + s.run.swept := by
    unfold inHand
    abel
  unfold Accounted
  rw [hsame]
  rfl

/-- What holds of the file and of the process in every state. -/
structure Inv (s : RelayLife) : Prop where
  consistent : s.schema.Consistent
  complete : s.up = true → s.schema.Complete
  tokens : s.run.store.TokensDistinct
  accounted : s.Accounted
  ids : (s.run.enqueued.map StoredEnvelope.id).Nodup

lemma handle_cases (s : RelayLife) (op : StoreOp) :
    s.handle op = s ∨
      s.handle op = { s with run := s.run.step op, unsent := s.run.answer op :: s.unsent } := by
  unfold handle
  split
  · exact Or.inr rfl
  · exact Or.inl rfl

lemma Inv.handle (h : s.Inv) {op : StoreOp} (hop : s.run.FreshId op) : (s.handle op).Inv := by
  rcases handle_cases s op with heq | heq
  · rwa [heq]
  · rw [heq]
    refine ⟨h.consistent, h.complete, StoreRun.tokensDistinct_step h.tokens op, ?_,
      StoreRun.ids_step h.ids hop⟩
    have hbefore := accounted_iff.mp h.accounted
    have hafter := StoreRun.accounted_step (s := { s.run with
      returned := s.inFlight + s.delivered + s.lost }) h.tokens hbefore op
    rw [StoreRun.step_returned] at hafter
    have hflight : s.inFlight + s.delivered + s.lost + s.run.answer op =
        inFlight { s with run := s.run.step op, unsent := s.run.answer op :: s.unsent } +
          s.delivered + s.lost := by
      unfold inFlight
      rw [Table.items_cons, id]
      abel
    rw [hflight] at hafter
    exact accounted_iff.mpr hafter

lemma Inv.stopIn (h : s.Inv) (op : StoreOp) (n : ℕ) :
    Inv { s with run := s.run.stopIn op n } := by
  rcases StoreRun.stopIn_cases s.run op n with heq | ⟨nowMs, heq⟩
  · rw [heq]
    exact h
  · rw [heq]
    refine ⟨h.consistent, h.complete, h.tokens.filter _, ?_, h.ids⟩
    have hsweep : s.run.store.sweptBy nowMs + (s.run.store.sweepStages nowMs).staged =
        s.run.store.staged := Table.items_filter_add (RelayStore.expired nowMs) s.run.store.pullStages
    have hbefore := h.accounted
    unfold Accounted at hbefore ⊢
    rw [← hsweep] at hbefore
    change s.run.enqueued = s.run.store.queued + (s.run.store.sweepStages nowMs).staged + s.inHand +
      s.delivered + s.run.deleted + s.run.replaced + (s.run.swept + s.run.store.sweptBy nowMs) + s.lost
    rw [hbefore]
    abel

lemma Inv.stopped (h : s.Inv) {op : StoreOp} (hop : s.run.FreshId op) (n : ℕ) :
    (s.stopped op n).Inv := by
  unfold RelayLife.stopped
  split
  · split
    · exact h.handle hop
    · exact h.stopIn op n
  · exact h

lemma Inv.crash (h : s.Inv) : s.crash.Inv := by
  refine ⟨h.consistent, fun hup => ?_, h.tokens, ?_, h.ids⟩
  · cases hup
  · have hbefore := h.accounted
    unfold Accounted at hbefore ⊢
    change s.run.enqueued = s.run.store.queued + s.run.store.staged + (0 + 0) + s.delivered +
      s.run.deleted + s.run.replaced + s.run.swept + (s.lost + s.inHand)
    rw [hbefore]
    abel

/-- An answer that leaves the ones on their way. -/
lemma inFlight_eraseIdx {k : ℕ} {envelopes : List StoredEnvelope}
    (hk : s.unsent[k]? = some envelopes) :
    s.inFlight = envelopes + Table.items id (s.unsent.eraseIdx k) := by
  obtain ⟨hlt, rfl⟩ := List.getElem?_eq_some_iff.mp hk
  have hperm : Table.items id (s.unsent[k] :: s.unsent.eraseIdx k) = s.inFlight :=
    Table.items_perm (List.getElem_cons_eraseIdx_perm hlt)
  rw [← hperm, Table.items_cons, id]

lemma Inv.respond (h : s.Inv) (k : ℕ) : (s.respond k).Inv := by
  unfold RelayLife.respond
  split
  · exact h
  · rename_i envelopes hk
    refine ⟨h.consistent, h.complete, h.tokens, ?_, h.ids⟩
    have hbefore := h.accounted
    unfold Accounted inHand at hbefore ⊢
    rw [inFlight_eraseIdx hk] at hbefore
    change s.run.enqueued = s.run.store.queued + s.run.store.staged +
      (s.run.beingStaged + Table.items id (s.unsent.eraseIdx k)) + (s.delivered + envelopes) +
      s.run.deleted + s.run.replaced + s.run.swept + s.lost
    rw [hbefore]
    abel

lemma Inv.dropResponse (h : s.Inv) (k : ℕ) : (s.dropResponse k).Inv := by
  unfold RelayLife.dropResponse
  split
  · exact h
  · rename_i envelopes hk
    refine ⟨h.consistent, h.complete, h.tokens, ?_, h.ids⟩
    have hbefore := h.accounted
    unfold Accounted inHand at hbefore ⊢
    rw [inFlight_eraseIdx hk] at hbefore
    change s.run.enqueued = s.run.store.queued + s.run.store.staged +
      (s.run.beingStaged + Table.items id (s.unsent.eraseIdx k)) + s.delivered +
      s.run.deleted + s.run.replaced + s.run.swept + (s.lost + envelopes)
    rw [hbefore]
    abel

lemma Inv.dropRequest (h : s.Inv) (k : ℕ) : (s.dropRequest k).Inv := by
  unfold RelayLife.dropRequest
  split
  · exact h
  · rename_i p hp
    refine ⟨h.consistent, h.complete, h.tokens, ?_, h.ids⟩
    have hbefore := h.accounted
    unfold Accounted inHand at hbefore ⊢
    rw [StoreRun.beingStaged_eraseIdx hp] at hbefore
    change s.run.enqueued = s.run.store.queued + s.run.store.staged +
      (Table.items Staging.messages (s.run.staging.eraseIdx k) + s.inFlight) + s.delivered +
      s.run.deleted + s.run.replaced + s.run.swept + (s.lost + p.messages)
    rw [hbefore]
    abel

lemma Inv.start (h : s.Inv) (statements : ℕ) : (s.start statements).Inv := by
  unfold RelayLife.start
  split
  · exact h
  · refine ⟨h.consistent.migrate statements, ?_, h.tokens, h.accounted, h.ids⟩
    intro hup
    have hall : (runMigrations s.schema.userVersion).length ≤ statements := of_decide_eq_true hup
    change (s.schema.migrate ((runMigrations s.schema.userVersion).take statements)).Complete
    rw [List.take_of_length_le hall]
    exact h.consistent.complete_migrate

lemma inv_step (s : RelayLife) (a : LifeStep) (h : s.Inv) (ha : s.FreshId a) : (s.step a).Inv := by
  cases a with
  | start statements => exact h.start statements
  | handle op => exact h.handle ha
  | respond k => exact h.respond k
  | dropResponse k => exact h.dropResponse k
  | dropRequest k => exact h.dropRequest k
  | crash => exact h.crash
  | crashIn op statements => exact (h.stopped ha statements).crash

lemma inv_opened {schema : Schema} {store : RelayStore} (hschema : schema.Consistent)
    (htokens : store.TokensDistinct)
    (hids : ((store.queued + store.staged).map StoredEnvelope.id).Nodup) :
    (opened schema store).Inv := by
  refine ⟨hschema, fun hup => ?_, htokens, ?_, hids⟩
  · cases hup
  · change store.queued + store.staged = store.queued + store.staged + (0 + 0) + 0 + 0 + 0 + 0 + 0
    abel

lemma up_start (s : RelayLife) {statements : ℕ} (h : 5 ≤ statements) :
    (s.start statements).up = true := by
  unfold RelayLife.start
  split
  · assumption
  · exact decide_eq_true ((length_runMigrations_le _).trans h)

/-- Nothing is in two of the places. -/
lemma Inv.safe (h : s.Inv) : s.Safe := by
  have henqueued : s.run.enqueued.Nodup := Multiset.Nodup.of_map _ h.ids
  have hnodup := henqueued
  have hsplit : s.run.enqueued = s.delivered +
      (s.run.store.queued + s.run.store.staged + s.inHand + s.lost) +
      (s.run.deleted + s.run.replaced + s.run.swept) := by
    rw [h.accounted]
    abel
  rw [hsplit] at hnodup
  have hplaces := (Multiset.nodup_add.mp hnodup).1
  obtain ⟨hdelivered, -, hdisjoint⟩ := Multiset.nodup_add.mp hplaces
  exact ⟨h.accounted, henqueued, hdelivered, hdisjoint, h.complete, fun _ => s.up_start⟩

lemma gone_handle (s : RelayLife) (op : StoreOp) :
    (s.handle op).gone = s.gone + s.discards op op.commits := by
  unfold handle discards
  split
  · change s.lost + ((s.run.step op).swept + (s.run.step op).replaced) = _
    rw [StoreRun.discarded_step]
    exact (add_assoc _ _ _).symm
  · rw [add_zero]

lemma discards_of_commits_le {op : StoreOp} {n : ℕ} (h : op.commits ≤ n) :
    s.discards op n = s.discards op op.commits := by
  unfold discards
  cases op with
  | stageInsert k nowMs =>
    cases hp : s.run.staging[k]? with
    | none => simp only [StoreRun.discards, hp]
    | some p =>
      rw [StoreRun.discards_stageInsert hp h, StoreRun.discards_stageInsert hp le_rfl]
  | _ => rfl

lemma gone_stopped (s : RelayLife) (op : StoreOp) (n : ℕ) :
    (s.stopped op n).gone = s.gone + s.discards op n := by
  unfold stopped
  split
  · rename_i hup
    split
    · rename_i hall
      rw [gone_handle, discards_of_commits_le hall]
    · rename_i hfew
      unfold discards
      rw [if_pos hup]
      change s.lost + ((s.run.stopIn op n).swept + (s.run.stopIn op n).replaced) = _
      rw [StoreRun.discarded_stopIn s.run (not_le.mp hfew)]
      exact (add_assoc _ _ _).symm
  · rename_i hdown
    rw [discards, if_neg hdown, add_zero]

lemma gone_crash (s : RelayLife) : s.crash.gone = s.gone + s.inHand := by
  change s.lost + s.inHand + (s.run.swept + s.run.replaced) = _
  unfold gone
  abel

/-- Every step adds what it loses. -/
lemma gone_step (s : RelayLife) (a : LifeStep) : (s.step a).gone = s.gone + s.loses a := by
  cases a with
  | start statements =>
    change (s.start statements).gone = s.gone + 0
    unfold start
    split
    · exact (add_zero _).symm
    · exact (add_zero _).symm
  | handle op => exact gone_handle s op
  | respond k =>
    change (s.respond k).gone = s.gone + 0
    unfold respond
    split
    · exact (add_zero _).symm
    · exact (add_zero _).symm
  | dropResponse k =>
    simp only [step, dropResponse, loses]
    cases s.unsent[k]? with
    | none => exact (add_zero _).symm
    | some envelopes => exact add_right_comm _ _ _
  | dropRequest k =>
    simp only [step, dropRequest, loses]
    cases s.run.staging[k]? with
    | none => exact (add_zero _).symm
    | some p => exact add_right_comm _ _ _
  | crash => exact gone_crash s
  | crashIn op statements =>
    change (s.stopped op statements).crash.gone = s.gone + (s.discards op statements + _)
    rw [gone_crash, gone_stopped, add_assoc]

lemma gone_step_eq_zero (s : RelayLife) (a : LifeStep) :
    (s.step a).gone = 0 ↔ s.gone = 0 ∧ s.Harmless a := by
  rw [gone_step]
  exact add_eq_zero_iff_of_nonneg (Multiset.zero_le _) (Multiset.zero_le _)

/-- Whatever version of the relay left the file and wherever processes and requests stop on it, each
envelope is in one place, a client never gets one twice, and the next open brings the relay up with
all tables. Nothing is lost in exactly the runs of harmless steps. -/
theorem mail_survives_restarts {schema : Schema} (hschema : schema.Consistent) {store : RelayStore}
    (htokens : store.TokensDistinct)
    (hids : ((store.queued + store.staged).map StoredEnvelope.id).Nodup) (steps : List LifeStep)
    (hfresh : EveryStep step FreshId (opened schema store) steps) :
    EveryState step Safe (opened schema store) steps ∧
      ((Machine.run step (opened schema store) steps).gone = 0 ↔
        EveryStep step Harmless (opened schema store) steps) := by
  constructor
  · have hinv : EveryState step Inv (opened schema store) steps :=
      everyState_of_everyStep inv_step (inv_opened hschema htokens hids) hfresh
    exact hinv.mono fun t ht => ht.safe
  · have hiff : (Machine.run step (opened schema store) steps).gone = 0 ↔
        (opened schema store).gone = 0 ∧ EveryStep step Harmless (opened schema store) steps :=
      @run_iff_everyStep _ _ step (fun _ => True) (fun _ _ _ => trivial) (fun t => t.gone = 0)
        Harmless (fun t a _ => gone_step_eq_zero t a) _ trivial steps
    exact hiff.trans (and_iff_right rfl)

/-- The file of a relay that knew no pull stages, opened by one that stops in its migrations. The
next one stops with the first answer on its way, and a third with nothing in hand. Of the mail
that comes later one message is dropped with its request, and one waits until it is swept. -/
def upgrade : List LifeStep :=
  [.start 1, .crash, .start 2, .handle (.drain "bob"), .crash, .start 0,
    .handle (.enqueue "bob" (sampleMail "m2" "bob")), .handle (.stageDrain "bob" "t"),
    .handle (.stageInsert 0 2000), .respond 0, .respond 0, .respond 0, .crash, .start 0,
    .handle (.fetchPull "t"), .respond 0, .handle (.enqueue "bob" (sampleMail "m3" "bob")),
    .handle (.stageDrain "bob" "u"), .dropRequest 0,
    .handle (.enqueue "bob" (sampleMail "m4" "bob")), .handle (.stageDrain "bob" "v"),
    .handle (.stageInsert 0 3000), .handle (.stageDrain "bob" "w"),
    .handle (.stageInsert 0 400000)]

theorem mail_survives_restarts_upgrade :
    let s := opened ⟨1, true, true, false⟩ RelayStore.oneQueued
    (EveryState step Safe s upgrade ∧
      ((Machine.run step s upgrade).gone = 0 ↔ EveryStep step Harmless s upgrade)) ∧
    (Machine.run step s upgrade).lost = {sampleMail "m1" "bob", sampleMail "m3" "bob"} ∧
    (Machine.run step s upgrade).run.swept = {sampleMail "m4" "bob"} ∧
    (Machine.run step s upgrade).delivered = {sampleMail "m2" "bob"} :=
  ⟨@mail_survives_restarts ⟨1, true, true, false⟩
    ⟨fun _ => ⟨rfl, rfl⟩, fun h => absurd h (by decide)⟩ RelayStore.oneQueued List.nodup_nil
    (show ((RelayStore.oneQueued.queued + RelayStore.oneQueued.staged).map StoredEnvelope.id).Nodup
      by decide +kernel) upgrade (by decide +kernel), by decide +kernel, by decide +kernel,
    by decide +kernel⟩

end RelayLife

end Parda.Server
