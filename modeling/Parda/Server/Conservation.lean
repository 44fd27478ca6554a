import Parda.Lib.Machine
import Parda.Server.Store

/-!
# Conservation of the relay's mail

The store under every interleaving of its locked sections. Both sections of a
`stage_pull` are steps of their own, and what it holds between them is part of the
state. Where an envelope went is recorded beside the store.
-/

namespace Parda.Server

open Machine

/-- A `stage_pull` between its two locked sections. -/
structure Staging where
  rendezvousToken : String
  messages : List StoredEnvelope
deriving DecidableEq

structure StoreRun where
  store : RelayStore := {}
  staging : List Staging := []
  enqueued : Multiset StoredEnvelope := 0
  returned : Multiset StoredEnvelope := 0
  deleted : Multiset StoredEnvelope := 0
  /-- Envelopes of rows that an upsert overwrote. -/
  replaced : Multiset StoredEnvelope := 0
  /-- Envelopes of rows that a sweep dropped. -/
  swept : Multiset StoredEnvelope := 0

/-- A locked section of one of the five operations. -/
inductive StoreOp where
  | enqueue (recipientId : String) (envelope : StoredEnvelope)
  | drain (userId : String)
  | stageDrain (recipientId rendezvousToken : String)
  | stageInsert (k : ℕ) (nowMs : UInt64)
  | fetchPull (rendezvousToken : String)
  | deleteMessage (userId messageId : String)
deriving DecidableEq

namespace RelayStore

/-- The envelopes in the rows that `delete_message` affects. -/
def deletedBy (s : RelayStore) (userId messageId : String) : List StoredEnvelope :=
  (s.messages.filter (deletes userId messageId)).map MessageRow.envelope

/-- The envelopes in the rows that the sweep at `nowMs` drops. -/
def sweptBy (s : RelayStore) (nowMs : UInt64) : Multiset StoredEnvelope :=
  Table.items PullStage.messages (s.pullStages.filter (expired nowMs))

/-- The envelopes in the row that the upsert at `nowMs` overwrites. -/
def replacedBy (s : RelayStore) (token : String) (nowMs : UInt64) : List StoredEnvelope :=
  Table.contentAt PullStage.rendezvousToken PullStage.messages (s.sweepStages nowMs).pullStages token

variable {s : RelayStore}

lemma queued_deleteMessage (s : RelayStore) (userId messageId : String) :
    s.queued = (s.deletedBy userId messageId : Multiset StoredEnvelope) +
      (s.deleteMessage userId messageId).1.queued := by
  have hitems : (s.deletedBy userId messageId : Multiset StoredEnvelope) =
      Table.items (fun row : MessageRow => [row.envelope])
        (s.messages.filter (deletes userId messageId)) := by
    unfold deletedBy Table.items
    rw [← List.map_eq_flatMap]
  rw [hitems]
  exact (Table.items_filter_add (deletes userId messageId) s.messages).symm

lemma staged_insertStage (h : s.TokensDistinct) (token : String) (envelopes : List StoredEnvelope)
    (nowMs : UInt64) :
    (s.insertStage token envelopes nowMs).staged +
        (s.replacedBy token nowMs : Multiset StoredEnvelope) + s.sweptBy nowMs =
      s.staged + (envelopes : Multiset StoredEnvelope) := by
  have hsweep : s.sweptBy nowMs + (s.sweepStages nowMs).staged = s.staged :=
    Table.items_filter_add (expired nowMs) s.pullStages
  have hswept : (s.sweepStages nowMs).TokensDistinct := h.filter _
  have hupsert : (s.insertStage token envelopes nowMs).staged +
      (s.replacedBy token nowMs : Multiset StoredEnvelope) =
      (s.sweepStages nowMs).staged + (envelopes : Multiset StoredEnvelope) :=
    Table.items_upsert hswept ⟨token, envelopes, nowMs.toInt64⟩
  rw [hupsert, ← hsweep]
  abel

end RelayStore

namespace StoreRun

/-- One locked section. An insert names the `stage_pull` it finishes by its place among
those that have drained. -/
def step (s : StoreRun) : StoreOp → StoreRun
  | .enqueue recipientId envelope =>
    match s.store.enqueue recipientId envelope with
    | none => s
    | some store => { s with store, enqueued := envelope ::ₘ s.enqueued }
  | .drain userId =>
    let (store, envelopes) := s.store.drain userId
    { s with store, returned := s.returned + envelopes }
  | .stageDrain recipientId rendezvousToken =>
    let (store, envelopes) := s.store.drain recipientId
    { s with store, staging := ⟨rendezvousToken, envelopes⟩ :: s.staging }
  | .stageInsert k nowMs =>
    match s.staging[k]? with
    | none => s
    | some p => { s with
        store := s.store.insertStage p.rendezvousToken p.messages nowMs
        staging := s.staging.eraseIdx k
        replaced := s.replaced + s.store.replacedBy p.rendezvousToken nowMs
        swept := s.swept + s.store.sweptBy nowMs }
  | .fetchPull rendezvousToken =>
    let (store, envelopes) := s.store.fetchPull rendezvousToken
    { s with store, returned := s.returned + (envelopes.getD [] : List StoredEnvelope) }
  | .deleteMessage userId messageId =>
    { s with
      store := (s.store.deleteMessage userId messageId).1
      deleted := s.deleted + s.store.deletedBy userId messageId }

/-- The envelopes that a `stage_pull` holds between its two sections. -/
def beingStaged (s : StoreRun) : Multiset StoredEnvelope :=
  Table.items Staging.messages s.staging

/-- Every place an envelope can be in: a row of `messages`, a row of `pull_stages`,
with a client, deleted. -/
def places (s : StoreRun) : Multiset StoredEnvelope :=
  s.store.queued + s.store.staged + s.returned + s.deleted

/-- Every enqueued envelope is in the places or under way exactly once, and nothing else is. -/
def ConservedWith (underWay : StoreRun → Multiset StoredEnvelope) (s : StoreRun) : Prop :=
  ∀ e, (s.places + underWay s).count e = if e ∈ s.enqueued then 1 else 0

/-- The relay assigns an id it never assigned before. -/
def FreshId (s : StoreRun) : StoreOp → Prop
  | .enqueue _ envelope => ∀ e ∈ s.enqueued, e.id ≠ envelope.id
  | _ => True

/-- No stage is older than the TTL when a sweep runs. -/
def NoneExpired (s : StoreRun) : StoreOp → Prop
  | .stageInsert _ nowMs => ∀ stage ∈ s.store.pullStages, ¬RelayStore.expired nowMs stage
  | _ => True

def Orderly (s : StoreRun) (op : StoreOp) : Prop := s.FreshId op ∧ s.NoneExpired op

/-- The upsert does not meet its own token with mail under it. -/
def TokenFree (s : StoreRun) : StoreOp → Prop
  | .stageInsert k nowMs =>
    ∀ p ∈ s.staging[k]?, s.store.replacedBy p.rendezvousToken nowMs = []
  | _ => True

instance decidableFreshId (s : StoreRun) : ∀ op, Decidable (s.FreshId op)
  | .enqueue _ envelope => inferInstanceAs (Decidable (∀ e ∈ s.enqueued, e.id ≠ envelope.id))
  | .drain _ | .stageDrain _ _ | .stageInsert _ _ | .fetchPull _ | .deleteMessage _ _ =>
    inferInstanceAs (Decidable True)

instance decidableNoneExpired (s : StoreRun) : ∀ op, Decidable (s.NoneExpired op)
  | .stageInsert _ nowMs =>
    inferInstanceAs (Decidable (∀ stage ∈ s.store.pullStages, ¬RelayStore.expired nowMs stage))
  | .drain _ | .stageDrain _ _ | .enqueue _ _ | .fetchPull _ | .deleteMessage _ _ =>
    inferInstanceAs (Decidable True)

instance (s : StoreRun) (op : StoreOp) : Decidable (s.Orderly op) :=
  inferInstanceAs (Decidable (_ ∧ _))

/-- Where everything went, the losses included. -/
def Accounted (s : StoreRun) : Prop :=
  s.enqueued = s.places + s.beingStaged + s.replaced + s.swept

variable {s : StoreRun}

lemma step_enqueue_none {recipientId : String} {envelope : StoredEnvelope}
    (h : s.store.enqueue recipientId envelope = none) :
    s.step (.enqueue recipientId envelope) = s := by
  simp only [step, h]

lemma step_enqueue_some {recipientId : String} {envelope : StoredEnvelope} {store : RelayStore}
    (h : s.store.enqueue recipientId envelope = some store) :
    s.step (.enqueue recipientId envelope) =
      { s with store, enqueued := envelope ::ₘ s.enqueued } := by
  simp only [step, h]

lemma step_stageInsert_none {k : ℕ} (h : s.staging[k]? = none) (nowMs : UInt64) :
    s.step (.stageInsert k nowMs) = s := by
  simp only [step, h]

lemma step_stageInsert_some {k : ℕ} {p : Staging} (h : s.staging[k]? = some p) (nowMs : UInt64) :
    s.step (.stageInsert k nowMs) = { s with
      store := s.store.insertStage p.rendezvousToken p.messages nowMs
      staging := s.staging.eraseIdx k
      replaced := s.replaced + s.store.replacedBy p.rendezvousToken nowMs
      swept := s.swept + s.store.sweptBy nowMs } := by
  simp only [step, h]

lemma tokensDistinct_step (h : s.store.TokensDistinct) (op : StoreOp) :
    (s.step op).store.TokensDistinct := by
  cases op with
  | enqueue recipientId envelope =>
    cases henq : s.store.enqueue recipientId envelope with
    | none => rwa [step_enqueue_none henq]
    | some store =>
      rw [step_enqueue_some henq]
      obtain ⟨-, rfl⟩ := RelayStore.enqueue_cases henq
      exact h
  | drain userId => exact h
  | stageDrain recipientId token => exact h
  | stageInsert k nowMs =>
    cases hp : s.staging[k]? with
    | none => rwa [step_stageInsert_none hp]
    | some p =>
      rw [step_stageInsert_some hp]
      have hswept : (s.store.sweepStages nowMs).TokensDistinct := h.filter _
      exact hswept.upsert ⟨p.rendezvousToken, p.messages, nowMs.toInt64⟩
  | fetchPull token => exact h.filter _
  | deleteMessage userId messageId => exact h

lemma beingStaged_eraseIdx {k : ℕ} {p : Staging} (hp : s.staging[k]? = some p) :
    s.beingStaged = p.messages + Table.items Staging.messages (s.staging.eraseIdx k) := by
  obtain ⟨hk, rfl⟩ := List.getElem?_eq_some_iff.mp hp
  have hperm : Table.items Staging.messages (s.staging[k] :: s.staging.eraseIdx k) =
      s.beingStaged := Table.items_perm (List.getElem_cons_eraseIdx_perm hk)
  rw [← hperm, Table.items_cons]

/-- Each section moves envelopes between the places and drops none. -/
lemma accounted_step (htokens : s.store.TokensDistinct) (h : s.Accounted) (op : StoreOp) :
    (s.step op).Accounted := by
  unfold Accounted places at h ⊢
  cases op with
  | enqueue recipientId envelope =>
    cases henq : s.store.enqueue recipientId envelope with
    | none => rwa [step_enqueue_none henq]
    | some store =>
      rw [step_enqueue_some henq]
      obtain ⟨-, rfl⟩ := RelayStore.enqueue_cases henq
      have hqueued : RelayStore.queued { s.store with messages := s.store.messages ++
          [⟨recipientId, envelope, envelope.envelope.timestampMs.toInt64⟩] } =
          s.store.queued + {envelope} := by
        unfold RelayStore.queued
        rw [Table.items_append, Table.items_cons, Table.items_nil, add_zero]
        rfl
      change envelope ::ₘ s.enqueued = _
      rw [← Multiset.singleton_add, h]
      change _ = RelayStore.queued _ + s.store.staged + s.returned + s.deleted + s.beingStaged +
        s.replaced + s.swept
      rw [hqueued]
      abel
  | drain userId =>
    rw [RelayStore.queued_drain s.store userId] at h
    change s.enqueued = (s.store.clearPending userId).queued + s.store.staged +
      (s.returned + s.store.selectPending userId) + s.deleted + s.beingStaged + s.replaced + s.swept
    rw [h]
    abel
  | stageDrain recipientId token =>
    rw [RelayStore.queued_drain s.store recipientId] at h
    change s.enqueued = (s.store.clearPending recipientId).queued + s.store.staged + s.returned +
      s.deleted + Table.items Staging.messages (⟨token, s.store.selectPending recipientId⟩ :: s.staging) +
      s.replaced + s.swept
    rw [h, Table.items_cons]
    unfold beingStaged
    abel
  | stageInsert k nowMs =>
    cases hp : s.staging[k]? with
    | none => rwa [step_stageInsert_none hp]
    | some p =>
      rw [step_stageInsert_some hp]
      have hstaged := RelayStore.staged_insertStage htokens p.rendezvousToken p.messages nowMs
      rw [beingStaged_eraseIdx hp] at h
      change s.enqueued = s.store.queued +
        (s.store.insertStage p.rendezvousToken p.messages nowMs).staged + s.returned + s.deleted +
        Table.items Staging.messages (s.staging.eraseIdx k) +
        (s.replaced + s.store.replacedBy p.rendezvousToken nowMs) +
        (s.swept + s.store.sweptBy nowMs)
      calc s.enqueued
        _ = s.store.queued + (s.store.staged + p.messages) + s.returned + s.deleted +
            Table.items Staging.messages (s.staging.eraseIdx k) + s.replaced + s.swept := by
          rw [h]
          abel
        _ = _ := by
          rw [← hstaged]
          abel
  | fetchPull token =>
    rw [RelayStore.staged_fetchPull htokens token] at h
    change s.enqueued = s.store.queued + (s.store.fetchPull token).1.staged +
      (s.returned + ((s.store.fetchPull token).2.getD [] : List StoredEnvelope)) + s.deleted +
      s.beingStaged + s.replaced + s.swept
    rw [h]
    abel
  | deleteMessage userId messageId =>
    rw [RelayStore.queued_deleteMessage s.store userId messageId] at h
    change s.enqueued = (s.store.deleteMessage userId messageId).1.queued + s.store.staged +
      s.returned + (s.deleted + s.store.deletedBy userId messageId) + s.beingStaged + s.replaced +
      s.swept
    rw [h]
    abel

lemma enqueued_step (s : StoreRun) (op : StoreOp) :
    (s.step op).enqueued = s.enqueued ∨
      ∃ recipientId envelope, op = .enqueue recipientId envelope ∧
        (s.step op).enqueued = envelope ::ₘ s.enqueued := by
  cases op with
  | enqueue recipientId envelope =>
    cases henq : s.store.enqueue recipientId envelope with
    | none =>
      rw [step_enqueue_none henq]
      exact Or.inl rfl
    | some store =>
      rw [step_enqueue_some henq]
      exact Or.inr ⟨recipientId, envelope, rfl, rfl⟩
  | stageInsert k nowMs =>
    cases hp : s.staging[k]? with
    | none => rw [step_stageInsert_none hp]; exact Or.inl rfl
    | some p => rw [step_stageInsert_some hp]; exact Or.inl rfl
  | _ => exact Or.inl rfl

lemma ids_step (hids : (s.enqueued.map StoredEnvelope.id).Nodup) {op : StoreOp}
    (hop : s.FreshId op) : ((s.step op).enqueued.map StoredEnvelope.id).Nodup := by
  rcases enqueued_step s op with heq | ⟨recipientId, envelope, rfl, heq⟩
  · rwa [heq]
  · rw [heq, Multiset.map_cons, Multiset.nodup_cons]
    refine ⟨?_, hids⟩
    intro hmem
    obtain ⟨e, he, hid⟩ := Multiset.mem_map.mp hmem
    exact hop e he hid

lemma swept_step (h : s.swept = 0) {op : StoreOp} (hop : s.NoneExpired op) :
    (s.step op).swept = 0 := by
  cases op with
  | enqueue recipientId envelope =>
    cases henq : s.store.enqueue recipientId envelope with
    | none => rwa [step_enqueue_none henq]
    | some store => rw [step_enqueue_some henq]; exact h
  | stageInsert k nowMs =>
    cases hp : s.staging[k]? with
    | none => rwa [step_stageInsert_none hp]
    | some p =>
      rw [step_stageInsert_some hp]
      have hnone : s.store.pullStages.filter (RelayStore.expired nowMs) = [] := by
        rw [List.filter_eq_nil_iff]
        exact hop
      change s.swept + Table.items _ (s.store.pullStages.filter _) = 0
      rw [h, hnone, Table.items_nil, add_zero]
  | _ => exact h

lemma replaced_step (s : StoreRun) (op : StoreOp) :
    (s.step op).replaced = 0 ↔ s.replaced = 0 ∧ s.TokenFree op := by
  cases op with
  | enqueue recipientId envelope =>
    cases henq : s.store.enqueue recipientId envelope with
    | none => rw [step_enqueue_none henq]; simp [TokenFree]
    | some store => rw [step_enqueue_some henq]; simp [TokenFree]
  | stageInsert k nowMs =>
    cases hp : s.staging[k]? with
    | none => rw [step_stageInsert_none hp]; simp [TokenFree, hp]
    | some p =>
      rw [step_stageInsert_some hp]
      simp only [TokenFree, hp, Option.mem_some, forall_eq']
      rw [add_eq_zero_iff_of_nonneg (Multiset.zero_le _) (Multiset.zero_le _),
        Multiset.coe_eq_zero]
  | _ => simp [step, TokenFree]

/-- What holds in every state of a run with fresh ids. -/
structure Inv (s : StoreRun) : Prop where
  tokens : s.store.TokensDistinct
  accounted : s.Accounted
  ids : (s.enqueued.map StoredEnvelope.id).Nodup

lemma inv_init : Inv {} := ⟨List.nodup_nil, rfl, Multiset.nodup_zero⟩

lemma inv_step (s : StoreRun) (op : StoreOp) (h : s.Inv) (hop : s.FreshId op) : (s.step op).Inv :=
  ⟨tokensDistinct_step h.tokens op, accounted_step h.tokens h.accounted op, ids_step h.ids hop⟩

lemma Inv.enqueued_nodup (h : s.Inv) : s.enqueued.Nodup := Multiset.Nodup.of_map _ h.ids

lemma Inv.conserved (h : s.Inv) (hkept : s.swept = 0) :
    s.ConservedWith (fun t => t.beingStaged + t.replaced) := by
  intro e
  have hplaces : s.places + (s.beingStaged + s.replaced) = s.enqueued := by
    rw [h.accounted, hkept, add_zero, add_assoc]
  rw [hplaces]
  exact Multiset.count_eq_of_nodup h.enqueued_nodup

/-- Every enqueued envelope is in one place, in the hands of one running `stage_pull`, or
in a stage that an upsert under the same token replaced, and in all of these only once.
Nothing is replaced in exactly the runs that upsert no token with mail under it. -/
theorem everyState_conserved (ops : List StoreOp) (h : EveryStep step Orderly {} ops) :
    EveryState step (ConservedWith (fun t => t.beingStaged + t.replaced)) {} ops ∧
      ((run step {} ops).replaced = 0 ↔ EveryStep step TokenFree {} ops) := by
  constructor
  · have hstep : ∀ t op, t.Inv ∧ t.swept = 0 → t.Orderly op → (step t op).Inv ∧ (step t op).swept = 0 :=
      fun t op ht hop => ⟨inv_step t op ht.1 hop.1, swept_step ht.2 hop.2⟩
    have hinv : EveryState step (fun t => t.Inv ∧ t.swept = 0) {} ops :=
      everyState_of_everyStep hstep ⟨inv_init, rfl⟩ h
    exact hinv.mono (fun t ht => ht.1.conserved ht.2)
  · have hiff : (run step {} ops).replaced = 0 ↔
        StoreRun.replaced {} = 0 ∧ EveryStep step TokenFree {} ops :=
      @run_iff_everyStep _ _ step (fun _ => True) (fun _ _ _ => trivial) (fun t => t.replaced = 0)
        TokenFree (fun t op _ => replaced_step t op) {} trivial ops
    rw [hiff]
    exact and_iff_right rfl

end StoreRun

def sampleMail (id recipientId : String) : StoredEnvelope :=
  ⟨id, { senderId := "alice", recipientId, ciphertext := [1], envelopeType := .ratchet,
         timestampMs := 1000, sealedSender := false }⟩

/-- One pull under the token while the first answer waits there, then a second. -/
def restage : List StoreOp :=
  [.enqueue "bob" (sampleMail "m1" "bob"), .stageDrain "bob" "t", .stageInsert 0 2000,
    .enqueue "bob" (sampleMail "m2" "bob"), .stageDrain "bob" "t", .stageInsert 0 3000]

namespace StoreRun

theorem everyState_conserved_restage :
    EveryStep step Orderly {} restage ∧
      EveryState step (ConservedWith (fun t => t.beingStaged + t.replaced)) {} restage :=
  have h : EveryStep step Orderly {} restage := by decide +kernel
  ⟨h, (everyState_conserved restage h).1⟩

theorem not_conserved_restage :
    EveryStep step Orderly {} restage ∧ (run step {} restage).beingStaged = 0 ∧
      ¬EveryState step (ConservedWith (fun _ => 0)) {} restage := by
  refine ⟨by decide +kernel, by decide +kernel, ?_⟩
  intro h
  have hlost := h.last (sampleMail "m1" "bob")
  have hcount : ((run step {} restage).places + 0).count (sampleMail "m1" "bob") = 0 := by
    decide +kernel
  have hmem : sampleMail "m1" "bob" ∈ (run step {} restage).enqueued := by decide +kernel
  rw [hcount, if_pos hmem] at hlost
  exact absurd hlost (by decide)

end StoreRun

end Parda.Server
