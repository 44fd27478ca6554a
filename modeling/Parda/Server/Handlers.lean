import Parda.Lib.Simulation
import Parda.Mixnode.Pull

/-!
# The relay's mail handlers

The message and pull handlers of `server/src/routes.rs` over the store, one step for each locked
section. A handler has its path and its body; whose request it is, it never learns.
-/

namespace Parda.Server

open Machine Protocol
open Mixnode (PullRequest)

inductive MailRequest where
  | submitMessage (recipientId : String) (envelope : MessageEnvelope)
  | fetchMessages (userId : String)
  | stagePull (request : PullRequest)
  | fetchPull (rendezvousToken : String)
  | deleteMessage (userId messageId : String)
deriving DecidableEq

inductive MailResponse where
  | badRequest (error : String)
  | created (messageId : String)
  | messages (messages : List StoredEnvelope)
  | accepted
  | ok
  | notFound (message : String)
deriving DecidableEq

/-- A `stage_pull` between its two locked sections. -/
structure RunningStage where
  request : PullRequest
  messages : List StoredEnvelope
deriving DecidableEq

/-- A panic under the lock poisons it, and every later section panics as it takes the lock. -/
structure Relay where
  store : RelayStore := {}
  running : List RunningStage := []
  poisoned : Bool := false
deriving DecidableEq

/-- The section of a handler, of `stage_pull` the first one, with the id that `submit_message`
draws; or the second section of a `stage_pull`. -/
inductive RelayStep where
  | handle (request : MailRequest) (messageId : String)
  | finishStagePull (k : ℕ) (nowMs : UInt64)
deriving DecidableEq

namespace Relay

/-- A section under the lock, or none where it panics. -/
def locked {α : Type} (s : Relay) (body : RelayStore → Option (RelayStore × α)) :
    Option α × Relay :=
  if s.poisoned then (none, s)
  else
    match body s.store with
    | none => (none, { s with poisoned := true })
    | some (store, a) => (some a, { s with store })

def submitMessage (s : Relay) (recipientId : String) (envelope : MessageEnvelope)
    (messageId : String) : Option MailResponse × Relay :=
  if envelope.recipientId ≠ recipientId then
    (some (.badRequest "recipient_id path param does not match envelope.recipient_id"), s)
  else
    s.locked fun store =>
      (store.enqueue recipientId ⟨messageId, envelope⟩).map fun store => (store, .created messageId)

def fetchMessages (s : Relay) (userId : String) : Option MailResponse × Relay :=
  s.locked fun store =>
    let (store, messages) := store.drain userId
    some (store, .messages messages)

/-- The drain of a `stage_pull`. -/
def stagePull (s : Relay) (request : PullRequest) : Relay :=
  match s.locked fun store => some (store.drain request.recipientId) with
  | (none, s) => s
  | (some messages, s) => { s with running := ⟨request, messages⟩ :: s.running }

/-- The sweep and the upsert of a `stage_pull`. -/
def finishStagePull (s : Relay) (k : ℕ) (nowMs : UInt64) : Option PullRequest × Relay :=
  match s.running[k]? with
  | none => (none, s)
  | some stage =>
    { s with running := s.running.eraseIdx k }.locked fun store =>
      some (store.insertStage stage.request.rendezvousToken stage.messages nowMs, stage.request)

def fetchPull (s : Relay) (rendezvousToken : String) : Option MailResponse × Relay :=
  s.locked fun store =>
    let (store, messages) := store.fetchPull rendezvousToken
    some (store, .messages (messages.getD []))

def deleteMessage (s : Relay) (userId messageId : String) : Option MailResponse × Relay :=
  s.locked fun store =>
    let (store, deleted) := store.deleteMessage userId messageId
    some (store, if deleted then .ok else .notFound "message not found")

/-- A request and the relay's response to it, when the section is the last of its handler and does
not panic. -/
def answer (s : Relay) : RelayStep → Option (MailRequest × MailResponse) × Relay
  | .handle (.submitMessage recipientId envelope) messageId =>
    let (response, s) := s.submitMessage recipientId envelope messageId
    (response.map (.submitMessage recipientId envelope, ·), s)
  | .handle (.fetchMessages userId) _ =>
    let (response, s) := s.fetchMessages userId
    (response.map (.fetchMessages userId, ·), s)
  | .handle (.stagePull request) _ => (none, s.stagePull request)
  | .handle (.fetchPull rendezvousToken) _ =>
    let (response, s) := s.fetchPull rendezvousToken
    (response.map (.fetchPull rendezvousToken, ·), s)
  | .handle (.deleteMessage userId messageId) _ =>
    let (response, s) := s.deleteMessage userId messageId
    (response.map (.deleteMessage userId messageId, ·), s)
  | .finishStagePull k nowMs =>
    let (request, s) := s.finishStagePull k nowMs
    (request.map (.stagePull ·, .accepted), s)

def step (s : Relay) (a : RelayStep) : Relay := (s.answer a).2

/-- The answers of a run. -/
def answers (s : Relay) (steps : List RelayStep) : List (MailRequest × MailResponse) :=
  outputs step (fun s a => (s.answer a).1) s steps

end Relay

/-- The section that a step runs on the store. -/
def RelayStep.op : RelayStep → Option StoreOp
  | .handle (.submitMessage recipientId envelope) messageId =>
    if envelope.recipientId ≠ recipientId then none
    else some (.enqueue recipientId ⟨messageId, envelope⟩)
  | .handle (.fetchMessages userId) _ => some (.drain userId)
  | .handle (.stagePull request) _ =>
    some (.stageDrain request.recipientId request.rendezvousToken)
  | .handle (.fetchPull rendezvousToken) _ => some (.fetchPull rendezvousToken)
  | .handle (.deleteMessage userId messageId) _ => some (.deleteMessage userId messageId)
  | .finishStagePull k nowMs => some (.stageInsert k nowMs)

/-- What a `stage_pull` holds between its sections, by the token alone. -/
def RunningStage.staging (stage : RunningStage) : Staging :=
  ⟨stage.request.rendezvousToken, stage.messages⟩

namespace Relay

section Locked

variable {s : Relay} {α : Type} {body : RelayStore → Option (RelayStore × α)}

/-- A section runs to its end or changes nothing that the handlers see. -/
lemma locked_cases (s : Relay) (body : RelayStore → Option (RelayStore × α)) :
    ((s.locked body).1 = none ∧ (s.locked body).2.store = s.store ∧
        (s.locked body).2.running = s.running) ∨
      ∃ store a, body s.store = some (store, a) ∧ s.locked body = (some a, { s with store }) := by
  unfold locked
  split
  · exact Or.inl ⟨rfl, rfl, rfl⟩
  · cases hbody : body s.store with
    | none => exact Or.inl ⟨rfl, rfl, rfl⟩
    | some result => exact Or.inr ⟨result.1, result.2, rfl, rfl⟩

lemma locked_fst {a : α} (h : (s.locked body).1 = some a) :
    ∃ store, body s.store = some (store, a) := by
  rcases locked_cases s body with ⟨hnone, -⟩ | ⟨store, a', hrun, hlocked⟩
  · rw [hnone] at h
    cases h
  · rw [hlocked] at h
    exact ⟨store, Option.some.inj h ▸ hrun⟩

lemma locked_gone {row : MessageRow} (hrow : row ∈ s.store.messages)
    (hgone : row ∉ (s.locked body).2.store.messages) :
    ∃ store a, body s.store = some (store, a) ∧ row ∉ store.messages := by
  rcases locked_cases s body with ⟨-, hstore, -⟩ | ⟨store, a, hrun, hlocked⟩
  · rw [hstore] at hgone
    exact absurd hrow hgone
  · rw [hlocked] at hgone
    exact ⟨store, a, hrun, hgone⟩

lemma locked_of_poisoned (h : s.poisoned = true)
    (body : RelayStore → Option (RelayStore × α)) : s.locked body = (none, s) := by
  unfold locked
  rw [if_pos h]

lemma locked_of_some (h : s.poisoned = false) {store : RelayStore} {a : α}
    (hrun : body s.store = some (store, a)) : s.locked body = (some a, { s with store }) := by
  unfold locked
  rw [h, hrun]
  rfl

end Locked

variable {s : Relay}

lemma stagePull_store (s : Relay) (request : PullRequest) :
    (s.stagePull request).store =
      (s.locked fun store => some (store.drain request.recipientId)).2.store := by
  unfold stagePull
  split <;> simp_all

/-- Which handler an answer is from. -/
lemma answer_cases {a : RelayStep} {request : MailRequest} {response : MailResponse}
    (h : (s.answer a).1 = some (request, response)) :
    match request with
    | .submitMessage recipientId envelope =>
      ∃ messageId, (s.submitMessage recipientId envelope messageId).1 = some response
    | .fetchMessages userId => (s.fetchMessages userId).1 = some response
    | .stagePull request =>
      response = .accepted ∧ ∃ k nowMs, (s.finishStagePull k nowMs).1 = some request
    | .fetchPull rendezvousToken => (s.fetchPull rendezvousToken).1 = some response
    | .deleteMessage userId messageId => (s.deleteMessage userId messageId).1 = some response := by
  cases a with
  | handle asked messageId =>
    cases asked with
    | submitMessage recipientId envelope =>
      change (s.submitMessage recipientId envelope messageId).1.map _ = _ at h
      obtain ⟨_, hresponse, hpair⟩ := Option.map_eq_some_iff.mp h
      obtain ⟨rfl, rfl⟩ := Prod.mk.inj hpair
      exact ⟨messageId, hresponse⟩
    | fetchMessages userId =>
      change (s.fetchMessages userId).1.map _ = _ at h
      obtain ⟨_, hresponse, hpair⟩ := Option.map_eq_some_iff.mp h
      obtain ⟨rfl, rfl⟩ := Prod.mk.inj hpair
      exact hresponse
    | stagePull request => cases h
    | fetchPull rendezvousToken =>
      change (s.fetchPull rendezvousToken).1.map _ = _ at h
      obtain ⟨_, hresponse, hpair⟩ := Option.map_eq_some_iff.mp h
      obtain ⟨rfl, rfl⟩ := Prod.mk.inj hpair
      exact hresponse
    | deleteMessage userId messageId' =>
      change (s.deleteMessage userId messageId').1.map _ = _ at h
      obtain ⟨_, hresponse, hpair⟩ := Option.map_eq_some_iff.mp h
      obtain ⟨rfl, rfl⟩ := Prod.mk.inj hpair
      exact hresponse
  | finishStagePull k nowMs =>
    change (s.finishStagePull k nowMs).1.map _ = _ at h
    obtain ⟨_, hrequest, hpair⟩ := Option.map_eq_some_iff.mp h
    obtain ⟨rfl, rfl⟩ := Prod.mk.inj hpair
    exact ⟨rfl, k, nowMs, hrequest⟩

section Refinement

/-- None once the lock is poisoned. -/
def event (s : Relay) (a : RelayStep) : Option StoreOp := if s.poisoned then none else a.op

/-- The store of a run of sections, with the same stages under way until the lock is poisoned. -/
structure Runs (s : Relay) (t : StoreRun) : Prop where
  store : t.store = s.store
  staging : s.poisoned = false → t.staging = s.running.map RunningStage.staging

lemma step_of_poisoned (h : s.poisoned = true) (a : RelayStep) :
    (s.step a).store = s.store ∧ (s.step a).poisoned = true := by
  cases a with
  | handle request messageId =>
    cases request with
    | submitMessage recipientId envelope =>
      change (s.submitMessage recipientId envelope messageId).2.store = _ ∧
        (s.submitMessage recipientId envelope messageId).2.poisoned = true
      unfold submitMessage
      split
      · exact ⟨rfl, h⟩
      · rw [locked_of_poisoned h]
        exact ⟨rfl, h⟩
    | fetchMessages userId =>
      change (s.fetchMessages userId).2.store = _ ∧ (s.fetchMessages userId).2.poisoned = true
      unfold fetchMessages
      rw [locked_of_poisoned h]
      exact ⟨rfl, h⟩
    | stagePull request =>
      change (s.stagePull request).store = _ ∧ (s.stagePull request).poisoned = true
      unfold stagePull
      rw [locked_of_poisoned h]
      exact ⟨rfl, h⟩
    | fetchPull rendezvousToken =>
      change (s.fetchPull rendezvousToken).2.store = _ ∧
        (s.fetchPull rendezvousToken).2.poisoned = true
      unfold fetchPull
      rw [locked_of_poisoned h]
      exact ⟨rfl, h⟩
    | deleteMessage userId messageId' =>
      change (s.deleteMessage userId messageId').2.store = _ ∧
        (s.deleteMessage userId messageId').2.poisoned = true
      unfold deleteMessage
      rw [locked_of_poisoned h]
      exact ⟨rfl, h⟩
  | finishStagePull k nowMs =>
    change (s.finishStagePull k nowMs).2.store = _ ∧
      (s.finishStagePull k nowMs).2.poisoned = true
    unfold finishStagePull
    split
    · exact ⟨rfl, h⟩
    · have hrest : Relay.poisoned { s with running := s.running.eraseIdx k } = true := h
      rw [locked_of_poisoned hrest]
      exact ⟨rfl, h⟩

variable {t : StoreRun}

lemma Runs.submitMessage (h : Runs s t) (hpoisoned : s.poisoned = false) (recipientId : String)
    (envelope : MessageEnvelope) (messageId : String) (hrecipient : envelope.recipientId = recipientId) :
    Runs (s.submitMessage recipientId envelope messageId).2
      (t.step (.enqueue recipientId ⟨messageId, envelope⟩)) := by
  unfold Relay.submitMessage
  rw [if_neg (not_not.mpr hrecipient)]
  cases henq : s.store.enqueue recipientId ⟨messageId, envelope⟩ with
  | none =>
    have hpanic : (s.locked fun store => (store.enqueue recipientId ⟨messageId, envelope⟩).map
        fun store => (store, MailResponse.created messageId)).2 = { s with poisoned := true } := by
      simp [locked, hpoisoned, henq]
    rw [hpanic, StoreRun.step_enqueue_none (h.store ▸ henq)]
    exact ⟨h.store, by simp⟩
  | some store =>
    rw [locked_of_some hpoisoned (by rw [henq]; rfl), StoreRun.step_enqueue_some (h.store ▸ henq)]
    exact ⟨rfl, h.staging⟩

lemma Runs.stagePull (h : Runs s t) (hpoisoned : s.poisoned = false) (request : PullRequest) :
    Runs (s.stagePull request)
      (t.step (.stageDrain request.recipientId request.rendezvousToken)) := by
  unfold Relay.stagePull
  rw [locked_of_some hpoisoned rfl]
  refine ⟨congrArg (fun store => (store.drain request.recipientId).1) h.store, ?_⟩
  intro _
  change _ :: t.staging = _ :: _
  rw [h.staging hpoisoned, h.store]
  rfl

lemma Runs.finishStagePull (h : Runs s t) (hpoisoned : s.poisoned = false) (k : ℕ)
    (nowMs : UInt64) : Runs (s.finishStagePull k nowMs).2 (t.step (.stageInsert k nowMs)) := by
  have hstaging : t.staging[k]? = s.running[k]?.map RunningStage.staging := by
    rw [h.staging hpoisoned, List.getElem?_map]
  unfold Relay.finishStagePull
  cases hk : s.running[k]? with
  | none =>
    rw [hk] at hstaging
    rw [StoreRun.step_stageInsert_none hstaging]
    exact h
  | some stage =>
    rw [hk] at hstaging
    have hrest : Relay.poisoned { s with running := s.running.eraseIdx k } = false := hpoisoned
    dsimp only
    rw [StoreRun.step_stageInsert_some hstaging, locked_of_some hrest rfl]
    refine ⟨congrArg (·.insertStage stage.request.rendezvousToken stage.messages nowMs) h.store, ?_⟩
    intro _
    change t.staging.eraseIdx k = (s.running.eraseIdx k).map RunningStage.staging
    rw [h.staging hpoisoned, List.eraseIdx_map]

lemma Runs.step {a : RelayStep} {op : StoreOp} (h : Runs s t) (hpoisoned : s.poisoned = false)
    (hop : a.op = some op) : Runs (s.step a) (t.step op) := by
  cases a with
  | handle request messageId =>
    cases request with
    | submitMessage recipientId envelope =>
      by_cases hrecipient : envelope.recipientId = recipientId
      · obtain rfl : StoreOp.enqueue recipientId ⟨messageId, envelope⟩ = op := by
          simpa [RelayStep.op, hrecipient] using hop
        exact h.submitMessage hpoisoned recipientId envelope messageId hrecipient
      · simp [RelayStep.op, hrecipient] at hop
    | fetchMessages userId =>
      cases hop
      change Runs (s.fetchMessages userId).2 _
      unfold Relay.fetchMessages
      rw [locked_of_some hpoisoned rfl]
      exact ⟨congrArg (fun store => (store.drain userId).1) h.store, h.staging⟩
    | stagePull request =>
      cases hop
      exact h.stagePull hpoisoned request
    | fetchPull rendezvousToken =>
      cases hop
      change Runs (s.fetchPull rendezvousToken).2 _
      unfold Relay.fetchPull
      rw [locked_of_some hpoisoned rfl]
      exact ⟨congrArg (fun store => (store.fetchPull rendezvousToken).1) h.store, h.staging⟩
    | deleteMessage userId messageId' =>
      cases hop
      change Runs (s.deleteMessage userId messageId').2 _
      unfold Relay.deleteMessage
      rw [locked_of_some hpoisoned rfl]
      exact ⟨congrArg (fun store => (store.deleteMessage userId messageId').1) h.store, h.staging⟩
  | finishStagePull k nowMs =>
    cases hop
    exact h.finishStagePull hpoisoned k nowMs

/-- Only a submission for someone else runs no section. -/
lemma step_of_op_none {a : RelayStep} (h : a.op = none) : s.step a = s := by
  unfold RelayStep.op at h
  split at h <;> try cases h
  rename_i recipientId envelope messageId
  have hrecipient : envelope.recipientId ≠ recipientId := by simpa using h
  change (s.submitMessage recipientId envelope messageId).2 = s
  unfold submitMessage
  rw [if_pos hrecipient]

lemma simulates : Simulates Runs event step (fun _ _ => (none : Option Unit)) StoreRun.step
    (fun _ _ => none) := by
  constructor
  · intro s t a h hevent
    refine ⟨?_, rfl⟩
    unfold event at hevent
    split at hevent
    · rename_i hpoisoned
      obtain ⟨hstore, hstill⟩ := step_of_poisoned hpoisoned a
      exact ⟨h.store.trans hstore.symm, by simp [hstill]⟩
    · rwa [step_of_op_none hevent]
  · intro s t a op h hevent
    refine ⟨?_, rfl⟩
    unfold event at hevent
    split at hevent
    · cases hevent
    · rename_i hpoisoned
      exact h.step (Bool.not_eq_true _ ▸ hpoisoned) hevent

/-- The store of the handlers is the store of their sections. -/
theorem runs_sections (steps : List RelayStep) :
    Runs (run step {} steps) (run StoreRun.step {} (outputs step event {} steps)) := by
  have hinit : Runs {} {} := ⟨rfl, fun _ => rfl⟩
  exact (simulates.run hinit steps).1

end Refinement

end Relay

end Parda.Server
