import Parda.Server.Handlers

/-!
# Isolation of the relay's recipients

What the relay hands out and what it removes, under every interleaving of the mail handlers.
-/

namespace Parda.Server

open Machine Protocol
open Mixnode (PullRequest)

/-- The steps that may take a row out of the queue. -/
def RelayStep.Removes (row : MessageRow) : RelayStep → Prop
  | .handle (.fetchMessages userId) _ => userId = row.recipientId
  | .handle (.stagePull request) _ => request.recipientId = row.recipientId
  | .handle (.deleteMessage userId messageId) _ =>
    userId = row.recipientId ∧ messageId = row.envelope.id
  | _ => False

/-- What the relay hands out, and to whom. -/
structure Isolated (steps : List RelayStep) : Prop where
  recipient_column : EveryState Relay.step
    (fun s => ∀ row ∈ s.store.messages, row.recipientId = row.envelope.envelope.recipientId) {} steps
  fetched : ∀ userId messages,
    (.fetchMessages userId, .messages messages) ∈ Relay.answers {} steps →
      ∀ e ∈ messages, e.envelope.recipientId = userId
  pulled : ∀ before a after, steps = before ++ a :: after → ∀ rendezvousToken messages,
    ((run Relay.step {} before).answer a).1 =
        some (.fetchPull rendezvousToken, .messages messages) →
      ∀ e ∈ messages, ∃ request : PullRequest, request.recipientId = e.envelope.recipientId ∧
        request.rendezvousToken = rendezvousToken ∧
        (.stagePull request, .accepted) ∈ Relay.answers {} before
  removed : ∀ before a after, steps = before ++ a :: after →
    ∀ row ∈ (run Relay.step {} before).store.messages,
      row ∉ (run Relay.step {} (before ++ [a])).store.messages → a.Removes row

namespace RelayStore

/-- Rows are where their envelopes say, and stages under tokens that requests for their
recipients named. -/
structure Routed (named : PullRequest → Prop) (store : RelayStore) : Prop where
  rows : ∀ row ∈ store.messages, row.recipientId = row.envelope.envelope.recipientId
  stages : ∀ stage ∈ store.pullStages, ∀ e ∈ stage.messages,
    named ⟨e.envelope.recipientId, stage.rendezvousToken⟩

variable {store store' : RelayStore} {named named' : PullRequest → Prop}

lemma Routed.mono (h : store.Routed named) (hnamed : ∀ request, named request → named' request) :
    store.Routed named' :=
  ⟨h.rows, fun stage hstage e he => hnamed _ (h.stages stage hstage e he)⟩

lemma Routed.of_subset (h : store.Routed named) (hrows : store'.messages ⊆ store.messages)
    (hstages : store'.pullStages ⊆ store.pullStages) : store'.Routed named :=
  ⟨fun row hrow => h.rows row (hrows hrow), fun stage hstage => h.stages stage (hstages hstage)⟩

lemma Routed.selectPending (h : store.Routed named) (userId : String) :
    ∀ e ∈ store.selectPending userId, e.envelope.recipientId = userId := by
  intro e he
  obtain ⟨row, hrow, huser, rfl⟩ := mem_selectPending.mp he
  rw [← h.rows row hrow, huser]

lemma Routed.drain (h : store.Routed named) (userId : String) : (store.drain userId).1.Routed named :=
  h.of_subset (List.filter_subset_self _) (List.Subset.refl _)

lemma Routed.fetchPull (h : store.Routed named) (rendezvousToken : String) :
    ∀ e ∈ (store.fetchPull rendezvousToken).2.getD [],
      named ⟨e.envelope.recipientId, rendezvousToken⟩ := by
  intro e he
  unfold RelayStore.fetchPull at he
  cases hfind : store.pullStages.find? (fun stage => stage.rendezvousToken = rendezvousToken) with
  | none =>
    rw [hfind] at he
    cases he
  | some stage =>
    rw [hfind] at he
    have htoken : stage.rendezvousToken = rendezvousToken := by simpa using List.find?_some hfind
    rw [← htoken]
    exact h.stages stage (List.mem_of_find?_eq_some hfind) e he

lemma Routed.enqueue (h : store.Routed named) {envelope : StoredEnvelope}
    (henq : store.enqueue envelope.envelope.recipientId envelope = some store') :
    store'.Routed named := by
  obtain ⟨-, rfl⟩ := enqueue_cases henq
  refine ⟨?_, h.stages⟩
  intro row hrow
  rcases List.mem_append.mp hrow with hrow | hrow
  · exact h.rows row hrow
  · rw [List.mem_singleton.mp hrow]

lemma Routed.insertStage (h : store.Routed named) {request : PullRequest}
    {envelopes : List StoredEnvelope}
    (henvelopes : ∀ e ∈ envelopes, e.envelope.recipientId = request.recipientId) (nowMs : UInt64)
    (hnamed : ∀ request', named request' ∨ request' = request → named' request') :
    (store.insertStage request.rendezvousToken envelopes nowMs).Routed named' := by
  refine ⟨h.rows, ?_⟩
  intro stage hstage e he
  apply hnamed
  rcases List.mem_cons.mp hstage with rfl | hstage
  · right
    rw [henvelopes e he]
  · left
    exact h.stages stage (List.mem_filter.mp (Table.mem_deleteKey.mp hstage).1).1 e he

end RelayStore

namespace Relay

structure Routed (named : PullRequest → Prop) (s : Relay) : Prop where
  store : s.store.Routed named
  running : ∀ stage ∈ s.running, ∀ e ∈ stage.messages,
    e.envelope.recipientId = stage.request.recipientId

variable {s : Relay} {named named' : PullRequest → Prop}

lemma Routed.mono (h : s.Routed named) (hnamed : ∀ request, named request → named' request) :
    s.Routed named' :=
  ⟨h.store.mono hnamed, h.running⟩

lemma Routed.locked (h : s.Routed named) {α : Type}
    {body : RelayStore → Option (RelayStore × α)}
    (hbody : ∀ store a, body s.store = some (store, a) → store.Routed named) :
    (s.locked body).2.Routed named := by
  rcases locked_cases s body with ⟨-, hstore, hrunning⟩ | ⟨store, a, hrun, hlocked⟩
  · exact ⟨hstore ▸ h.store, hrunning ▸ h.running⟩
  · rw [hlocked]
    exact ⟨hbody store a hrun, h.running⟩

lemma Routed.stagePull (h : s.Routed named) (request : PullRequest) :
    (s.stagePull request).Routed named := by
  unfold Relay.stagePull
  rcases locked_cases s fun store => some (store.drain request.recipientId) with
    ⟨hnone, hstore, hrunning⟩ | ⟨store, messages, hrun, hlocked⟩
  · split
    · rename_i s' hlocked
      rw [hlocked] at hstore hrunning
      exact ⟨hstore ▸ h.store, hrunning ▸ h.running⟩
    · rename_i messages s' hlocked
      rw [hlocked] at hnone
      cases hnone
  · rw [hlocked]
    obtain ⟨rfl, rfl⟩ := Prod.mk.inj (Option.some.inj hrun)
    refine ⟨h.store.drain _, ?_⟩
    intro stage hstage
    rcases List.mem_cons.mp hstage with rfl | hstage
    · exact h.store.selectPending request.recipientId
    · exact h.running stage hstage

lemma Routed.submitMessage (h : s.Routed named) (recipientId : String) (envelope : MessageEnvelope)
    (messageId : String) : (s.submitMessage recipientId envelope messageId).2.Routed named := by
  unfold Relay.submitMessage
  split
  · exact h
  · rename_i hrecipient
    apply h.locked
    intro store a hrun
    obtain ⟨store', henq, hpair⟩ := Option.map_eq_some_iff.mp hrun
    obtain ⟨rfl, rfl⟩ := Prod.mk.inj hpair
    rw [← not_not.mp hrecipient] at henq
    exact h.store.enqueue henq

lemma Routed.fetchMessages (h : s.Routed named) (userId : String) :
    (s.fetchMessages userId).2.Routed named := by
  apply h.locked
  intro store a hrun
  obtain ⟨rfl, -⟩ := Prod.mk.inj (Option.some.inj hrun)
  exact h.store.drain userId

lemma Routed.fetchPull (h : s.Routed named) (rendezvousToken : String) :
    (s.fetchPull rendezvousToken).2.Routed named := by
  apply h.locked
  intro store a hrun
  obtain ⟨rfl, -⟩ := Prod.mk.inj (Option.some.inj hrun)
  exact h.store.of_subset (List.Subset.refl _) (List.filter_subset_self _)

lemma Routed.deleteMessage (h : s.Routed named) (userId messageId : String) :
    (s.deleteMessage userId messageId).2.Routed named := by
  apply h.locked
  intro store a hrun
  obtain ⟨rfl, -⟩ := Prod.mk.inj (Option.some.inj hrun)
  exact h.store.of_subset (List.filter_subset_self _) (List.Subset.refl _)

/-- The second section adds the one stage that its request names. -/
lemma Routed.finishStagePull (h : s.Routed named) (k : ℕ) (nowMs : UInt64)
    (hnamed : ∀ request, named request ∨ (s.finishStagePull k nowMs).1 = some request →
      named' request) :
    (s.finishStagePull k nowMs).2.Routed named' := by
  unfold Relay.finishStagePull at hnamed ⊢
  cases hk : s.running[k]? with
  | none =>
    rw [hk] at hnamed
    exact h.mono fun request hrequest => hnamed request (Or.inl hrequest)
  | some stage =>
    rw [hk] at hnamed
    dsimp only at hnamed ⊢
    have hstage : stage ∈ s.running := List.mem_of_getElem? hk
    have hrest : Routed named { s with running := s.running.eraseIdx k } :=
      ⟨h.store, fun stage hstage => h.running stage (List.mem_of_mem_eraseIdx hstage)⟩
    rcases locked_cases { s with running := s.running.eraseIdx k } fun store =>
        some (store.insertStage stage.request.rendezvousToken stage.messages nowMs, stage.request)
      with ⟨-, hstore, hrunning⟩ | ⟨store, request, hrun, hlocked⟩
    · have hkept : Routed named _ := ⟨hstore.symm ▸ hrest.store, hrunning.symm ▸ hrest.running⟩
      exact hkept.mono fun request hrequest => hnamed request (Or.inl hrequest)
    · rw [hlocked] at hnamed ⊢
      obtain ⟨rfl, rfl⟩ := Prod.mk.inj (Option.some.inj hrun)
      refine ⟨h.store.insertStage (h.running stage hstage) nowMs ?_, hrest.running⟩
      rintro request (hrequest | rfl)
      · exact hnamed request (Or.inl hrequest)
      · exact hnamed _ (Or.inr rfl)

/-- A request was accepted, if the answers say so. -/
def Accepted (answers : List (MailRequest × MailResponse)) (request : PullRequest) : Prop :=
  (.stagePull request, .accepted) ∈ answers

lemma Routed.step {log : List (MailRequest × MailResponse)} (h : s.Routed (Accepted log))
    (a : RelayStep) : (s.step a).Routed (Accepted (log ++ (s.answer a).1.toList)) := by
  have hlog : ∀ request, Accepted log request → Accepted (log ++ (s.answer a).1.toList) request :=
    fun request hrequest => List.mem_append_left _ hrequest
  cases a with
  | handle request messageId =>
    cases request with
    | submitMessage recipientId envelope =>
      exact (h.submitMessage recipientId envelope messageId).mono hlog
    | fetchMessages userId => exact (h.fetchMessages userId).mono hlog
    | stagePull request => exact (h.stagePull request).mono hlog
    | fetchPull rendezvousToken => exact (h.fetchPull rendezvousToken).mono hlog
    | deleteMessage userId messageId' => exact (h.deleteMessage userId messageId').mono hlog
  | finishStagePull k nowMs =>
    apply h.finishStagePull k nowMs
    rintro request (hrequest | hrequest)
    · exact hlog request hrequest
    · apply List.mem_append_right
      rw [Option.mem_toList]
      exact congrArg (Option.map (MailRequest.stagePull ·, MailResponse.accepted)) hrequest

lemma Routed.run {log : List (MailRequest × MailResponse)} (h : s.Routed (Accepted log))
    (steps : List RelayStep) :
    (Machine.run Relay.step s steps).Routed (Accepted (log ++ s.answers steps)) := by
  induction steps generalizing s log with
  | nil => simpa [answers] using h
  | cons a steps ih =>
    have htail := ih (h.step a)
    rwa [List.append_assoc] at htail

lemma routed_init : Routed (Accepted []) {} := ⟨⟨by simp, by simp⟩, by simp⟩

/-- A fetch answers with the queue of its user. -/
lemma messages_of_fetchMessages {a : RelayStep} {userId : String} {messages : List StoredEnvelope}
    (h : (s.answer a).1 = some (.fetchMessages userId, .messages messages)) :
    messages = s.store.selectPending userId := by
  have hresponse : (s.fetchMessages userId).1 = some (.messages messages) := answer_cases h
  unfold fetchMessages at hresponse
  obtain ⟨store, hrun⟩ := locked_fst hresponse
  cases hrun
  rfl

/-- A fetch of a token answers with what is staged under it. -/
lemma messages_of_fetchPull {a : RelayStep} {rendezvousToken : String}
    {messages : List StoredEnvelope}
    (h : (s.answer a).1 = some (.fetchPull rendezvousToken, .messages messages)) :
    messages = (s.store.fetchPull rendezvousToken).2.getD [] := by
  have hresponse : (s.fetchPull rendezvousToken).1 = some (.messages messages) := answer_cases h
  unfold fetchPull at hresponse
  obtain ⟨store, hrun⟩ := locked_fst hresponse
  cases hrun
  rfl

/-- A row that a filter dropped is one that the filter drops. -/
lemma drops_of_gone {rows : List MessageRow} {row : MessageRow} {p : MessageRow → Bool}
    (hrow : row ∈ rows) (hgone : row ∉ rows.filter fun row => !p row) : p row = true := by
  rw [List.mem_filter, not_and, Bool.not_eq_true, Bool.not_eq_false'] at hgone
  exact hgone hrow

/-- A row leaves the queue only by a request that names its recipient. -/
lemma removes_of_gone {a : RelayStep} {row : MessageRow} (hrow : row ∈ s.store.messages)
    (hgone : row ∉ (s.step a).store.messages) : a.Removes row := by
  cases a with
  | handle request messageId =>
    cases request with
    | submitMessage recipientId envelope =>
      change row ∉ (s.submitMessage recipientId envelope messageId).2.store.messages at hgone
      unfold submitMessage at hgone
      split at hgone
      · exact hgone hrow
      · obtain ⟨store, response, hrun, hgone⟩ := locked_gone hrow hgone
        obtain ⟨store', henq, hpair⟩ := Option.map_eq_some_iff.mp hrun
        obtain ⟨-, rfl⟩ := RelayStore.enqueue_cases henq
        cases hpair
        exact hgone (List.mem_append_left _ hrow)
    | fetchMessages userId =>
      change row ∉ (s.fetchMessages userId).2.store.messages at hgone
      unfold fetchMessages at hgone
      obtain ⟨store, messages, hrun, hgone⟩ := locked_gone hrow hgone
      cases hrun
      exact (of_decide_eq_true (drops_of_gone hrow hgone)).symm
    | stagePull request =>
      change row ∉ (s.stagePull request).store.messages at hgone
      rw [stagePull_store] at hgone
      obtain ⟨store, messages, hrun, hgone⟩ := locked_gone hrow hgone
      cases hrun
      exact (of_decide_eq_true (drops_of_gone hrow hgone)).symm
    | fetchPull rendezvousToken =>
      change row ∉ (s.fetchPull rendezvousToken).2.store.messages at hgone
      unfold fetchPull at hgone
      obtain ⟨store, messages, hrun, hgone⟩ := locked_gone hrow hgone
      cases hrun
      exact absurd hrow hgone
    | deleteMessage userId messageId' =>
      change row ∉ (s.deleteMessage userId messageId').2.store.messages at hgone
      unfold deleteMessage at hgone
      obtain ⟨store, deleted, hrun, hgone⟩ := locked_gone hrow hgone
      cases hrun
      have hdeletes := drops_of_gone hrow hgone
      simp only [RelayStore.deletes, RelayStore.isFor, Bool.and_eq_true, decide_eq_true_eq]
        at hdeletes
      exact ⟨hdeletes.2.symm, hdeletes.1.symm⟩
  | finishStagePull k nowMs =>
    change row ∉ (s.finishStagePull k nowMs).2.store.messages at hgone
    unfold finishStagePull at hgone
    split at hgone
    · exact hgone hrow
    · have hrow' : row ∈ (Relay.store { s with running := s.running.eraseIdx k }).messages :=
        hrow
      obtain ⟨store, request, hrun, hgone⟩ := locked_gone hrow' hgone
      cases hrun
      exact hgone hrow

end Relay

/-- No interleaving of requests carries mail across recipients. -/
theorem isolated (steps : List RelayStep) : Isolated steps := by
  have hstep : ∀ (s : Relay) (a : RelayStep), (∃ log, s.Routed (Relay.Accepted log)) →
      ∃ log, (s.step a).Routed (Relay.Accepted log) := by
    rintro s a ⟨log, h⟩
    exact ⟨_, h.step a⟩
  have hinit : ∃ log, Relay.Routed (Relay.Accepted log) {} := ⟨[], Relay.routed_init⟩
  refine ⟨?_, ?_, ?_, ?_⟩
  · refine (everyState_of_step hstep hinit steps).mono ?_
    rintro s ⟨log, h⟩
    exact h.store.rows
  · intro userId messages hmem
    have hout : ∀ (s : Relay) (a : RelayStep), (∃ log, s.Routed (Relay.Accepted log)) →
        ∀ answer ∈ (s.answer a).1, answer = (.fetchMessages userId, .messages messages) →
          ∀ e ∈ messages, e.envelope.recipientId = userId := by
      rintro s a ⟨log, h⟩ answer hanswer rfl
      rw [Relay.messages_of_fetchMessages hanswer]
      exact h.store.selectPending userId
    exact forall_mem_outputs hstep hout hinit steps _ hmem rfl
  · intro before a after hsteps rendezvousToken messages hanswer e he
    have hrouted := Relay.routed_init.run before
    rw [Relay.messages_of_fetchPull hanswer] at he
    exact ⟨_, rfl, rfl, hrouted.store.fetchPull rendezvousToken e he⟩
  · intro before a after hsteps row hrow hgone
    rw [run_append, run_cons, run_nil] at hgone
    exact Relay.removes_of_gone hrow hgone

end Parda.Server
