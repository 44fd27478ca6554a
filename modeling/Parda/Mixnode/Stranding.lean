import Parda.Mixnode.Pull

/-!
# Stranded mail

Which pulls lose mail. The invariant follows a token from the packet that carries it
to the `stage_pull` and the stage under it, one after the other, so that nothing is ever
staged over it.
-/

namespace Parda.Server.StoreRun

/-- The tokens that hold mail, in a stage or in a running `stage_pull`, with the mail. -/
def held (s : StoreRun) : Multiset (String × List StoredEnvelope) :=
  (s.staging.map (fun p => (p.rendezvousToken, p.messages)) : List _) +
    (s.store.pullStages.map (fun stage => (stage.rendezvousToken, stage.messages)) : List _)

variable {s : StoreRun} {x : String × List StoredEnvelope}

lemma mem_held : x ∈ s.held ↔ (∃ p ∈ s.staging, (p.rendezvousToken, p.messages) = x) ∨
    ∃ stage ∈ s.store.pullStages, (stage.rendezvousToken, stage.messages) = x := by
  unfold held
  rw [Multiset.mem_add, Multiset.mem_coe, Multiset.mem_coe, List.mem_map, List.mem_map]

lemma held_enqueue (s : StoreRun) (recipientId : String) (envelope : StoredEnvelope) :
    (s.step (.enqueue recipientId envelope)).held = s.held := by
  cases henq : s.store.enqueue recipientId envelope with
  | none => rw [step_enqueue_none henq]
  | some store =>
    rw [step_enqueue_some henq]
    obtain ⟨-, rfl⟩ := RelayStore.enqueue_cases henq
    rfl

lemma held_stageDrain (s : StoreRun) (recipientId token : String) :
    (s.step (.stageDrain recipientId token)).held =
      (token, s.store.selectPending recipientId) ::ₘ s.held := by
  unfold held
  rw [← Multiset.cons_add, Multiset.cons_coe]
  rfl

lemma held_eraseIdx {k : ℕ} {p : Staging} (hp : s.staging[k]? = some p) :
    s.held = (p.rendezvousToken, p.messages) ::ₘ
      (((s.staging.eraseIdx k).map (fun p => (p.rendezvousToken, p.messages)) : List _) +
        (s.store.pullStages.map (fun stage => (stage.rendezvousToken, stage.messages)) : List _)) := by
  unfold held
  rw [Table.coe_map_eraseIdx hp, Multiset.cons_add]

lemma held_stageInsert_le (s : StoreRun) (k : ℕ) (nowMs : UInt64) :
    (s.step (.stageInsert k nowMs)).held ≤ s.held := by
  cases hp : s.staging[k]? with
  | none => rw [step_stageInsert_none hp]
  | some p =>
    rw [step_stageInsert_some hp, held_eraseIdx hp]
    have hkept : (Table.deleteKey PullStage.rendezvousToken (s.store.sweepStages nowMs).pullStages
        p.rendezvousToken).Sublist s.store.pullStages :=
      List.filter_sublist.trans List.filter_sublist
    have hle := Multiset.coe_le.mpr
      (hkept.map (fun stage => (stage.rendezvousToken, stage.messages))).subperm
    refine le_trans (le_of_eq ?_) (Multiset.cons_le_cons _ (add_le_add_right hle _))
    unfold held
    rw [← Multiset.add_cons, Multiset.cons_coe]
    rfl

lemma held_fetchPull_le (s : StoreRun) (token : String) :
    (s.step (.fetchPull token)).held ≤ s.held := by
  have hkept : (Table.deleteKey PullStage.rendezvousToken s.store.pullStages token).Sublist
      s.store.pullStages := List.filter_sublist
  have hle := Multiset.coe_le.mpr
    (hkept.map (fun stage => (stage.rendezvousToken, stage.messages))).subperm
  exact add_le_add_right hle _

/-- After the fetch only a running `stage_pull` can hold mail under the token. -/
lemma mem_held_fetchPull {token : String} (hx : x ∈ (s.step (.fetchPull token)).held)
    (htoken : x.1 = token) : ∃ p ∈ s.staging, (p.rendezvousToken, p.messages) = x := by
  rcases mem_held.mp hx with h | ⟨stage, hstage, rfl⟩
  · exact h
  · exact absurd htoken (Table.mem_deleteKey.mp hstage).2

lemma mem_held_of_fetchPull {token : String} {envelopes : List StoredEnvelope}
    (h : (s.store.fetchPull token).2 = some envelopes) : (token, envelopes) ∈ s.held := by
  obtain ⟨stage, hfind, rfl⟩ := Option.map_eq_some_iff.mp h
  have htoken : stage.rendezvousToken = token := by
    simpa using List.find?_some hfind
  exact mem_held.mpr (Or.inr ⟨stage, List.mem_of_find?_eq_some hfind, by rw [htoken]⟩)

/-- A token that a running `stage_pull` alone holds is free for its upsert. -/
lemma replacedBy_eq_nil {k : ℕ} {p : Staging} (hp : s.staging[k]? = some p)
    (hnodup : (s.held.map Prod.fst).Nodup) (nowMs : UInt64) :
    s.store.replacedBy p.rendezvousToken nowMs = [] := by
  apply Table.contentAt_of_notMem
  rw [held_eraseIdx hp, Multiset.map_cons, Multiset.nodup_cons] at hnodup
  intro hmem
  obtain ⟨stage, hstage, htoken⟩ := List.mem_map.mp hmem
  apply hnodup.1
  rw [Multiset.map_add, Multiset.mem_add]
  refine Or.inr (Multiset.mem_map.mpr ⟨(stage.rendezvousToken, stage.messages), ?_, htoken⟩)
  exact Multiset.mem_coe.mpr (List.mem_map_of_mem (List.mem_filter.mp hstage).1)

end Parda.Server.StoreRun

namespace Parda.Mixnode

open Machine Protocol Server

namespace World

/-- What the calls so far returned. -/
def responses (w : World) : Multiset StoredEnvelope := Table.items Prod.snd w.answered

/-- A call for the envelope's recipient has its `GET` of the token still to come. -/
def AwaitedBy (w : World) (token : String) (e : StoredEnvelope) : Prop :=
  ∃ request ∈ w.waiting, request.rendezvousToken = token ∧
    request.recipientId = e.envelope.recipientId

/-- Mail under a token has a call coming for it, calls return their recipient's mail, and
every envelope is queued, under a token or returned, and none twice. -/
structure NoStrandedMail (w : World) : Prop where
  held : ∀ x ∈ w.relay.held, ∀ e ∈ x.2, w.AwaitedBy x.1 e
  answered : ∀ call ∈ w.answered, ∀ e ∈ call.2, e.envelope.recipientId = call.1.recipientId
  accounted : w.relay.enqueued =
    w.relay.store.queued + w.relay.store.staged + w.relay.beingStaged + w.responses

/-- A pull is staged before its call's `GET` or finds the queue empty, no `GET` falls
between the sections of its `stage_pull`, and no sweep drops mail. -/
def InTime (w : World) : Label → Prop
  | .runTask k => ∀ request, w.tasks[k]? = some (.pullRequest request) →
    request ∈ w.waiting ∨ ∀ row ∈ w.relay.store.messages, row.recipientId ≠ request.recipientId
  | .insertStage k nowMs => ∀ p, w.relay.staging[k]? = some p →
    ∀ stage ∈ w.relay.store.pullStages, RelayStore.expired nowMs stage → stage.messages = []
  | .get k => ∀ request, w.waiting[k]? = some request →
    ∀ p ∈ w.relay.staging, p.rendezvousToken = request.rendezvousToken → p.messages = []
  | _ => True

/-- The tokens of the packets under way and of the mail under a token. -/
def pendingTokens (w : World) : Multiset String :=
  (w.tasks.map (fun task => task.request.rendezvousToken) : List String) + w.relay.held.map Prod.fst

structure Inv (w : World) : Prop where
  accounted : w.relay.Accounted
  replaced : w.relay.replaced = 0
  deleted : w.relay.deleted = 0
  returned : w.relay.returned = w.responses
  rows : ∀ row ∈ w.relay.store.messages, row.envelope.envelope.recipientId = row.recipientId
  tasks : ∀ task ∈ w.tasks, task.request ∈ w.requests
  held : ∀ x ∈ w.relay.held, ∃ request ∈ w.requests, request.rendezvousToken = x.1 ∧
    ∀ e ∈ x.2, e.envelope.recipientId = request.recipientId
  answered : ∀ call ∈ w.answered, ∀ e ∈ call.2, e.envelope.recipientId = call.1.recipientId
  distinct : (w.requests.map PullRequest.rendezvousToken).Nodup
  pending : w.pendingTokens.Nodup

variable {w : World}

lemma inv_init : Inv {} where
  accounted := rfl
  replaced := rfl
  deleted := rfl
  returned := rfl
  rows := by simp
  tasks := by simp
  held := by simp [StoreRun.held]
  answered := by simp
  distinct := List.nodup_nil
  pending := Multiset.nodup_zero

lemma Inv.held_nodup (h : w.Inv) : (w.relay.held.map Prod.fst).Nodup :=
  (Multiset.nodup_add.mp h.pending).2.1

lemma Inv.tokensDistinct (h : w.Inv) : w.relay.store.TokensDistinct := by
  have hnodup := h.held_nodup
  unfold StoreRun.held at hnodup
  rw [Multiset.map_add, Multiset.nodup_add, Multiset.map_coe, Multiset.map_coe, List.map_map,
    List.map_map] at hnodup
  exact Multiset.coe_nodup.mp hnodup.2.1

lemma Inv.request_unique (h : w.Inv) {request request' : PullRequest} (hr : request ∈ w.requests)
    (hr' : request' ∈ w.requests) (htoken : request.rendezvousToken = request'.rendezvousToken) :
    request = request' :=
  List.inj_on_of_nodup_map h.distinct hr hr' htoken

lemma mem_requests_of_waiting {request : PullRequest} (h : request ∈ w.waiting) :
    request ∈ w.requests :=
  List.mem_append_left _ h

/-- Nothing gets lost without a sweep. -/
lemma Inv.accounted_iff (h : w.Inv) :
    w.relay.enqueued =
      w.relay.store.queued + w.relay.store.staged + w.relay.beingStaged + w.responses ↔
    w.relay.swept = 0 := by
  have hsplit : w.relay.enqueued = w.relay.store.queued + w.relay.store.staged +
      w.relay.beingStaged + w.responses + w.relay.swept := by
    rw [h.accounted, h.replaced]
    unfold StoreRun.places
    rw [h.deleted, h.returned]
    abel
  rw [hsplit]
  exact add_eq_left

lemma Inv.submitMessage (h : w.Inv) (recipientId msgId : String) (envelope : MessageEnvelope) :
    (w.step (.submitMessage recipientId msgId envelope)).Inv := by
  change Inv { w with relay := Mixnode.submitMessage w.relay recipientId msgId envelope }
  unfold Mixnode.submitMessage
  by_cases hfor : envelope.recipientId ≠ recipientId
  · rw [if_pos hfor]
    exact h
  rw [if_neg hfor]
  have hacc := StoreRun.accounted_step h.tokensDistinct h.accounted
    (.enqueue recipientId ⟨msgId, envelope⟩)
  have hheld := StoreRun.held_enqueue w.relay recipientId ⟨msgId, envelope⟩
  cases henq : w.relay.store.enqueue recipientId ⟨msgId, envelope⟩ with
  | none =>
    rw [StoreRun.step_enqueue_none henq]
    exact h
  | some store =>
    rw [StoreRun.step_enqueue_some henq] at hacc hheld ⊢
    obtain ⟨-, rfl⟩ := RelayStore.enqueue_cases henq
    refine ⟨hacc, h.replaced, h.deleted, h.returned, ?_, h.tasks, ?_, h.answered, h.distinct, ?_⟩
    · intro row hrow
      rcases List.mem_append.mp hrow with hrow | hrow
      · exact h.rows row hrow
      · rw [List.mem_singleton.mp hrow]
        exact not_not.mp hfor
    · rw [hheld]
      exact h.held
    · unfold pendingTokens
      rw [hheld]
      exact h.pending

lemma Inv.pending_subset (h : w.Inv) {token : String} (ht : token ∈ w.pendingTokens) :
    token ∈ w.requests.map PullRequest.rendezvousToken := by
  rcases Multiset.mem_add.mp ht with ht | ht
  · obtain ⟨task, htask, rfl⟩ := List.mem_map.mp (Multiset.mem_coe.mp ht)
    exact List.mem_map_of_mem (h.tasks task htask)
  · obtain ⟨x, hx, rfl⟩ := Multiset.mem_map.mp ht
    obtain ⟨request, hrequest, htoken, -⟩ := h.held x hx
    rw [← htoken]
    exact List.mem_map_of_mem hrequest

lemma Inv.receive (h : w.Inv) (recipientId token : String) (path : List String) :
    (w.receive recipientId token path).Inv := by
  unfold World.receive
  by_cases hused : token ∈ w.requests.map PullRequest.rendezvousToken
  · rw [if_pos hused]
    exact h
  rw [if_neg hused]
  cases hpacket : buildPacketTo ⟨recipientId, token⟩ path with
  | error e => exact h
  | ok packet =>
    have hrequest : packet.request = ⟨recipientId, token⟩ := by
      unfold buildPacketTo at hpacket
      by_cases hlen : path.length < minPathLength
      · rw [if_pos hlen] at hpacket
        cases hpacket
      · rw [if_neg hlen] at hpacket
        cases hpacket
        rfl
    refine ⟨h.accounted, h.replaced, h.deleted, h.returned, h.rows, ?_, ?_, h.answered, ?_, ?_⟩
    · intro task htask
      rcases List.mem_cons.mp htask with rfl | htask
      · rw [processPacket_request, hrequest]
        exact List.mem_cons_self
      · exact List.mem_cons_of_mem _ (h.tasks task htask)
    · intro x hx
      obtain ⟨request, hmem, hrest⟩ := h.held x hx
      exact ⟨request, List.mem_cons_of_mem _ hmem, hrest⟩
    · exact List.nodup_cons.mpr ⟨hused, h.distinct⟩
    · change (((processPacket packet).request.rendezvousToken ::
        w.tasks.map (fun task => task.request.rendezvousToken) : List String) +
          w.relay.held.map Prod.fst).Nodup
      rw [processPacket_request, hrequest, ← Multiset.cons_coe, Multiset.cons_add,
        Multiset.nodup_cons]
      exact ⟨fun ht => hused (h.pending_subset ht), h.pending⟩

lemma Inv.runTask_forward (h : w.Inv) {k : ℕ} {hop : String} {packet : PullPacket}
    (htask : w.tasks[k]? = some (.forward hop packet)) :
    Inv { w with tasks := processPacket packet :: w.tasks.eraseIdx k } := by
  refine ⟨h.accounted, h.replaced, h.deleted, h.returned, h.rows, ?_, h.held, h.answered,
    h.distinct, ?_⟩
  · intro task hmem
    rcases List.mem_cons.mp hmem with rfl | hmem
    · rw [processPacket_request]
      exact h.tasks _ (List.mem_of_getElem? htask)
    · exact h.tasks task (List.mem_of_mem_eraseIdx hmem)
  · have hpending := h.pending
    unfold pendingTokens at hpending ⊢
    rw [Table.coe_map_eraseIdx htask, Multiset.cons_coe] at hpending
    rw [List.map_cons, processPacket_request]
    exact hpending

lemma Inv.runTask_pullRequest (h : w.Inv) {k : ℕ} {request : PullRequest}
    (htask : w.tasks[k]? = some (.pullRequest request)) :
    Inv { w with
      tasks := w.tasks.eraseIdx k
      relay := w.relay.step (.stageDrain request.recipientId request.rendezvousToken) } := by
  have hrequest : request ∈ w.requests := h.tasks _ (List.mem_of_getElem? htask)
  have hheld := StoreRun.held_stageDrain w.relay request.recipientId request.rendezvousToken
  refine ⟨StoreRun.accounted_step h.tokensDistinct h.accounted _, h.replaced, h.deleted,
    h.returned, ?_, ?_, ?_, h.answered, h.distinct, ?_⟩
  · intro row hrow
    exact h.rows row (List.mem_filter.mp hrow).1
  · intro task hmem
    exact h.tasks task (List.mem_of_mem_eraseIdx hmem)
  · intro x hx
    rw [hheld, Multiset.mem_cons] at hx
    rcases hx with rfl | hx
    · refine ⟨request, hrequest, rfl, ?_⟩
      intro e he
      obtain ⟨row, hrow, hrecipient, rfl⟩ := RelayStore.mem_selectPending.mp he
      rw [h.rows row hrow, hrecipient]
    · exact h.held x hx
  · have hpending := h.pending
    unfold pendingTokens at hpending ⊢
    rw [Table.coe_map_eraseIdx htask, Multiset.cons_add] at hpending
    rw [hheld, Multiset.map_cons, Multiset.add_cons]
    exact hpending

lemma Inv.runTask (h : w.Inv) (k : ℕ) : (w.runTask k).Inv := by
  unfold World.runTask
  cases htask : w.tasks[k]? with
  | none => exact h
  | some task =>
    cases task with
    | forward hop packet => exact h.runTask_forward htask
    | pullRequest request => exact h.runTask_pullRequest htask

lemma Inv.insertStage (h : w.Inv) (k : ℕ) (nowMs : UInt64) :
    Inv { w with relay := w.relay.step (.stageInsert k nowMs) } := by
  have hacc := StoreRun.accounted_step h.tokensDistinct h.accounted (.stageInsert k nowMs)
  have hle := StoreRun.held_stageInsert_le w.relay k nowMs
  have hheld : ∀ x ∈ (w.relay.step (.stageInsert k nowMs)).held, ∃ request ∈ w.requests,
      request.rendezvousToken = x.1 ∧ ∀ e ∈ x.2, e.envelope.recipientId = request.recipientId :=
    fun x hx => h.held x (Multiset.mem_of_le hle hx)
  have hpending : pendingTokens { w with relay := w.relay.step (.stageInsert k nowMs) } ≤
      w.pendingTokens := add_le_add_right (Multiset.map_le_map hle) _
  have hnodup := Multiset.nodup_of_le hpending h.pending
  cases hp : w.relay.staging[k]? with
  | none =>
    rw [StoreRun.step_stageInsert_none hp]
    exact h
  | some p =>
    have hfree := StoreRun.replacedBy_eq_nil hp h.held_nodup nowMs
    rw [StoreRun.step_stageInsert_some hp] at hacc hheld hnodup ⊢
    refine ⟨hacc, ?_, h.deleted, h.returned, h.rows, h.tasks, hheld, h.answered, h.distinct, hnodup⟩
    change w.relay.replaced + (w.relay.store.replacedBy p.rendezvousToken nowMs : Multiset _) = 0
    rw [h.replaced, hfree]
    rfl

lemma Inv.get (h : w.Inv) (k : ℕ) : (w.get k).Inv := by
  unfold World.get
  cases hcall : w.waiting[k]? with
  | none => exact h
  | some request =>
    have hrequest : request ∈ w.requests := mem_requests_of_waiting (List.mem_of_getElem? hcall)
    have hle := StoreRun.held_fetchPull_le w.relay request.rendezvousToken
    have hrequests : (w.waiting.eraseIdx k ++
        (request :: w.answered.map Prod.fst)).Perm w.requests := by
      have hwaiting := Table.coe_map_eraseIdx hcall id
      rw [List.map_id, List.map_id, Multiset.cons_coe, Multiset.coe_eq_coe] at hwaiting
      exact List.perm_middle.trans (hwaiting.symm.append_right _)
    refine ⟨StoreRun.accounted_step h.tokensDistinct h.accounted _, h.replaced, h.deleted, ?_,
      h.rows, ?_, ?_, ?_, ?_, ?_⟩
    · change w.relay.returned + _ = Table.items _ (_ :: _)
      rw [Table.items_cons, h.returned, add_comm]
      rfl
    · intro task htask
      exact hrequests.mem_iff.mpr (h.tasks task htask)
    · intro x hx
      obtain ⟨request', hmem, hrest⟩ := h.held x (Multiset.mem_of_le hle hx)
      exact ⟨request', hrequests.mem_iff.mpr hmem, hrest⟩
    · intro call hmem e he
      rcases List.mem_cons.mp hmem with rfl | hmem
      · cases hfetch : (w.relay.store.fetchPull request.rendezvousToken).2 with
        | none => rw [hfetch] at he; cases he
        | some envelopes =>
          rw [hfetch] at he
          obtain ⟨request', hmem', htoken, hfor⟩ :=
            h.held _ (StoreRun.mem_held_of_fetchPull hfetch)
          rw [h.request_unique hrequest hmem' htoken.symm]
          exact hfor e he
      · exact h.answered call hmem e he
    · exact (hrequests.map PullRequest.rendezvousToken).nodup_iff.mpr h.distinct
    · have hpending := add_le_add_right (Multiset.map_le_map (f := Prod.fst) hle)
        ((w.tasks.map (fun task => task.request.rendezvousToken) : List String) : Multiset String)
      exact Multiset.nodup_of_le hpending h.pending

lemma inv_step (w : World) (label : Label) (h : w.Inv) : (w.step label).Inv := by
  cases label with
  | submitMessage recipientId msgId envelope => exact h.submitMessage recipientId msgId envelope
  | receive recipientId token path => exact h.receive recipientId token path
  | runTask k => exact h.runTask k
  | insertStage k nowMs => exact h.insertStage k nowMs
  | get k => exact h.get k

lemma swept_submitMessage (relay : StoreRun) (recipientId msgId : String)
    (envelope : MessageEnvelope) :
    (Mixnode.submitMessage relay recipientId msgId envelope).swept = relay.swept ∧
      (Mixnode.submitMessage relay recipientId msgId envelope).held = relay.held := by
  unfold Mixnode.submitMessage
  by_cases hfor : envelope.recipientId ≠ recipientId
  · rw [if_pos hfor]
    exact ⟨rfl, rfl⟩
  rw [if_neg hfor]
  refine ⟨?_, StoreRun.held_enqueue relay recipientId ⟨msgId, envelope⟩⟩
  cases henq : relay.store.enqueue recipientId ⟨msgId, envelope⟩ with
  | none => rw [StoreRun.step_enqueue_none henq]
  | some store => rw [StoreRun.step_enqueue_some henq]

lemma AwaitedBy.mono {w' : World} (hwaiting : w.waiting ⊆ w'.waiting) {token : String}
    {e : StoredEnvelope} (h : w.AwaitedBy token e) : w'.AwaitedBy token e := by
  obtain ⟨request, hmem, hrest⟩ := h
  exact ⟨request, hwaiting hmem, hrest⟩

/-- A step that loses nothing strands nothing when the mail under tokens stays awaited. -/
lemma noStrandedMail_iff {w' : World} (h : w'.Inv) :
    w'.NoStrandedMail ↔
      (∀ x ∈ w'.relay.held, ∀ e ∈ x.2, w'.AwaitedBy x.1 e) ∧ w'.relay.swept = 0 := by
  constructor
  · intro hgood
    exact ⟨hgood.held, h.accounted_iff.mp hgood.accounted⟩
  · rintro ⟨hheld, hswept⟩
    exact ⟨hheld, h.answered, h.accounted_iff.mpr hswept⟩

section Step

variable (h : w.Inv) (hheld : ∀ x ∈ w.relay.held, ∀ e ∈ x.2, w.AwaitedBy x.1 e)
  (hswept : w.relay.swept = 0)
include h hheld

lemma held_runTask_iff (k : ℕ) :
    (∀ x ∈ (w.runTask k).relay.held, ∀ e ∈ x.2, (w.runTask k).AwaitedBy x.1 e) ↔
      w.InTime (.runTask k) := by
  change _ ↔ ∀ request, w.tasks[k]? = some (.pullRequest request) → _
  unfold World.runTask
  cases htask : w.tasks[k]? with
  | none => exact iff_of_true hheld (fun _ hnone => absurd hnone (by simp))
  | some task =>
    cases task with
    | forward hop packet => exact iff_of_true hheld (fun _ hsome => absurd hsome (by simp))
    | pullRequest request =>
      have hrequest : request ∈ w.requests := h.tasks _ (List.mem_of_getElem? htask)
      dsimp only
      rw [StoreRun.held_stageDrain]
      constructor
      · intro hnew request' heq
        cases heq
        by_cases hwaiting : request ∈ w.waiting
        · exact Or.inl hwaiting
        · right
          intro row hrow hrecipient
          have hpending : row.envelope ∈ w.relay.store.selectPending request.recipientId :=
            RelayStore.mem_selectPending.mpr ⟨row, hrow, hrecipient, rfl⟩
          obtain ⟨request', hmem, htoken, -⟩ := hnew _ (Multiset.mem_cons_self _ _) _ hpending
          rw [h.request_unique hrequest (mem_requests_of_waiting hmem) htoken.symm] at hwaiting
          exact hwaiting hmem
      · intro hin x hx e he
        rcases Multiset.mem_cons.mp hx with rfl | hx
        · obtain ⟨row, hrow, hrecipient, rfl⟩ := RelayStore.mem_selectPending.mp he
          rcases hin request rfl with hwaiting | hempty
          · exact ⟨request, hwaiting, rfl, by rw [h.rows row hrow, hrecipient]⟩
          · exact absurd hrecipient (hempty row hrow)
        · exact hheld x hx e he

lemma held_get_iff (k : ℕ) :
    (∀ x ∈ (w.get k).relay.held, ∀ e ∈ x.2, (w.get k).AwaitedBy x.1 e) ↔ w.InTime (.get k) := by
  change _ ↔ ∀ request, w.waiting[k]? = some request → _
  unfold World.get
  cases hcall : w.waiting[k]? with
  | none => exact iff_of_true hheld (fun _ hnone => absurd hnone (by simp))
  | some request =>
    have hrequest : request ∈ w.requests := mem_requests_of_waiting (List.mem_of_getElem? hcall)
    have hperm := Table.coe_map_eraseIdx hcall id
    rw [List.map_id, List.map_id, Multiset.cons_coe, Multiset.coe_eq_coe] at hperm
    have hnodup : (request :: w.waiting.eraseIdx k).Nodup := by
      apply hperm.nodup_iff.mp
      exact (List.nodup_append.mp (List.Nodup.of_map _ h.distinct)).1
    dsimp only
    constructor
    · intro hnew request' heq p hp htoken
      cases heq
      -- mail of a running `stage_pull` would await a call that just got its answer
      by_contra hmail
      obtain ⟨e, he⟩ := List.exists_mem_of_ne_nil _ hmail
      have hx : (p.rendezvousToken, p.messages) ∈
          (w.relay.step (.fetchPull request.rendezvousToken)).held :=
        StoreRun.mem_held.mpr (Or.inl ⟨p, hp, rfl⟩)
      obtain ⟨request', hmem, htoken', -⟩ := hnew _ hx e he
      have hwaiting : request' ∈ w.waiting := List.mem_of_mem_eraseIdx hmem
      have heq : request' = request :=
        h.request_unique (mem_requests_of_waiting hwaiting) hrequest (htoken'.trans htoken)
      rw [heq] at hmem
      exact (List.nodup_cons.mp hnodup).1 hmem
    · intro hin x hx e he
      by_cases htoken : x.1 = request.rendezvousToken
      · obtain ⟨p, hp, rfl⟩ := StoreRun.mem_held_fetchPull hx htoken
        rw [hin request rfl p hp htoken] at he
        cases he
      · have hmem := Multiset.mem_of_le (StoreRun.held_fetchPull_le _ _) hx
        obtain ⟨request', hwaiting, htoken', hrecipient⟩ := hheld x hmem e he
        refine ⟨request', ?_, htoken', hrecipient⟩
        rcases List.mem_cons.mp (hperm.mem_iff.mp hwaiting) with rfl | hrest
        · exact absurd htoken'.symm htoken
        · exact hrest

omit h in
include hswept in
lemma insertStage_iff (k : ℕ) (nowMs : UInt64) :
    ((∀ x ∈ (w.relay.step (.stageInsert k nowMs)).held, ∀ e ∈ x.2, w.AwaitedBy x.1 e) ∧
      (w.relay.step (.stageInsert k nowMs)).swept = 0) ↔ w.InTime (.insertStage k nowMs) := by
  have hold : ∀ x ∈ (w.relay.step (.stageInsert k nowMs)).held, ∀ e ∈ x.2, w.AwaitedBy x.1 e :=
    fun x hx => hheld x (Multiset.mem_of_le (StoreRun.held_stageInsert_le _ _ _) hx)
  rw [and_iff_right hold]
  change _ ↔ ∀ p, w.relay.staging[k]? = some p → _
  cases hp : w.relay.staging[k]? with
  | none =>
    rw [StoreRun.step_stageInsert_none hp]
    exact iff_of_true hswept (fun _ hnone => absurd hnone (by simp))
  | some p =>
    rw [StoreRun.step_stageInsert_some hp]
    change w.relay.swept + w.relay.store.sweptBy nowMs = 0 ↔ _
    rw [hswept, zero_add]
    constructor
    · intro hnone p' _ stage hstage hexpired
      rw [List.eq_nil_iff_forall_not_mem]
      intro e he
      have hmem : e ∈ w.relay.store.sweptBy nowMs :=
        Table.mem_items.mpr ⟨stage, List.mem_filter.mpr ⟨hstage, hexpired⟩, he⟩
      rw [hnone] at hmem
      exact Multiset.notMem_zero e hmem
    · intro hin
      apply Multiset.eq_zero_of_forall_notMem
      intro e he
      obtain ⟨stage, hstage, hmail⟩ := Table.mem_items.mp he
      obtain ⟨hmem, hexpired⟩ := List.mem_filter.mp hstage
      rw [hin p rfl stage hmem hexpired] at hmail
      cases hmail

end Step

lemma noStrandedMail_step (w : World) (label : Label) (h : w.Inv) (hgood : w.NoStrandedMail) :
    (w.step label).NoStrandedMail ↔ w.InTime label := by
  obtain ⟨hheld, hswept⟩ := (noStrandedMail_iff h).mp hgood
  rw [noStrandedMail_iff (inv_step w label h)]
  cases label with
  | submitMessage recipientId msgId envelope =>
    obtain ⟨hswept', hheld'⟩ := swept_submitMessage w.relay recipientId msgId envelope
    apply iff_of_true _ trivial
    change (∀ x ∈ (Mixnode.submitMessage w.relay recipientId msgId envelope).held, _) ∧
      (Mixnode.submitMessage w.relay recipientId msgId envelope).swept = 0
    rw [hswept', hheld']
    exact ⟨hheld, hswept⟩
  | receive recipientId token path =>
    apply iff_of_true _ trivial
    change (∀ x ∈ (w.receive recipientId token path).relay.held, ∀ e ∈ x.2,
      (w.receive recipientId token path).AwaitedBy x.1 e) ∧ _
    have hsame : (w.receive recipientId token path).relay = w.relay ∧
        w.waiting ⊆ (w.receive recipientId token path).waiting := by
      unfold World.receive
      by_cases hused : token ∈ w.requests.map PullRequest.rendezvousToken
      · rw [if_pos hused]
        exact ⟨rfl, List.Subset.refl _⟩
      · rw [if_neg hused]
        cases buildPacketTo ⟨recipientId, token⟩ path with
        | error e => exact ⟨rfl, List.Subset.refl _⟩
        | ok packet => exact ⟨rfl, List.subset_cons_self _ _⟩
    refine ⟨?_, ?_⟩
    · rw [hsame.1]
      exact fun x hx e he => (hheld x hx e he).mono hsame.2
    · change (w.receive recipientId token path).relay.swept = 0
      rw [hsame.1]
      exact hswept
  | runTask k =>
    have hsame : (w.runTask k).relay.swept = w.relay.swept := by
      unfold World.runTask
      split <;> rfl
    rw [← held_runTask_iff h hheld k]
    exact and_iff_left (hsame.trans hswept)
  | insertStage k nowMs => exact insertStage_iff hheld hswept k nowMs
  | get k =>
    have hsame : (w.get k).relay.swept = w.relay.swept := by
      unfold World.get
      split <;> rfl
    rw [← held_get_iff h hheld k]
    exact and_iff_left (hsame.trans hswept)

/-- A run strands no mail exactly when every step of it is in time. -/
theorem everyState_noStrandedMail_iff (labels : List Label) :
    EveryState step NoStrandedMail {} labels ↔ EveryStep step InTime {} labels := by
  have hstart : NoStrandedMail {} := (noStrandedMail_iff inv_init).mpr ⟨by simp [StoreRun.held], rfl⟩
  exact everyState_iff_everyStep inv_step noStrandedMail_step inv_init hstart labels

end World

example : (run World.step {} [.submitMessage "bob" "m1" (sampleMail "m1" "bob").envelope,
    .receive "bob" "t" ["hop1", "hop2", "hop3"], .runTask 0, .runTask 0, .runTask 0,
    .insertStage 0 2000, .get 0]).responses = {sampleMail "m1" "bob"} := by
  decide +kernel

/-- The `GET` comes before the packet has passed its three hops. -/
def earlyGet : List Label :=
  [.submitMessage "bob" "m1" (sampleMail "m1" "bob").envelope,
    .receive "bob" "t" ["hop1", "hop2", "hop3"], .get 0, .runTask 0, .runTask 0, .runTask 0,
    .insertStage 0 2000]

namespace World

theorem not_noStrandedMail_earlyGet : ¬EveryState step NoStrandedMail {} earlyGet := by
  intro h
  have hheld : ("t", [sampleMail "m1" "bob"]) ∈ (run step {} earlyGet).relay.held := by
    decide +kernel
  have hwaiting : (run step {} earlyGet).waiting = [] := by decide +kernel
  obtain ⟨request, hmem, -⟩ := h.last.held _ hheld _ List.mem_cons_self
  rw [hwaiting] at hmem
  cases hmem

end World

end Parda.Mixnode
