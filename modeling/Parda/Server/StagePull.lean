import Parda.Server.Conservation

/-!
# Stopping a `stage_pull`

`stage_pull` commits three changes, the `DELETE` of its drain in one blocking task, the
sweep and the upsert in another. A crash, or dropping the request between the tasks,
leaves a prefix of them.
-/

namespace Parda.Server

open Machine

/-- The statements of `stage_pull` that have committed when it stops. -/
inductive StagePullStop where
  | beforeDrain
  | afterSelect
  | afterDelete
  | afterSweep
  | completed
deriving DecidableEq

/-- The queue is deleted and not staged yet. -/
def StagePullStop.InGap (stop : StagePullStop) : Prop := stop = .afterDelete ∨ stop = .afterSweep

namespace RelayStore

/-- The database that a `stage_pull` stopped at the point leaves. -/
def stagePullUntil (s : RelayStore) (recipientId token : String) (nowMs : UInt64) :
    StagePullStop → RelayStore
  | .beforeDrain | .afterSelect => s
  | .afterDelete => s.clearPending recipientId
  | .afterSweep => (s.clearPending recipientId).sweepStages nowMs
  | .completed => s.stagePull recipientId token nowMs

/-- An unexpired stage under another token. -/
def spared (token : String) (nowMs : UInt64) (stage : PullStage) : Bool :=
  stage.rendezvousToken ≠ token && !expired nowMs stage

/-- The recipient's mail is still in one of the tables, and the rest is as it was. -/
structure FailureAtomic (s s' : RelayStore) (recipientId token : String) (nowMs : UInt64) :
    Prop where
  kept : ∀ row ∈ s.messages, row.recipientId = recipientId →
    row.envelope ∈ s'.queued ∨ row.envelope ∈ s'.staged
  others : s'.messages.filter (fun row => !isFor recipientId row) =
    s.messages.filter (fun row => !isFor recipientId row)
  stages : s'.pullStages.filter (spared token nowMs) = s.pullStages.filter (spared token nowMs)

/-- No envelope is in two rows. -/
def MailDistinct (s : RelayStore) : Prop := (s.queued + s.staged).Nodup

variable {s : RelayStore} {recipientId token : String} {nowMs : UInt64}

lemma mem_queued {e : StoredEnvelope} : e ∈ s.queued ↔ ∃ row ∈ s.messages, row.envelope = e := by
  unfold queued
  rw [Table.mem_items]
  simp [eq_comm]

lemma clearPending_others (s : RelayStore) (recipientId : String) :
    (s.clearPending recipientId).messages.filter (fun row => !isFor recipientId row) =
      s.messages.filter (fun row => !isFor recipientId row) := by
  unfold clearPending
  rw [List.filter_filter]
  simp

lemma sweepStages_spared (s : RelayStore) (token : String) (nowMs : UInt64) :
    (s.sweepStages nowMs).pullStages.filter (spared token nowMs) =
      s.pullStages.filter (spared token nowMs) := by
  unfold sweepStages
  rw [List.filter_filter]
  apply List.filter_congr
  intro stage _
  simp only [spared]
  cases expired nowMs stage <;> simp

lemma upsertStage_spared (s : RelayStore) (token : String) (envelopes : List StoredEnvelope)
    (nowMs : UInt64) :
    (s.upsertStage token envelopes nowMs).pullStages.filter (spared token nowMs) =
      s.pullStages.filter (spared token nowMs) := by
  have hnew : spared token nowMs ⟨token, envelopes, nowMs.toInt64⟩ = false := by simp [spared]
  unfold upsertStage Table.upsert Table.deleteKey
  change List.filter _ (_ :: _) = _
  rw [List.filter_cons_of_neg (by rw [hnew]; decide), List.filter_filter]
  apply List.filter_congr
  intro stage _
  simp only [spared]
  by_cases h : stage.rendezvousToken = token <;> simp [h]

/-- Wherever it stops, `stage_pull` leaves the mail of others and the spared stages alone. -/
lemma stagePullUntil_frame (s : RelayStore) (recipientId token : String) (nowMs : UInt64)
    (stop : StagePullStop) :
    (s.stagePullUntil recipientId token nowMs stop).messages.filter
        (fun row => !isFor recipientId row) =
      s.messages.filter (fun row => !isFor recipientId row) ∧
    (s.stagePullUntil recipientId token nowMs stop).pullStages.filter (spared token nowMs) =
      s.pullStages.filter (spared token nowMs) := by
  have hothers := clearPending_others s recipientId
  have hswept := sweepStages_spared (s.clearPending recipientId) token nowMs
  cases stop with
  | beforeDrain => exact ⟨rfl, rfl⟩
  | afterSelect => exact ⟨rfl, rfl⟩
  | afterDelete => exact ⟨hothers, rfl⟩
  | afterSweep => exact ⟨hothers, hswept⟩
  | completed =>
    refine ⟨hothers, ?_⟩
    change ((((s.clearPending recipientId).sweepStages nowMs).upsertStage token
      (s.selectPending recipientId) nowMs).pullStages).filter _ = _
    rw [upsertStage_spared, hswept]
    rfl

/-- Outside the gap the queue is in one of the tables. -/
lemma kept_of_not_inGap {stop : StagePullStop} (hgap : ¬stop.InGap) {row : MessageRow}
    (hrow : row ∈ s.messages) (hrecipient : row.recipientId = recipientId) :
    row.envelope ∈ (s.stagePullUntil recipientId token nowMs stop).queued ∨
      row.envelope ∈ (s.stagePullUntil recipientId token nowMs stop).staged := by
  cases stop with
  | beforeDrain => exact Or.inl (mem_queued.mpr ⟨row, hrow, rfl⟩)
  | afterSelect => exact Or.inl (mem_queued.mpr ⟨row, hrow, rfl⟩)
  | afterDelete => exact absurd (Or.inl rfl) hgap
  | afterSweep => exact absurd (Or.inr rfl) hgap
  | completed =>
    have hpending : row.envelope ∈ s.selectPending recipientId :=
      mem_selectPending.mpr ⟨row, hrow, hrecipient, rfl⟩
    exact Or.inr (Table.mem_items.mpr ⟨_, List.mem_cons_self, hpending⟩)

/-- In the gap the queue is in neither table. -/
lemma lost_of_inGap (h : s.MailDistinct) {stop : StagePullStop} (hgap : stop.InGap)
    (token : String) (nowMs : UInt64) {e : StoredEnvelope}
    (hpending : e ∈ s.selectPending recipientId) :
    e ∉ (s.stagePullUntil recipientId token nowMs stop).queued ∧
      e ∉ (s.stagePullUntil recipientId token nowMs stop).staged := by
  unfold MailDistinct at h
  rw [queued_drain s recipientId, add_assoc, Multiset.nodup_add] at h
  have hnot := Multiset.disjoint_left.mp h.2.2 hpending
  rw [Multiset.mem_add, not_or] at hnot
  rcases hgap with rfl | rfl
  · exact hnot
  · refine ⟨hnot.1, ?_⟩
    intro hmem
    obtain ⟨stage, hstage, he⟩ := Table.mem_items.mp hmem
    exact hnot.2 (Table.mem_items.mpr ⟨stage, (List.mem_filter.mp hstage).1, he⟩)

/-- A stopped `stage_pull` is failure-atomic unless it had deleted mail that it had not
staged yet. -/
theorem failureAtomic_stagePullUntil_iff (h : s.MailDistinct) (recipientId token : String)
    (nowMs : UInt64) (stop : StagePullStop) :
    FailureAtomic s (s.stagePullUntil recipientId token nowMs stop) recipientId token nowMs ↔
      stop.InGap → ∀ row ∈ s.messages, row.recipientId ≠ recipientId := by
  have hframe := stagePullUntil_frame s recipientId token nowMs stop
  constructor
  · intro hatomic hgap row hrow hrecipient
    have hpending : row.envelope ∈ s.selectPending recipientId :=
      mem_selectPending.mpr ⟨row, hrow, hrecipient, rfl⟩
    have hlost := lost_of_inGap h hgap token nowMs hpending
    exact (hatomic.kept row hrow hrecipient).elim hlost.1 hlost.2
  · intro hempty
    refine ⟨?_, hframe.1, hframe.2⟩
    intro row hrow hrecipient
    by_cases hgap : stop.InGap
    · exact absurd hrecipient (hempty hgap row hrow)
    · exact kept_of_not_inGap hgap hrow hrecipient

/-- One message is queued for bob. -/
def oneQueued : RelayStore := { messages := [⟨"bob", sampleMail "m1" "bob", 1000⟩] }

theorem failureAtomic_stagePullUntil_iff_completed :
    FailureAtomic oneQueued (oneQueued.stagePullUntil "bob" "t" 2000 .completed) "bob" "t" 2000 ↔
      StagePullStop.completed.InGap → ∀ row ∈ oneQueued.messages, row.recipientId ≠ "bob" :=
  failureAtomic_stagePullUntil_iff (show (oneQueued.queued + oneQueued.staged).Nodup by decide +kernel)
    "bob" "t" 2000 .completed

theorem not_failureAtomic_afterDelete :
    ¬FailureAtomic oneQueued (oneQueued.stagePullUntil "bob" "t" 2000 .afterDelete)
      "bob" "t" 2000 := by
  intro h
  have hkept := h.kept ⟨"bob", sampleMail "m1" "bob", 1000⟩ (by decide +kernel) rfl
  exact absurd hkept (by decide +kernel)

end RelayStore

/-- In every run with fresh ids the stored mail is distinct. -/
theorem everyState_mailDistinct (ops : List StoreOp)
    (h : EveryStep StoreRun.step StoreRun.FreshId {} ops) :
    EveryState StoreRun.step (fun t => t.store.MailDistinct) {} ops := by
  have hinv : EveryState StoreRun.step StoreRun.Inv {} ops :=
    everyState_of_everyStep StoreRun.inv_step StoreRun.inv_init h
  apply hinv.mono
  intro t ht
  have hle : t.store.queued + t.store.staged ≤ t.enqueued := by
    have hsplit : t.enqueued = t.store.queued + t.store.staged +
        (t.returned + t.deleted + t.beingStaged + t.replaced + t.swept) := by
      rw [ht.accounted]
      unfold StoreRun.places
      abel
    rw [hsplit]
    exact Multiset.le_add_right _ _
  exact Multiset.nodup_of_le hle ht.enqueued_nodup

end Parda.Server
