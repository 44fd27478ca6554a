import Parda.Mesh.Sync

/-!
# The admission cap of one session

Every bundle that a session inserts is paid for out of its budget, so the number of its
insertions is bounded whatever the peer sends and whatever runs beside it on the relay.
-/

namespace Parda.Mesh

open Protocol

/-- The hashes stored in `s'` and not in `s`. -/
def newlyStored (s s' : RelayStore) : List BundleHash :=
  s'.byHash.keys.filter (fun h => (s.byHash.lookup h).isNone)

/-- What is left of the session's budget: all of it until the admission loop begins. -/
def SyncPc.budgetLeft (cfg : RelayConfig) : SyncPc → ℕ
  | .admitting _ sessionBudget => sessionBudget
  | .finished _ => 0
  | _ => cfg.maxBundlesPerSession

/-- The number of bundles that a step inserts for session `i`. -/
def Agent.insertions (c : Crates) (cfg : RelayConfig) (i : ℕ) (a : Agent) : AgentLabel → ℕ
  | .session j event =>
    if j = i then (newlyStored a.store (a.session c cfg j event).store).length else 0
  | _ => 0

/-- A call of `sync_with_peer` begins as session `i`. -/
def Agent.beginSession (a : Agent) (i : ℕ) : Agent :=
  { a with sessions := Function.update a.sessions i .sweep }

section Insertions

variable {s s' : RelayStore}

lemma newlyStored_eq_nil
    (h : ∀ k b, s'.byHash.lookup k = some b → s.byHash.lookup k = some b) :
    newlyStored s s' = [] := by
  unfold newlyStored
  rw [List.filter_eq_nil_iff]
  intro k hk
  obtain ⟨b, hb⟩ := Option.isSome_iff_exists.mp (AList.lookup_isSome.mpr (AList.mem_keys.mpr hk))
  simp [h k b hb]

@[simp] lemma newlyStored_self : newlyStored s s = [] :=
  newlyStored_eq_nil (fun _ _ hb => hb)

lemma length_newlyStored_insert (k : BundleHash) (b : StoredBundle) (total : ℕ)
    (h : s.byHash.lookup k = none) :
    (newlyStored s ⟨s.byHash.insert k b, total⟩).length = 1 := by
  have hnew : k ∉ s.byHash.keys := fun hk => AList.lookup_eq_none.mp h (AList.mem_keys.mpr hk)
  have hkeys : (s.byHash.insert k b).keys = k :: s.byHash.keys := by
    rw [AList.keys_insert, List.erase_of_not_mem hnew]
  have hold : s.byHash.keys.filter (fun h => (s.byHash.lookup h).isNone) = [] :=
    newlyStored_self (s := s)
  unfold newlyStored
  rw [hkeys, List.filter_cons_of_pos (by simp [h]), hold]
  rfl

end Insertions

variable {c : Crates} {cfg : RelayConfig}

/-- A received bundle is inserted at most once, and then the budget pays for it. -/
lemma syncAdmit_budget (s : RelayStore) (nowMs : UInt64) (admitted sessionBudget : ℕ)
    (bytes : Bytes) :
    (newlyStored s (syncAdmit c cfg nowMs s admitted sessionBudget bytes).2).length +
      (syncAdmit c cfg nowMs s admitted sessionBudget bytes).1.budgetLeft cfg ≤ sessionBudget := by
  unfold syncAdmit
  cases had : s.admitChecked c cfg nowMs bytes (some sessionBudget) with
  | error e => simp [SyncPc.budgetLeft]
  | ok s' =>
    obtain ⟨address, expiry, -, -, ⟨rfl, -⟩ | ⟨hnone, hbudget, -, -, rfl⟩⟩ :=
      RelayStore.admitChecked_cases had
    · simp [SyncPc.budgetLeft]
    · have hpos : sessionBudget ≠ 0 := fun h => hbudget (congrArg some h)
      simp only [SyncPc.budgetLeft, length_newlyStored_insert _ _ _ hnone]
      omega

/-- A step of a session pays for what it inserts. -/
lemma syncStep_budget (c : Crates) (cfg : RelayConfig) (s : RelayStore) (pc : SyncPc) (event : SyncEvent) :
    (newlyStored s (syncStep c cfg s pc event).2.1).length +
      (syncStep c cfg s pc event).1.budgetLeft cfg ≤ pc.budgetLeft cfg := by
  cases event with
  | broken e =>
    cases pc with
    | _ => simp [syncStep, SyncPc.budgetLeft]
  | advance nowMs order =>
    cases pc with
    | sweep =>
      have hnone : newlyStored s (s.sweepExpired order nowMs) = [] := by
        apply newlyStored_eq_nil
        intro k b hb
        exact (RelayStore.lookup_sweepExpired.mp hb).1
      simp [syncStep, SyncPc.budgetLeft, hnone]
    | sendBundles toSend =>
      cases toSend with
      | _ => simp [syncStep, SyncPc.budgetLeft]
    | _ => simp [syncStep, SyncPc.budgetLeft]
  | receive nowMs message =>
    cases message with
    | error e =>
      cases pc with
      | _ => simp [syncStep, SyncPc.waiting, SyncPc.budgetLeft]
    | ok message =>
      cases pc with
      | admitting admitted sessionBudget =>
        cases message with
        | bundle bytes => exact syncAdmit_budget s nowMs admitted sessionBudget bytes
        | _ => simp [syncStep, syncReceive, SyncPc.waiting, SyncPc.budgetLeft]
      | recvHave mine =>
        cases message with
        | _ => simp [syncStep, syncReceive, SyncPc.waiting, SyncPc.budgetLeft]
      | recvWant =>
        cases message with
        | _ => simp [syncStep, syncReceive, SyncPc.waiting, SyncPc.budgetLeft]
      | _ => simp [syncStep, SyncPc.waiting, SyncPc.budgetLeft]

lemma agentStep_budget (i : ℕ) (a : Agent) (label : AgentLabel) :
    a.insertions c cfg i label + ((agentStep c cfg a label).sessions i).budgetLeft cfg ≤
      (a.sessions i).budgetLeft cfg := by
  cases label with
  | session j event =>
    by_cases hj : j = i
    · subst hj
      have hstep := syncStep_budget c cfg a.store (a.sessions j) event
      simpa [Agent.insertions, agentStep, Agent.session] using hstep
    · have hne : i ≠ j := Ne.symm hj
      simp [Agent.insertions, agentStep, Agent.session, hj, hne]
  | admitBundle nowMs bytes =>
    simp only [agentStep, Agent.insertions]
    cases a.store.admitBundle c cfg nowMs bytes <;> simp
  | take order addresses => simp [agentStep, Agent.insertions]
  | sweep order nowMs => simp [agentStep, Agent.insertions]

/-- From any state on, a session inserts at most what is left of its budget. -/
lemma total_insertions_le (c : Crates) (cfg : RelayConfig) (i : ℕ) (a : Agent)
    (labels : List AgentLabel) :
    Machine.total (agentStep c cfg) (Agent.insertions c cfg i) a labels ≤
      (a.sessions i).budgetLeft cfg := by
  have hcost : ∀ (b : Agent) (label : AgentLabel), True →
      b.insertions c cfg i label + ((agentStep c cfg b label).sessions i).budgetLeft cfg ≤
        (b.sessions i).budgetLeft cfg := fun b label _ => agentStep_budget i b label
  exact Machine.total_le (fun b : Agent => (b.sessions i).budgetLeft cfg) (fun _ _ _ => trivial)
    hcost trivial labels

@[simp] lemma budgetLeft_beginSession (a : Agent) (i : ℕ) :
    ((a.beginSession i).sessions i).budgetLeft cfg = cfg.maxBundlesPerSession := by
  simp [Agent.beginSession, SyncPc.budgetLeft]

/-- However a session's peer and everything else on the relay behave, the session inserts
at most its cap, bundles inserted again after a take or a sweep included. -/
theorem session_insertions_le (c : Crates) (cfg : RelayConfig) (a : Agent) (i : ℕ)
    (labels : List AgentLabel) :
    Machine.total (agentStep c cfg) (Agent.insertions c cfg i) (a.beginSession i) labels ≤
      cfg.maxBundlesPerSession := by
  have hle := total_insertions_le c cfg i (a.beginSession i) labels
  rwa [budgetLeft_beginSession] at hle

end Parda.Mesh
