import Parda.Mesh.SessionCap
import Parda.Mesh.SyncOutcome

/-!
# What a session reports

The number that `sync_with_peer` returns, beside the bundles that the session stored.
`admit_checked` says of a bundle that is already held what it says of one that it stored.
-/

namespace Parda.Mesh

open Protocol

/-- A received bundle passes every check that does not look at the store. -/
def arrivesValid (c : Crates) (nowMs : UInt64) (bytes : Bytes) : Bool :=
  match expiryMs c bytes with
  | .error _ => false
  | .ok expiry =>
    match bytesAsBundle c bytes with
    | .error _ => false
    | .ok bundle => nowMs < expiry && (destinationAddress bundle).isOk

def RelayStore.holdsHash (s : RelayStore) (hash : BundleHash) : Bool := (s.byHash.lookup hash).isSome

/-- The global caps leave room for the bytes. -/
def RelayStore.HasRoom (cfg : RelayConfig) (s : RelayStore) (bytes : Bytes) : Prop :=
  s.byHash.entries.length < cfg.maxTotalBundles ∧ s.totalBytes + bytes.length ≤ cfg.maxTotalBytes

def SyncPc.isAdmitting : SyncPc → Bool
  | .admitting _ _ => true
  | _ => false

/-- A session receives, in its admission loop, a valid bundle that is already held. -/
def SyncPc.receivesHeld (c : Crates) (s : RelayStore) : SyncPc → SyncEvent → Bool
  | .admitting _ _, .receive nowMs (.ok (.bundle bytes)) =>
    arrivesValid c nowMs bytes && s.holdsHash (hashBundle c bytes)
  | _, _ => false

/-- Session `i` receives such a bundle. -/
def Agent.receivesHeld (c : Crates) (i : ℕ) (a : Agent) : AgentLabel → Bool
  | .session j event => j = i && (a.sessions j).receivesHeld c a.store event
  | _ => false

/-- The number of bundles that a run inserts for session `i`. -/
def Agent.inserted (c : Crates) (cfg : RelayConfig) (i : ℕ) (a : Agent) (labels : List AgentLabel) :
    ℕ :=
  Machine.total (agentStep c cfg) (Agent.insertions c cfg i) a labels

/-- Session `i`, which returned `n`, counted what it inserted and spent its budget on nothing
else. -/
structure Agent.Reports (c : Crates) (cfg : RelayConfig) (i : ℕ) (a : Agent)
    (labels : List AgentLabel) (n : ℕ) : Prop where
  count : n = a.inserted c cfg i labels
  count_le : n ≤ cfg.maxBundlesPerSession
  budget : ∀ before nowMs bytes after,
    labels = before ++ .session i (.receive nowMs (.ok (.bundle bytes))) :: after →
      ((Machine.run (agentStep c cfg) a before).sessions i).isAdmitting = true →
      arrivesValid c nowMs bytes = true →
      (Machine.run (agentStep c cfg) a before).store.holdsHash (hashBundle c bytes) = false →
      a.inserted c cfg i before < cfg.maxBundlesPerSession →
      (Machine.run (agentStep c cfg) a before).store.HasRoom cfg bytes →
        (agentStep c cfg (Machine.run (agentStep c cfg) a before)
          (.session i (.receive nowMs (.ok (.bundle bytes))))).store.holdsHash (hashBundle c bytes) =
            true

variable {c : Crates} {cfg : RelayConfig}

section Admission

variable {s : RelayStore} {nowMs : UInt64} {bytes : Bytes}

lemma admitChecked_of_invalid (cfg : RelayConfig) (h : arrivesValid c nowMs bytes = false)
    (s : RelayStore) (budget : Option ℕ) : ∃ e, s.admitChecked c cfg nowMs bytes budget = .error e := by
  unfold arrivesValid at h
  unfold RelayStore.admitChecked
  cases hexp : expiryMs c bytes with
  | error e => exact ⟨e, rfl⟩
  | ok expiry =>
    by_cases hnow : expiry ≤ nowMs
    · simp [hnow]
    · cases hbun : bytesAsBundle c bytes with
      | error e => simp [hnow]
      | ok bundle =>
        cases haddr : destinationAddress bundle with
        | error e => simp [hnow, haddr]
        | ok address =>
          simp [hexp, hbun, haddr, Except.isOk, Except.toBool, UInt64.not_lt, hnow] at h

lemma admitChecked_of_valid (cfg : RelayConfig) (h : arrivesValid c nowMs bytes = true) :
    ∃ b : StoredBundle,
    ∀ (s : RelayStore) (budget : Option ℕ), s.admitChecked c cfg nowMs bytes budget =
      if s.holdsHash (hashBundle c bytes) then .ok s
      else if budget = some 0 then .error (.relayRefused "per-session admission cap reached")
      else if cfg.maxTotalBundles ≤ s.byHash.entries.length ∨
          cfg.maxTotalBytes < s.totalBytes + bytes.length then
        .error (.relayRefused "global storage cap reached")
      else .ok ⟨s.byHash.insert (hashBundle c bytes) b, s.totalBytes + bytes.length⟩ := by
  unfold arrivesValid at h
  unfold RelayStore.admitChecked
  cases hexp : expiryMs c bytes with
  | error e => simp [hexp] at h
  | ok expiry =>
    cases hbun : bytesAsBundle c bytes with
    | error e => simp [hexp, hbun] at h
    | ok bundle =>
      cases haddr : destinationAddress bundle with
      | error e => simp [hexp, hbun, haddr, Except.isOk, Except.toBool] at h
      | ok address =>
        simp only [hexp, hbun, Bool.and_eq_true, decide_eq_true_eq] at h
        refine ⟨⟨bytes, address, expiry⟩, fun s budget => ?_⟩
        simp only [if_neg (UInt64.not_le.mpr h.1), haddr]
        rfl

/-- What one received bundle does to the count and to the budget. -/
lemma syncAdmit_counted {n : ℕ} (s : RelayStore) (nowMs : UInt64) (bytes : Bytes) :
    (syncAdmit c cfg nowMs s n (cfg.maxBundlesPerSession - n) bytes).1.Counted cfg
      (n + ((newlyStored s
          (syncAdmit c cfg nowMs s n (cfg.maxBundlesPerSession - n) bytes).2).length +
        (arrivesValid c nowMs bytes && s.holdsHash (hashBundle c bytes)).toNat)) := by
  cases hvalid : arrivesValid c nowMs bytes with
  | false =>
    obtain ⟨e, he⟩ := admitChecked_of_invalid cfg hvalid s (some (cfg.maxBundlesPerSession - n))
    simp [syncAdmit, he, SyncPc.Counted]
  | true =>
    obtain ⟨b, hb⟩ := admitChecked_of_valid cfg hvalid
    have hchecked := hb s (some (cfg.maxBundlesPerSession - n))
    cases hheld : s.holdsHash (hashBundle c bytes) with
    | true =>
      rw [hheld, if_pos rfl] at hchecked
      simp only [syncAdmit, hchecked, newlyStored_self, SyncPc.Counted]
      exact ⟨rfl, by simp; omega⟩
    | false =>
      rw [hheld, if_neg Bool.false_ne_true] at hchecked
      have hnone : s.byHash.lookup (hashBundle c bytes) = none := by
        simpa [RelayStore.holdsHash] using hheld
      split at hchecked
      · simp [syncAdmit, hchecked, SyncPc.Counted]
      · split at hchecked
        · simp [syncAdmit, hchecked, SyncPc.Counted]
        · simp only [syncAdmit, hchecked, SyncPc.Counted, length_newlyStored_insert _ _ _ hnone]
          exact ⟨rfl, by simp; omega⟩

end Admission

/-- A step of a session raises the count by what it inserts and by the held bundles it receives. -/
lemma syncStep_counted {n : ℕ} {s : RelayStore} {pc : SyncPc} (h : pc.Counted cfg n)
    (event : SyncEvent) :
    (syncStep c cfg s pc event).1.Counted cfg
      (n + ((newlyStored s (syncStep c cfg s pc event).2.1).length +
        (pc.receivesHeld c s event).toNat)) := by
  -- a step that receives no bundle in the loop neither inserts nor counts
  have hquiet : (syncStep c cfg s pc event).1.Counted cfg n → pc.receivesHeld c s event = false →
      newlyStored s (syncStep c cfg s pc event).2.1 = [] →
        (syncStep c cfg s pc event).1.Counted cfg
          (n + ((newlyStored s (syncStep c cfg s pc event).2.1).length +
            (pc.receivesHeld c s event).toNat)) := by
    intro hcounted hheld hnone
    rw [hheld, hnone]
    exact hcounted
  have hsame : newlyStored s s = [] := newlyStored_self
  cases event with
  | broken e =>
    cases pc with
    | finished result => exact hquiet h rfl hsame
    | _ => exact hquiet trivial rfl hsame
  | advance nowMs order =>
    cases pc with
    | sweep =>
      refine hquiet h rfl (newlyStored_eq_nil ?_)
      intro k b hb
      exact (RelayStore.lookup_sweepExpired.mp hb).1
    | sendBundles toSend =>
      cases toSend with
      | nil =>
        have hn : n = 0 := h
        exact hquiet ⟨hn.symm, by rw [hn]; rfl⟩ rfl hsame
      | cons bytes rest => exact hquiet h rfl hsame
    | _ => exact hquiet h rfl hsame
  | receive nowMs message =>
    cases message with
    | error e =>
      cases pc with
      | recvHave mine => exact hquiet trivial rfl hsame
      | recvWant => exact hquiet trivial rfl hsame
      | admitting admitted sessionBudget => exact hquiet trivial rfl hsame
      | _ => exact hquiet h rfl hsame
    | ok message =>
      cases pc with
      | admitting admitted sessionBudget =>
        cases message with
        | bundle bytes =>
          obtain ⟨rfl, rfl⟩ := h
          exact syncAdmit_counted s nowMs bytes
        | done => exact hquiet h.1 rfl hsame
        | _ => exact hquiet trivial rfl hsame
      | recvHave mine =>
        cases message with
        | haveHashes theirs => exact hquiet h rfl hsame
        | _ => exact hquiet trivial rfl hsame
      | recvWant =>
        cases message with
        | want theirs => exact hquiet h rfl hsame
        | _ => exact hquiet trivial rfl hsame
      | _ => exact hquiet h rfl hsame

namespace Agent

/-- The number of held bundles that a step receives. -/
def duplicates (c : Crates) (i : ℕ) (a : Agent) (label : AgentLabel) : ℕ :=
  (a.receivesHeld c i label).toNat

variable {i : ℕ} {a : Agent} {labels : List AgentLabel}

lemma counted_step (n : ℕ) (a : Agent) (label : AgentLabel) (h : (a.sessions i).Counted cfg n) :
    ((agentStep c cfg a label).sessions i).Counted cfg
      (n + (a.insertions c cfg i label + a.duplicates c i label)) := by
  cases label with
  | session j event =>
    by_cases hj : j = i
    · subst hj
      have hstep := syncStep_counted (c := c) (s := a.store) h event
      simpa [insertions, duplicates, receivesHeld, agentStep, session] using hstep
    · have hne : i ≠ j := Ne.symm hj
      simpa [insertions, duplicates, receivesHeld, agentStep, session, hj, hne] using h
  | admitBundle nowMs bytes =>
    simp only [agentStep, insertions, duplicates, receivesHeld]
    cases a.store.admitBundle c cfg nowMs bytes <;> simpa using h
  | take order addresses => simpa [agentStep, insertions, duplicates, receivesHeld] using h
  | sweep order nowMs => simpa [agentStep, insertions, duplicates, receivesHeld] using h

/-- A session has counted what it inserted and the held bundles that it received. -/
lemma counted_run (c : Crates) (cfg : RelayConfig) (a : Agent) (i : ℕ) (labels : List AgentLabel) :
    ((Machine.run (agentStep c cfg) (a.beginSession i) labels).sessions i).Counted cfg
      ((a.beginSession i).inserted c cfg i labels +
        Machine.total (agentStep c cfg) (duplicates c i) (a.beginSession i) labels) := by
  have hstart : ((a.beginSession i).sessions i).Counted cfg 0 := by
    simp [beginSession, SyncPc.Counted]
  have hstep : ∀ (n : ℕ) (b : Agent) (label : AgentLabel), (b.sessions i).Counted cfg n →
      ((agentStep c cfg b label).sessions i).Counted cfg
        (n + (b.insertions c cfg i label + b.duplicates c i label)) := counted_step
  have hrun := Machine.count_run hstep hstart labels
  rw [Nat.zero_add, Machine.total_add] at hrun
  exact hrun

/-- A session with budget left stores a valid bundle that is not held and has room. -/
lemma stores_of_room {admitted sessionBudget : ℕ} {nowMs : UInt64} {bytes : Bytes}
    (hpc : a.sessions i = .admitting admitted sessionBudget) (hbudget : sessionBudget ≠ 0)
    (hvalid : arrivesValid c nowMs bytes = true) (hroom : a.store.HasRoom cfg bytes) :
    (agentStep c cfg a (.session i (.receive nowMs (.ok (.bundle bytes))))).store.holdsHash
      (hashBundle c bytes) = true := by
  obtain ⟨b, hb⟩ := admitChecked_of_valid cfg hvalid
  have hchecked := hb a.store (some sessionBudget)
  have hcaps : ¬(cfg.maxTotalBundles ≤ a.store.byHash.entries.length ∨
      cfg.maxTotalBytes < a.store.totalBytes + bytes.length) := by
    obtain ⟨hcount, hbytes⟩ := hroom
    omega
  have hsome : some sessionBudget ≠ some 0 := by simpa using hbudget
  rw [if_neg hsome, if_neg hcaps] at hchecked
  simp only [agentStep, session, hpc, syncStep, SyncPc.waiting, syncReceive, syncAdmit, hchecked]
  by_cases hheld : a.store.holdsHash (hashBundle c bytes) = true
  · simp [hheld]
  · rw [if_neg hheld]
    simp [RelayStore.holdsHash]

/-- What a session reports is right exactly when its admission loop received no valid bundle that
was held already. -/
theorem reports_iff {c : Crates} {cfg : RelayConfig} {a : Agent} {i : ℕ} {labels : List AgentLabel}
    {n : ℕ}
    (h : (Machine.run (agentStep c cfg) (a.beginSession i) labels).sessions i = .finished (.ok n)) :
    (a.beginSession i).Reports c cfg i labels n ↔
      Machine.EveryStep (agentStep c cfg) (fun b label => b.receivesHeld c i label = false)
        (a.beginSession i) labels := by
  have hzero : ∀ labels', Machine.total (agentStep c cfg) (duplicates c i) (a.beginSession i) labels' =
      0 ↔ Machine.EveryStep (agentStep c cfg) (fun b label => b.receivesHeld c i label = false)
        (a.beginSession i) labels' := by
    intro labels'
    simp only [Machine.total_eq_zero_iff, duplicates, Bool.toNat_eq_zero]
  have hcounted := counted_run c cfg a i labels
  rw [h] at hcounted
  have hn : n = (a.beginSession i).inserted c cfg i labels +
      Machine.total (agentStep c cfg) (duplicates c i) (a.beginSession i) labels := hcounted
  rw [← hzero]
  constructor
  · intro hreports
    have hcount := hreports.count
    omega
  · intro hnone
    rw [hnone, Nat.add_zero] at hn
    have hle := total_insertions_le c cfg i (a.beginSession i) labels
    rw [budgetLeft_beginSession] at hle
    refine ⟨hn, hn ▸ hle, ?_⟩
    intro before nowMs bytes after hlabels hadmitting hvalid _ hlt hroom
    -- up to here the budget has paid for insertions only
    have hbefore : Machine.total (agentStep c cfg) (duplicates c i) (a.beginSession i) before = 0 := by
      rw [hzero] at hnone ⊢
      rw [hlabels, Machine.everyStep_append] at hnone
      exact hnone.1
    have hcounted := counted_run c cfg a i before
    rw [hbefore, Nat.add_zero] at hcounted
    cases hpc : (Machine.run (agentStep c cfg) (a.beginSession i) before).sessions i with
    | admitting admitted sessionBudget =>
      rw [hpc] at hcounted
      have hbudget : sessionBudget ≠ 0 := by
        have hleft := hcounted.2
        omega
      exact stores_of_room hpc hbudget hvalid hroom
    | _ => simp [hpc, SyncPc.isAdmitting] at hadmitting

end Agent

section Twice

deriving instance DecidableEq for SyncPc

/-- A bundle that lives for a week. -/
def weekBundle : Bytes :=
  localCrates.bundleToCbor
    ⟨⟨deadDropUri (List.Vector.replicate 32 9), 1000, 604800000⟩, some []⟩

/-- A session in which the peer pushes these bundles. -/
def pushingSession (bundles : List Bytes) : List AgentLabel :=
  let advance := AgentLabel.session 0 (.advance 2000 .insertion)
  let receive := fun m => AgentLabel.session 0 (.receive 2000 (.ok m))
  [advance, advance, advance, receive (.haveHashes []), advance, receive (.want []), advance,
    advance] ++ bundles.map (fun bytes => receive (.bundle bytes)) ++ [receive .done]

namespace Agent

theorem reports_iff_once :
    (beginSession {} 0).Reports localCrates {} 0 (pushingSession [weekBundle]) 1 ↔
      Machine.EveryStep (agentStep localCrates {})
        (fun b label => b.receivesHeld localCrates 0 label = false) (beginSession {} 0)
        (pushingSession [weekBundle]) :=
  reports_iff (show (Machine.run (agentStep localCrates {}) (beginSession {} 0)
    (pushingSession [weekBundle])).sessions 0 = .finished (.ok 1) by decide +kernel)

theorem not_reports_twice :
    (Machine.run (agentStep localCrates {}) (beginSession {} 0)
      (pushingSession [weekBundle, weekBundle])).sessions 0 = .finished (.ok 2) ∧
    (beginSession {} 0).inserted localCrates {} 0 (pushingSession [weekBundle, weekBundle]) = 1 ∧
    ¬(beginSession {} 0).Reports localCrates {} 0 (pushingSession [weekBundle, weekBundle]) 2 := by
  have hone : (beginSession {} 0).inserted localCrates {} 0
      (pushingSession [weekBundle, weekBundle]) = 1 := by
    decide +kernel
  refine ⟨by decide +kernel, hone, ?_⟩
  intro h
  have hcount := h.count
  rw [hone] at hcount
  cases hcount

end Agent

end Twice

end Parda.Mesh
