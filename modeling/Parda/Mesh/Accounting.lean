import Parda.Mesh.Sync

/-!
# Storage accounting of the relay agent

The counter and the map of a relay store agree in every state that any sequence of
admissions, session steps, takes and sweeps reaches, the caps hold, and an admission
leaves every stored bundle in place.
-/

namespace Parda.Mesh

open Protocol

namespace RelayStore

/-- The store's representation invariant. -/
structure Accounted (c : Crates) (cfg : RelayConfig) (s : RelayStore) : Prop where
  total : s.totalBytes = Weight.total (fun b => b.bytes.length) s.byHash
  count_le : s.storedCount ≤ cfg.maxTotalBundles
  bytes_le : s.totalBytes ≤ cfg.maxTotalBytes
  keyed : ∀ h b, s.byHash.lookup h = some b → h = hashBundle c b.bytes
  decoded : ∀ h b, s.byHash.lookup h = some b → Decoded c b

/-- No subtraction of the removal loop over `hashes` goes below zero. -/
def SubtractionsSafe (s : RelayStore) (hashes : List BundleHash) : Prop :=
  Machine.EveryStep removeStep
    (fun acc h => ∀ b, acc.1.byHash.lookup h = some b → b.bytes.length ≤ acc.1.totalBytes)
    (s, []) hashes

/-- Every stored bundle of `s` is stored unchanged in `s'`. -/
def Keeps (s s' : RelayStore) : Prop :=
  ∀ h b, s.byHash.lookup h = some b → s'.byHash.lookup h = some b

variable {c : Crates} {cfg : RelayConfig} {s s' : RelayStore}

lemma accounted_empty : Accounted c cfg {} where
  total := rfl
  count_le := Nat.zero_le _
  bytes_le := Nat.zero_le _
  keyed h b hb := by simp at hb
  decoded h b hb := by simp at hb

lemma Accounted.subtraction (hs : Accounted c cfg s) {h : BundleHash} {b : StoredBundle}
    (hb : s.byHash.lookup h = some b) : b.bytes.length ≤ s.totalBytes := by
  rw [hs.total]
  exact Weight.le_total (w := fun b => b.bytes.length) hb

lemma Accounted.removeStep {acc : RelayStore × List Bytes} (hs : Accounted c cfg acc.1)
    (h : BundleHash) : Accounted c cfg (removeStep acc h).1 := by
  unfold RelayStore.removeStep
  cases hb : acc.1.byHash.lookup h with
  | none => exact hs
  | some b =>
    have hbytes := Weight.total_erase (w := fun b => b.bytes.length) hb
    have hcount := Weight.total_erase (w := fun _ => 1) hb
    rw [Weight.total_one, Weight.total_one] at hcount
    have hcap : acc.1.byHash.entries.length ≤ cfg.maxTotalBundles := hs.count_le
    have htotal := hs.total
    have hle := hs.bytes_le
    have hkept : ∀ k d, (acc.1.byHash.erase h).lookup k = some d →
        acc.1.byHash.lookup k = some d := by
      intro k d hk
      have hne : k ≠ h := by
        rintro rfl
        rw [AList.lookup_erase] at hk
        cases hk
      rwa [AList.lookup_erase_ne hne] at hk
    refine ⟨?_, ?_, ?_, fun k d hk => hs.keyed k d (hkept k d hk),
      fun k d hk => hs.decoded k d (hkept k d hk)⟩
    · change acc.1.totalBytes - b.bytes.length =
        Weight.total (fun b => b.bytes.length) (acc.1.byHash.erase h)
      omega
    · change (acc.1.byHash.erase h).entries.length ≤ _
      omega
    · change acc.1.totalBytes - b.bytes.length ≤ _
      omega

/-- Every state of a removal loop is accounted. -/
lemma Accounted.removalStates (hs : Accounted c cfg s) (hashes : List BundleHash) :
    Machine.EveryState RelayStore.removeStep (fun acc => Accounted c cfg acc.1) (s, []) hashes := by
  have hstep : ∀ (acc : RelayStore × List Bytes) (h : BundleHash), Accounted c cfg acc.1 →
      Accounted c cfg (RelayStore.removeStep acc h).1 :=
    fun _ h hacc => hacc.removeStep h
  exact Machine.everyState_of_step hstep hs hashes

lemma Accounted.removeAll (hs : Accounted c cfg s) (hashes : List BundleHash) :
    Accounted c cfg (s.removeAll hashes).1 :=
  (hs.removalStates hashes).last

/-- Removal never subtracts more than the counter holds. -/
lemma Accounted.subtractionsSafe (hs : Accounted c cfg s) (hashes : List BundleHash) :
    SubtractionsSafe s hashes :=
  (hs.removalStates hashes).everyStep.mono fun _ _ hacc _ hb => hacc.subtraction hb

lemma Accounted.admitChecked (hs : Accounted c cfg s) {nowMs : UInt64} {bytes : Bytes}
    {budget : Option ℕ} (h : s.admitChecked c cfg nowMs bytes budget = .ok s') :
    Accounted c cfg s' := by
  have hkeyed : ∀ hash b, s'.byHash.lookup hash = some b → hash = hashBundle c b.bytes := by
    intro hash b hb
    rcases lookup_of_admitChecked h hb with hold | ⟨rfl, rfl, -⟩
    · exact hs.keyed hash b hold
    · rfl
  have hdecoded : ∀ hash b, s'.byHash.lookup hash = some b → Decoded c b := by
    intro hash b hb
    rcases lookup_of_admitChecked h hb with hold | ⟨-, -, hdec⟩
    · exact hs.decoded hash b hold
    · exact hdec
  obtain ⟨address, expiry, -, -, ⟨rfl, -⟩ | ⟨hnone, -, hcount, hbytes, rfl⟩⟩ :=
    admitChecked_cases h
  · exact hs
  · have hnew : hashBundle c bytes ∉ s.byHash := AList.lookup_eq_none.mp hnone
    refine ⟨?_, ?_, hbytes, hkeyed, hdecoded⟩
    · rw [Weight.total_insert hnew, ← hs.total]
    · change (s.byHash.insert _ _).entries.length ≤ _
      rw [AList.entries_insert_of_notMem hnew, List.length_cons]
      omega

end RelayStore

open RelayStore

variable {c : Crates} {cfg : RelayConfig}

lemma syncStep_accounted {s : RelayStore} (hs : Accounted c cfg s) (pc : SyncPc)
    (event : SyncEvent) : Accounted c cfg (syncStep c cfg s pc event).2.1 := by
  rcases syncStep_store c cfg s pc event with
    h | ⟨-, nowMs, order, -, h⟩ | ⟨_, _, nowMs, bytes, s', -, -, had, h⟩
  · rw [h]
    exact hs
  · rw [h]
    exact hs.removeAll _
  · rw [h]
    exact hs.admitChecked had

/-- The step attempts an admission: a direct one, or a bundle received by a session in
its admission loop. -/
def Agent.attemptsAdmission (a : Agent) : AgentLabel → Bool
  | .admitBundle _ _ => true
  | .session i (.receive _ (.ok (.bundle _))) =>
    match a.sessions i with
    | .admitting _ _ => true
    | _ => false
  | _ => false

/-- What one step can do to the store: nothing, one removal loop that is no admission, or
one accepted admission. -/
lemma agentStep_store (c : Crates) (cfg : RelayConfig) (a : Agent) (label : AgentLabel) :
    (agentStep c cfg a label).store = a.store ∨
    (a.attemptsAdmission label = false ∧ ∃ hashes,
      (agentStep c cfg a label).store = (a.store.removeAll hashes).1) ∨
    (∃ nowMs bytes budget,
      a.store.admitChecked c cfg nowMs bytes budget = .ok (agentStep c cfg a label).store) := by
  cases label with
  | admitBundle nowMs bytes =>
    cases had : a.store.admitChecked c cfg nowMs bytes none with
    | error e =>
      left
      simp only [agentStep, RelayStore.admitBundle, had]
    | ok s =>
      right
      right
      refine ⟨nowMs, bytes, none, ?_⟩
      simp only [agentStep, RelayStore.admitBundle, had]
  | session i event =>
    change (syncStep c cfg a.store (a.sessions i) event).2.1 = _ ∨ _ ∨ _
    rcases syncStep_store c cfg a.store (a.sessions i) event with
      h | ⟨-, nowMs, order, rfl, h⟩ | ⟨_, budget, nowMs, bytes, s', -, -, had, h⟩
    · exact Or.inl h
    · exact Or.inr (Or.inl ⟨rfl, _, h⟩)
    · right
      right
      refine ⟨nowMs, bytes, some budget, ?_⟩
      rw [had]
      exact congrArg _ h.symm
  | take order addresses => exact Or.inr (Or.inl ⟨rfl, _, rfl⟩)
  | sweep order nowMs => exact Or.inr (Or.inl ⟨rfl, _, rfl⟩)

lemma agentStep_accounted (a : Agent) (label : AgentLabel) (ha : Accounted c cfg a.store) :
    Accounted c cfg (agentStep c cfg a label).store := by
  rcases agentStep_store c cfg a label with
    h | ⟨-, hashes, h⟩ | ⟨nowMs, bytes, budget, had⟩
  · rw [h]
    exact ha
  · rw [h]
    exact ha.removeAll hashes
  · exact ha.admitChecked had

lemma agentStep_keeps (a : Agent) (label : AgentLabel) (h : a.attemptsAdmission label = true) :
    Keeps a.store (agentStep c cfg a label).store := by
  rcases agentStep_store c cfg a label with
    hs | ⟨hno, -, -⟩ | ⟨nowMs, bytes, budget, had⟩
  · rw [hs]
    exact fun _ _ hb => hb
  · rw [hno] at h
    cases h
  · exact fun _ _ hb => admitChecked_keeps had hb

/-- The time of the sweep a step performs: the sweeper's, or a session's first section. -/
def Agent.sweepsAt (a : Agent) : AgentLabel → Option UInt64
  | .sweep _ nowMs => some nowMs
  | .session i (.advance nowMs _) =>
    match a.sessions i with
    | .sweep => some nowMs
    | _ => none
  | _ => none

/-- A step that sweeps does nothing else to the store. -/
lemma agentStep_of_sweepsAt (c : Crates) (cfg : RelayConfig) {a : Agent} {label : AgentLabel} {nowMs : UInt64}
    (h : a.sweepsAt label = some nowMs) :
    ∃ order, (agentStep c cfg a label).store = a.store.sweepExpired order nowMs := by
  cases label with
  | sweep order now =>
    cases h
    exact ⟨order, rfl⟩
  | session i event =>
    cases event with
    | advance now order =>
      cases hpc : a.sessions i with
      | sweep =>
        simp only [Agent.sweepsAt, hpc, Option.some.injEq] at h
        refine ⟨order, ?_⟩
        simp only [agentStep, Agent.session, syncStep, hpc, h]
      | _ => simp [Agent.sweepsAt, hpc] at h
    | _ => cases h
  | _ => cases h

/-- Only a take or a sweep past its expiry removes a stored bundle. -/
lemma agentStep_lookup (a : Agent) (label : AgentLabel) {h : BundleHash} {b : StoredBundle}
    (hb : a.store.byHash.lookup h = some b) (htake : ∀ order l, label ≠ .take order l)
    (hsweep : ∀ nowMs, a.sweepsAt label = some nowMs → nowMs < b.expiryMs) :
    (agentStep c cfg a label).store.byHash.lookup h = some b := by
  cases label with
  | admitBundle nowMs bytes => exact agentStep_keeps a _ rfl h b hb
  | take order addresses => exact absurd rfl (htake order addresses)
  | sweep order nowMs => exact lookup_sweepExpired.mpr ⟨hb, hsweep nowMs rfl⟩
  | session i event =>
    change (syncStep c cfg a.store (a.sessions i) event).2.1.byHash.lookup h = some b
    rcases syncStep_store c cfg a.store (a.sessions i) event with
      hs | ⟨hpc, nowMs, order, rfl, hs⟩ | ⟨_, _, nowMs, bytes, s', -, -, had, hs⟩
    · rw [hs]
      exact hb
    · rw [hs]
      refine lookup_sweepExpired.mpr ⟨hb, hsweep nowMs ?_⟩
      simp only [Agent.sweepsAt, hpc]
    · rw [hs]
      exact admitChecked_keeps had hb

/-- Every state any interleaving reaches is accounted, no removal from it underflows the
counter, and no admission attempt in the run touches a stored bundle. -/
theorem agent_accounting (c : Crates) (cfg : RelayConfig) (labels : List AgentLabel) :
    Machine.EveryState (agentStep c cfg)
      (fun a => Accounted c cfg a.store ∧ ∀ hashes, SubtractionsSafe a.store hashes) {} labels ∧
    Machine.EveryStep (agentStep c cfg)
      (fun a label => a.attemptsAdmission label = true →
        Keeps a.store (agentStep c cfg a label).store) {} labels := by
  have hall : Machine.EveryState (agentStep c cfg) (fun a => Accounted c cfg a.store) {} labels :=
    Machine.everyState_of_step agentStep_accounted accounted_empty labels
  constructor
  · exact hall.mono fun a ha => ⟨ha, ha.subtractionsSafe⟩
  · exact hall.everyStep.mono fun a label _ h => agentStep_keeps a label h

end Parda.Mesh
