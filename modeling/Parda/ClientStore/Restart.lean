import Parda.ClientStore.TwoState

/-!
# Chains of restarts

A sealed message that is exported, staged, taken and restored over any number of
processes. A restart ends the process with all its clones, exported states and timers;
the staged rows and the watermark stores are on disk.
-/

namespace Parda.ClientStore

open Machine Protocol

inductive RestartLabel where
  | run (label : Label)
  | restart (now : ℕ)

/-- The state that an export of the message holds. -/
def exported (message : SelfDestructingMessage) (k : Bytes32) : PersistedSelfDestructState :=
  ⟨message.ciphertext, k, message.mode, message.expiresAtMs⟩

namespace World

/-- A new process, with its monotonic clock at `now`. -/
def restart (w : World) (now : ℕ) : World where
  process := { now }
  rows := w.rows
  watermarks := w.watermarks
  reads := w.reads

def restartStep (c : SealCrates) (w : World) : RestartLabel → World
  | .run label => w.step c label
  | .restart now => w.restart now

/-- Every copy, key, exported state and staged row is of the message as it was sealed. -/
structure Original (message : SelfDestructingMessage) (k : Bytes32) (w : World) : Prop where
  handles : ∀ copy ∈ w.handles, copy.ciphertext = message.ciphertext ∧ copy.mode = message.mode ∧
    copy.expiresAtMs = message.expiresAtMs
  keys : ∀ slot key, w.process.key slot = some key → key = k
  states : ∀ state ∈ w.states, state = exported message k
  rows : ∀ row ∈ w.rows, row.state = .ok (exported message k)

/-- The timer of a copy in `slot` that is restored at `nowMs`: one that fires when what was
left of the message's life then has passed. -/
def restoredTimer (message : SelfDestructingMessage) (slot : ℕ) (p : Process) (nowMs : UInt64) :
    Option Timer :=
  message.expiresAtMs.map
    (fun deadline => ⟨slot, p.now + (deadline.toNat - nowMs.toNat) * 1000000⟩)

/-- What a restore does: it succeeds when the clock has not gone back and the deadline is
ahead, and then puts the key into a new slot and arms its timer for the rest; else it
leaves the process as it is. -/
def RestoreFaithful (message : SelfDestructingMessage) (k : Bytes32) (w : World) :
    RestartLabel → Prop
  | .run (.restore i store nowMs) => ∀ state, w.states[i]? = some state →
    let result := (SelfDestructingMessage.restore state (w.watermarks store) nowMs w.process).1
    let w' := w.restore state store nowMs
    (result.isOk = true ↔ ¬rolledBack (w.watermarks store) nowMs ∧
      ∀ deadline ∈ message.expiresAtMs, nowMs < deadline) ∧
    (∀ copy process, result = .ok (copy, process) →
      w'.process = process ∧ w'.handles = copy :: w.handles ∧
      copy = ⟨message.ciphertext, w.process.slots.length, message.mode, message.expiresAtMs⟩ ∧
      process.slots = w.process.slots ++ [some k] ∧
      process.timers =
        (restoredTimer message copy.key w.process nowMs).toList ++ w.process.timers) ∧
    ∀ e, result = .error e → w'.process = w.process ∧ w'.handles = w.handles
  | _ => True

variable {c : SealCrates} {k : Bytes32} {w : World} {message : SelfDestructingMessage}

lemma fromMillis_sub {deadline nowMs : UInt64} (h : nowMs < deadline) :
    fromMillis (deadline - nowMs) = (deadline.toNat - nowMs.toNat) * 1000000 := by
  unfold fromMillis
  rw [UInt64.toNat_sub_of_le _ _ (UInt64.le_of_lt h)]

/-- A restore of the message. -/
lemma restore_exported (message : SelfDestructingMessage) (k : Bytes32)
    (watermark : Option UInt64) (nowMs : UInt64) (p : Process) :
    (rolledBack watermark nowMs ∧ ∃ e,
      SelfDestructingMessage.restore (exported message k) watermark nowMs p =
        (.error e, watermark)) ∨
    (¬rolledBack watermark nowMs ∧ (∃ deadline ∈ message.expiresAtMs, deadline ≤ nowMs) ∧
      SelfDestructingMessage.restore (exported message k) watermark nowMs p =
        (.error .selfDestructExpired, some nowMs)) ∨
    (¬rolledBack watermark nowMs ∧ (∀ deadline ∈ message.expiresAtMs, nowMs < deadline) ∧
      ∃ process, process.slots = p.slots ++ [some k] ∧
        process.timers = (restoredTimer message p.slots.length p nowMs).toList ++ p.timers ∧
        process.now = p.now ∧
        SelfDestructingMessage.restore (exported message k) watermark nowMs p =
          (.ok (⟨message.ciphertext, p.slots.length, message.mode, message.expiresAtMs⟩, process),
            some nowMs)) := by
  by_cases hrolled : rolledBack watermark nowMs
  · left
    obtain ⟨watermarkMs, hcheck⟩ := checkClockIntegrity_of_rolledBack hrolled
    refine ⟨hrolled, .clockRollbackDetected nowMs watermarkMs, ?_⟩
    unfold SelfDestructingMessage.restore
    rw [hcheck]
  right
  have hcheck := checkClockIntegrity_of_not_rolledBack hrolled
  cases hexpires : message.expiresAtMs with
  | none =>
    right
    refine ⟨hrolled, by simp, p.alloc k, rfl, ?_, rfl, ?_⟩
    · simp [restoredTimer, hexpires, Process.alloc]
    · simp [SelfDestructingMessage.restore, hcheck, exported, hexpires]
  | some deadline =>
    by_cases hlate : deadline ≤ nowMs
    · left
      refine ⟨hrolled, ⟨deadline, rfl, hlate⟩, ?_⟩
      simp [SelfDestructingMessage.restore, hcheck, exported, hexpires, hlate]
    · right
      have hlt : nowMs < deadline := UInt64.not_le.mp hlate
      refine ⟨hrolled, by simpa using hlt,
        (p.alloc k).spawnExpiryTimer p.slots.length (fromMillis (deadline - nowMs)), rfl, ?_, rfl, ?_⟩
      · simp [restoredTimer, hexpires, Process.spawnExpiryTimer, Process.alloc, fromMillis_sub hlt]
      · simp [SelfDestructingMessage.restore, hcheck, exported, hexpires, hlate]

lemma Original.restoreFaithful (h : w.Original message k) (label : RestartLabel) :
    w.RestoreFaithful message k label := by
  cases label with
  | restart now => trivial
  | run label =>
    cases label with
    | restore i store nowMs =>
      intro state hstate
      rw [h.states state (List.mem_of_getElem? hstate)]
      rcases restore_exported message k (w.watermarks store) nowMs w.process with
        ⟨hrolled, e, hresult⟩ | ⟨hrolled, ⟨deadline, hmem, hlate⟩, hresult⟩ |
          ⟨hrolled, hahead, process, hslots, htimers, -, hresult⟩
      · simp [World.restore, hresult, withWatermark, hrolled, Except.isOk, Except.toBool]
      · refine ⟨iff_of_false (by simp [hresult, Except.isOk, Except.toBool]) ?_, ?_, ?_⟩
        · rintro ⟨-, hall⟩
          exact absurd (hall deadline hmem) (UInt64.not_lt.mpr hlate)
        · intro copy process hok
          rw [hresult] at hok
          cases hok
        · simp [World.restore, hresult, withWatermark]
      · refine ⟨iff_of_true (by rw [hresult]; rfl) ⟨hrolled, hahead⟩, ?_, ?_⟩
        · intro copy process' hok
          rw [hresult] at hok
          cases hok
          simp [World.restore, hresult, withWatermark, hslots, htimers]
        · intro e herror
          rw [hresult] at herror
          cases herror
    | _ => trivial

/-- Erasing a key brings no other one. -/
lemma key_of_erase {p : Process} {slot slot' : ℕ} {key : Bytes32}
    (h : (p.erase slot).key slot' = some key) : p.key slot' = some key := by
  by_cases hslot : slot = slot'
  · subst hslot
    rw [Process.key_erase_self] at h
    cases h
  · rwa [Process.key_erase_of_ne hslot] at h

lemma key_of_openMessage {copy : SelfDestructingMessage} {p : Process} {slot : ℕ} {key : Bytes32}
    (h : (copy.openMessage c p).2.key slot = some key) : p.key slot = some key := by
  unfold SelfDestructingMessage.openMessage at h
  split at h
  · exact h
  · split at h
    · exact h
    · split at h
      · exact h
      · dsimp only at h
        split at h
        · exact key_of_erase h
        · exact h

/-- A step that at most erases keys. -/
lemma Original.erases (h : w.Original message k) {w' : World} (hhandles : w'.handles = w.handles)
    (hstates : w'.states = w.states) (hrows : w'.rows = w.rows)
    (hkeys : ∀ slot key, w'.process.key slot = some key → w.process.key slot = some key) :
    w'.Original message k := by
  refine ⟨?_, fun slot key hkey => h.keys slot key (hkeys slot key hkey), ?_, ?_⟩
  · rw [hhandles]
    exact h.handles
  · rw [hstates]
    exact h.states
  · rw [hrows]
    exact h.rows

lemma Original.restore (h : w.Original message k) (store : ℕ) (nowMs : UInt64) :
    (w.restore (exported message k) store nowMs).Original message k := by
  rcases restore_exported message k (w.watermarks store) nowMs w.process with
    ⟨-, e, hresult⟩ | ⟨-, -, hresult⟩ | ⟨-, -, process, hslots, -, -, hresult⟩
  · rw [World.restore, hresult]
    exact h.erases rfl rfl rfl fun _ _ hkey => hkey
  · rw [World.restore, hresult]
    exact h.erases rfl rfl rfl fun _ _ hkey => hkey
  · rw [World.restore, hresult]
    refine ⟨?_, ?_, h.states, h.rows⟩
    · intro copy hcopy
      rcases List.mem_cons.mp hcopy with rfl | hold
      · exact ⟨rfl, rfl, rfl⟩
      · exact h.handles copy hold
    · intro slot key hkey
      change process.key slot = some key at hkey
      have halloc : process.slots = (w.process.alloc k).slots := hslots
      rw [Process.key_congr halloc] at hkey
      by_cases hlt : slot < w.process.slots.length
      · rw [Process.key_alloc_of_lt hlt] at hkey
        exact h.keys slot key hkey
      · have hbound := Process.lt_length_of_key hkey
        have hlast : slot = w.process.slots.length := by
          simp only [Process.alloc, List.length_append, List.length_singleton] at hbound
          omega
        rw [hlast, Process.key_alloc_self] at hkey
        exact (Option.some.inj hkey).symm

lemma Original.take (h : w.Original message k) (id : String) :
    (w.step c (.takeSelfDestructing id)).Original message k := by
  have htake : ∀ row ∈ w.rows, row.id = id → row.state.map some = .ok (some (exported message k)) := by
    intro row hrow _
    rw [h.rows row hrow]
    rfl
  simp only [step, ClientStore.takeSelfDestructing]
  cases hfind : w.rows.find? (fun row => row.id = id) with
  | none => exact h
  | some row =>
    dsimp only
    rw [htake row (List.mem_of_find?_eq_some hfind) (by simpa using List.find?_some hfind)]
    refine ⟨h.handles, h.keys, ?_, ?_⟩
    · intro state hstate
      rcases List.mem_cons.mp hstate with rfl | hold
      · rfl
      · exact h.states state hold
    · intro row' hrow'
      exact h.rows row' (Table.mem_deleteKey.mp hrow').1

lemma Original.exportForPersistence (h : w.Original message k) (handle : ℕ) :
    (w.step c (.exportForPersistence handle)).Original message k := by
  simp only [step, SelfDestructingMessage.exportForPersistence]
  cases hhandle : w.handles[handle]? with
  | none => exact h
  | some copy =>
    dsimp only
    cases hkey : w.process.key copy.key with
    | none => exact h
    | some key =>
      refine ⟨h.handles, h.keys, ?_, h.rows⟩
      intro state hstate
      rcases List.mem_cons.mp hstate with rfl | hold
      · obtain ⟨hct, hmode, hexpires⟩ := h.handles copy (List.mem_of_getElem? hhandle)
        rw [hct, hmode, hexpires, h.keys _ _ hkey]
        rfl
      · exact h.states state hold

lemma Original.stage (h : w.Original message k) (i : ℕ) (id peerAddress : String)
    (stagedAtMs : UInt64) :
    (w.step c (.stageSelfDestructing i id peerAddress stagedAtMs)).Original message k := by
  simp only [step]
  cases hstate : w.states[i]? with
  | none => exact h
  | some state =>
    dsimp only
    unfold ClientStore.stageSelfDestructing
    by_cases hused : w.rows.any (fun row => row.id = id) = true
    · rw [if_pos hused]
      exact h
    · rw [if_neg hused]
      refine ⟨h.handles, h.keys, h.states, ?_⟩
      intro row hrow
      rcases List.mem_append.mp hrow with hold | hnew
      · exact h.rows row hold
      · rw [List.mem_singleton.mp hnew, pendingRow_state,
          h.states state (List.mem_of_getElem? hstate)]

lemma original_step (label : Label) (h : w.Original message k) :
    (w.step c label).Original message k := by
  cases label with
  | clone handle =>
    simp only [step]
    cases hhandle : w.handles[handle]? with
    | none => exact h
    | some copy =>
      refine ⟨?_, h.keys, h.states, h.rows⟩
      intro other hother
      rcases List.mem_cons.mp hother with rfl | hold
      · exact h.handles _ (List.mem_of_getElem? hhandle)
      · exact h.handles other hold
  | drop handle =>
    refine ⟨?_, h.keys, h.states, h.rows⟩
    intro copy hmem
    exact h.handles copy (List.mem_of_mem_eraseIdx hmem)
  | «open» handle =>
    simp only [step]
    cases w.handles[handle]? with
    | none => exact h
    | some copy => exact h.erases rfl rfl rfl fun _ _ hkey => key_of_openMessage hkey
  | openWithClockGuard handle store nowMs =>
    simp only [step]
    cases w.handles[handle]? with
    | none => exact h
    | some copy =>
      by_cases hrolled : rolledBack (w.watermarks store) nowMs
      · dsimp only
        rw [guardStep_of_rolledBack hrolled]
        exact h.erases rfl rfl rfl fun _ _ hkey => key_of_erase hkey
      · dsimp only
        rw [guardStep_of_not_rolledBack hrolled]
        exact h.erases rfl rfl rfl fun _ _ hkey => key_of_openMessage hkey
  | expireNow handle =>
    simp only [step]
    cases w.handles[handle]? with
    | none => exact h
    | some copy => exact h.erases rfl rfl rfl fun _ _ hkey => key_of_erase hkey
  | fireTimer i =>
    by_cases hdue : ∃ timer, w.process.timers[i]? = some timer ∧ timer.deadline ≤ w.process.now
    · obtain ⟨timer, htimer, hdue⟩ := hdue
      simp only [step, fireTimer_of_due htimer hdue]
      exact h.erases rfl rfl rfl fun _ _ hkey => key_of_erase hkey
    · simp only [step, fireTimer_of_not_due fun timer htimer hle => hdue ⟨timer, htimer, hle⟩]
      exact h
  | exportForPersistence handle => exact h.exportForPersistence handle
  | stageSelfDestructing i id peerAddress stagedAtMs => exact h.stage i id peerAddress stagedAtMs
  | takeSelfDestructing id => exact h.take id
  | restore i store nowMs =>
    simp only [step]
    cases hstate : w.states[i]? with
    | none => exact h
    | some state =>
      rw [h.states state (List.mem_of_getElem? hstate)]
      exact h.restore store nowMs
  | advance duration => exact h.erases rfl rfl rfl fun _ _ hkey => hkey
  | dropRuntime => exact h.erases rfl rfl rfl fun _ _ hkey => hkey

lemma original_restartStep (w : World) (label : RestartLabel) (h : w.Original message k) :
    (w.restartStep c label).Original message k := by
  cases label with
  | run label => exact original_step label h
  | restart now =>
    refine ⟨by simp [restartStep, restart], ?_, by simp [restartStep, restart], h.rows⟩
    intro slot key hkey
    have hbound := Process.lt_length_of_key hkey
    simp [restartStep, restart] at hbound

lemma original_sealed {env : SealEnv} {mode : DestructMode} {call : SealCall} {process : Process}
    {now : ℕ} (h : Fields env mode call.window { now } message process k) :
    (sealed call message process).Original message k := by
  refine ⟨?_, ?_, by simp [sealed], by simp [sealed]⟩
  · intro copy hcopy
    rw [List.mem_singleton.mp hcopy]
    exact ⟨rfl, rfl, rfl⟩
  · intro slot key hkey
    change process.key slot = some key at hkey
    have hslots : process.slots = [some k] := h.slots_eq
    have hzero : slot = 0 := by
      have hbound := Process.lt_length_of_key hkey
      rw [hslots, List.length_singleton] at hbound
      omega
    rw [Process.key_congr h.slots_eq, hzero] at hkey
    exact (Option.some.inj ((Process.key_alloc_self k).symm.trans hkey)).symm

/-- Over every chain of restarts, restores and whatever is done between them, a restore
succeeds exactly when the clock has not gone back and the original deadline is ahead, and
then it is the original message whose timer runs for what is left of its life. A
read-triggered message has no deadline, and so never gets one. -/
theorem everyStep_restoreFaithful {c : SealCrates} {env : SealEnv} {call : SealCall} {now : ℕ}
    {message : SelfDestructingMessage} {process : Process}
    (hseal : call.run c env { now } = .ok (message, process)) (labels : List RestartLabel) :
    message.mode = call.mode ∧
    message.expiresAtMs =
      call.window.map (fun window => saturatingAdd env.wallClockMs (asMillis window)) ∧
    ∃ k, process.key message.key = some k ∧
      EveryStep (restartStep c) (RestoreFaithful message k) (sealed call message process) labels ∧
      EveryState (restartStep c) (Original message k) (sealed call message process) labels := by
  obtain ⟨k, hfields⟩ := seal_fields hseal
  have hkey : process.key message.key = some k := by
    rw [Process.key_congr hfields.slots_eq, hfields.key_eq]
    exact Process.key_alloc_self k
  have hall : EveryState (restartStep c) (Original message k) (sealed call message process) labels :=
    everyState_of_step original_restartStep (original_sealed hfields) labels
  refine ⟨hfields.mode_eq, hfields.expires_eq, k, hkey, ?_, hall⟩
  exact hall.everyStep.mono fun _ label h => h.restoreFaithful label

/-- The message is staged, survives two restarts and is restored after each, the second
time half a second before its deadline. -/
def twoRestarts : List RestartLabel :=
  [.run (.exportForPersistence 0), .run (.stageSelfDestructing 0 "a" "bob" 1000), .restart 7,
    .run (.takeSelfDestructing "a"), .run (.restore 0 0 1200), .run (.exportForPersistence 0),
    .run (.stageSelfDestructing 0 "b" "bob" 1300), .restart 0, .run (.takeSelfDestructing "b"),
    .run (.restore 0 0 1500)]

/-- Both restores succeed, and the last timer runs for half a second. -/
theorem everyStep_restoreFaithful_twoRestarts :
    (run (restartStep localSealCrates) (sampleWorld combinedCall) twoRestarts).process.timers =
        [⟨0, 500 * 1000000⟩] ∧
      ∃ k, (sampleSealed combinedCall).2.key (sampleSealed combinedCall).1.key = some k ∧
        EveryStep (restartStep localSealCrates) (RestoreFaithful (sampleSealed combinedCall).1 k)
          (sampleWorld combinedCall) twoRestarts ∧
        EveryState (restartStep localSealCrates) (Original (sampleSealed combinedCall).1 k)
          (sampleWorld combinedCall) twoRestarts := by
  have hseal : combinedCall.run localSealCrates sampleSealEnv { now := 0 } =
      .ok ((sampleSealed combinedCall).1, (sampleSealed combinedCall).2) := by decide +kernel
  obtain ⟨-, -, hchain⟩ := everyStep_restoreFaithful hseal twoRestarts
  exact ⟨by decide +kernel, hchain⟩

end World

end Parda.ClientStore
