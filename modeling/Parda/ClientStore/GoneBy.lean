import Parda.ClientStore.Deadline
import Parda.ClientStore.Restart

/-!
# Gone by the declared time

A sealed message under a wall clock that advances together with the monotonic clock of the
process, over any operations and restarts. Wall time is in nanoseconds since the epoch; what is
read of it is whole milliseconds.
-/

namespace Parda.ClientStore

open Machine Protocol

namespace SealCall

def timestampMs : SealCall → UInt64
  | .seal _ timestampMs _ | .sealReadTriggered _ timestampMs | .sealCombined _ timestampMs _ =>
    timestampMs

end SealCall

structure Clocked where
  world : World
  wall : ℕ

/-- An operation, or a restart with the time that the new process's clock shows and the time that
none was running. -/
inductive ClockedLabel where
  | run (label : Label)
  | restart (now downtime : ℕ)

namespace Clocked

def elapsed : Label → ℕ
  | .advance duration => duration
  | _ => 0

variable (c : SealCrates)

def step (s : Clocked) : ClockedLabel → Clocked
  | .run label => ⟨s.world.step c label, s.wall + elapsed label⟩
  | .restart now downtime => ⟨s.world.restart now, s.wall + downtime⟩

/-- The clock shows `nowMs`. -/
def Shows (s : Clocked) (nowMs : UInt64) : Prop := nowMs.toNat = s.wall / 1000000

/-- What is done with a true reading of the clock and a runtime that runs. -/
def Honest (s : Clocked) : ClockedLabel → Prop
  | .run (.openWithClockGuard _ _ nowMs) | .run (.restore _ _ nowMs) => s.Shows nowMs
  | .run .dropRuntime => False
  | _ => True

/-- Nothing is done before a timer that is due. -/
def Punctual (s : Clocked) : ClockedLabel → Prop
  | .run (.fireTimer _) => True
  | _ => ∀ timer ∈ s.world.process.timers, s.world.process.now < timer.deadline

def Timely (s : Clocked) (label : ClockedLabel) : Prop := s.Honest label ∧ s.Punctual label

/-- From the bound on no open and no restore succeeds. -/
def GoneBy (bound : ℕ) (s : Clocked) : ClockedLabel → Prop
  | .run (.open handle) => bound ≤ s.wall → ∀ message, s.world.handles[handle]? = some message →
    ∀ plaintext, (message.openMessage c s.world.process).1 ≠ .ok plaintext
  | .run (.openWithClockGuard handle store nowMs) => bound ≤ s.wall →
    ∀ message, s.world.handles[handle]? = some message → ∀ plaintext,
      (message.openWithClockGuard c s.world.process (s.world.watermarks store) nowMs).1 ≠
        .ok plaintext
  | .run (.restore state store nowMs) => bound ≤ s.wall →
    ∀ persisted, s.world.states[state]? = some persisted → ∀ restored,
      (SelfDestructingMessage.restore persisted (s.world.watermarks store) nowMs
        s.world.process).1 ≠ .ok restored
  | _ => True

/-- The seal is at the declared time, and no restore arms its timer past the bound. What is left
of a message's life is taken from a clock that shows whole milliseconds, so that the timer may run
for up to 999,999 ns after the deadline that the seal recorded. -/
def SealedInTime (timestampMs : UInt64) (window wall : ℕ) : Prop :=
  wall = fromMillis timestampMs ∧
    (saturatingAdd timestampMs (asMillis window) ≤ timestampMs ∨
      fromMillis (saturatingAdd timestampMs (asMillis window)) + 999999 ≤
        fromMillis timestampMs + window)

/-- Every live key has a timer that is due by `limit` in wall time. -/
structure Within (message : SelfDestructingMessage) (k : Bytes32) (start limit : ℕ) (s : Clocked) :
    Prop where
  original : s.world.Original message k
  started : start ≤ s.wall
  timers : ∀ slot key, s.world.process.key slot = some key → ∃ timer ∈ s.world.process.timers,
    timer.key = slot ∧ timer.deadline + s.wall ≤ limit + s.world.process.now

/-- What restores from the start on arm is due by `limit`, and none succeeds later. -/
structure Limits (deadline : UInt64) (start limit : ℕ) : Prop where
  restored : ∀ wall, start ≤ wall → wall / 1000000 < deadline.toNat →
    fromMillis deadline + wall % 1000000 ≤ limit
  refused : fromMillis deadline ≤ limit

variable {c} {s : Clocked} {message : SelfDestructingMessage} {k : Bytes32} {deadline : UInt64}
  {start limit : ℕ}

/-- A step that brings no key and leaves the timers. -/
lemma Within.of_process (h : s.Within message k start limit) {w : World}
    (horiginal : w.Original message k)
    (hkeys : ∀ slot key, w.process.key slot = some key → s.world.process.key slot = some key)
    (htimers : w.process.timers = s.world.process.timers)
    (hnow : w.process.now = s.world.process.now) : Within message k start limit ⟨w, s.wall⟩ := by
  refine ⟨horiginal, h.started, ?_⟩
  intro slot key hkey
  change ∃ timer ∈ w.process.timers, timer.key = slot ∧
    timer.deadline + s.wall ≤ limit + w.process.now
  rw [htimers, hnow]
  exact h.timers slot key (hkeys slot key hkey)

lemma Within.of_same (h : s.Within message k start limit) {w : World}
    (horiginal : w.Original message k) (hsame : w.process = s.world.process) :
    Within message k start limit ⟨w, s.wall⟩ := by
  refine h.of_process horiginal ?_ (by rw [hsame]) (by rw [hsame])
  rw [hsame]
  exact fun _ _ hkey => hkey

lemma openMessage_timers (copy : SelfDestructingMessage) (p : Process) :
    (copy.openMessage c p).2.timers = p.timers ∧ (copy.openMessage c p).2.now = p.now := by
  unfold SelfDestructingMessage.openMessage
  split
  · exact ⟨rfl, rfl⟩
  · split
    · exact ⟨rfl, rfl⟩
    · split
      · exact ⟨rfl, rfl⟩
      · dsimp only
        split <;> exact ⟨rfl, rfl⟩

/-- The timer that fires takes its own key along. -/
lemma Within.fireTimer (h : s.Within message k start limit) (i : ℕ) :
    Within message k start limit ⟨s.world.step c (.fireTimer i), s.wall⟩ := by
  have horiginal : (s.world.step c (.fireTimer i)).Original message k :=
    World.original_step (.fireTimer i) h.original
  refine ⟨horiginal, h.started, ?_⟩
  intro slot key hkey
  change (s.world.fireTimer i).process.key slot = some key at hkey
  change ∃ timer ∈ (s.world.fireTimer i).process.timers, timer.key = slot ∧
    timer.deadline + s.wall ≤ limit + (s.world.fireTimer i).process.now
  by_cases hdue : ∃ timer, s.world.process.timers[i]? = some timer ∧
      timer.deadline ≤ s.world.process.now
  · obtain ⟨fired, htimer, hdue⟩ := hdue
    rw [World.fireTimer_of_due htimer hdue] at hkey ⊢
    change (s.world.process.erase fired.key).key slot = some key at hkey
    obtain ⟨timer, hmem, hslot, hbound⟩ := h.timers slot key (World.key_of_erase hkey)
    refine ⟨timer, ?_, hslot, hbound⟩
    have hother : timer ≠ fired := by
      rintro rfl
      rw [hslot, Process.key_erase_self] at hkey
      cases hkey
    obtain ⟨hi, rfl⟩ := List.getElem?_eq_some_iff.mp htimer
    rw [← (List.getElem_cons_eraseIdx_perm hi).mem_iff] at hmem
    exact (List.mem_cons.mp hmem).resolve_left hother
  · rw [World.fireTimer_of_not_due fun timer htimer hle => hdue ⟨timer, htimer, hle⟩] at hkey ⊢
    exact h.timers slot key hkey

/-- A copy that is restored gets a timer of its own. -/
lemma Within.restore (h : s.Within message k start limit)
    (hexpires : message.expiresAtMs = some deadline) (hlimits : Limits deadline start limit)
    (store : ℕ) {nowMs : UInt64} (hnowMs : s.Shows nowMs) :
    Within message k start limit ⟨s.world.restore (exported message k) store nowMs, s.wall⟩ := by
  have horiginal := h.original.restore store nowMs
  rcases World.restore_exported message k (s.world.watermarks store) nowMs s.world.process with
    ⟨-, e, hresult⟩ | ⟨-, -, hresult⟩ | ⟨-, hahead, process, hslots, htimers, hnow, hresult⟩
  · rw [World.restore, hresult] at horiginal ⊢
    exact h.of_process horiginal (fun _ _ hkey => hkey) rfl rfl
  · rw [World.restore, hresult] at horiginal ⊢
    exact h.of_process horiginal (fun _ _ hkey => hkey) rfl rfl
  · have hlt : nowMs < deadline := hahead deadline hexpires
    have hdue : fromMillis deadline + s.wall % 1000000 ≤ limit :=
      hlimits.restored s.wall h.started (hnowMs ▸ UInt64.lt_iff_toNat_lt.mp hlt)
    rw [World.restore, hresult] at horiginal ⊢
    refine ⟨horiginal, h.started, ?_⟩
    intro slot key hkey
    change process.key slot = some key at hkey
    change ∃ timer ∈ process.timers, timer.key = slot ∧
      timer.deadline + s.wall ≤ limit + process.now
    have halloc : process.slots = (s.world.process.alloc k).slots := hslots
    rw [Process.key_congr halloc] at hkey
    rw [htimers, hnow]
    by_cases hold : slot < s.world.process.slots.length
    · rw [Process.key_alloc_of_lt hold] at hkey
      obtain ⟨timer, hmem, hslot, hbound⟩ := h.timers slot key hkey
      exact ⟨timer, List.mem_append_right _ hmem, hslot, hbound⟩
    · have hlast : slot = s.world.process.slots.length := by
        have hbound := Process.lt_length_of_key hkey
        simp only [Process.alloc, List.length_append, List.length_singleton] at hbound
        omega
      refine ⟨⟨s.world.process.slots.length, s.world.process.now +
        (deadline.toNat - nowMs.toNat) * 1000000⟩, ?_, hlast.symm, ?_⟩
      · apply List.mem_append_left
        rw [World.restoredTimer, hexpires]
        exact List.mem_singleton_self _
      · unfold Shows at hnowMs
        unfold fromMillis at hdue
        have hahead : nowMs.toNat < deadline.toNat := UInt64.lt_iff_toNat_lt.mp hlt
        dsimp only
        omega

/-- Every timely step keeps each live key within the limit. -/
lemma Within.step (h : s.Within message k start limit)
    (hexpires : message.expiresAtMs = some deadline) (hlimits : Limits deadline start limit)
    {label : ClockedLabel} (hlabel : s.Honest label) :
    Within message k start limit (s.step c label) := by
  have horiginal : ∀ label, (s.world.step c label).Original message k :=
    fun label => World.original_step label h.original
  cases label with
  | restart now downtime =>
    refine ⟨World.original_restartStep (c := c) s.world (.restart now) h.original,
      Nat.le_add_right_of_le h.started, ?_⟩
    intro slot key hkey
    have hbound := Process.lt_length_of_key hkey
    simp [Clocked.step, World.restart] at hbound
  | run label =>
    cases label with
    | clone handle =>
      apply h.of_same (horiginal _)
      simp only [World.step]
      split <;> rfl
    | drop handle => exact h.of_same (horiginal _) rfl
    | «open» handle =>
      have hopen := horiginal (.open handle)
      simp only [World.step] at hopen
      simp only [Clocked.step, World.step]
      cases hhandle : s.world.handles[handle]? with
      | none => exact h
      | some copy =>
        rw [hhandle] at hopen
        obtain ⟨htimers, hnow⟩ := openMessage_timers (c := c) copy s.world.process
        exact h.of_process hopen (fun _ _ hkey => World.key_of_openMessage hkey) htimers hnow
    | openWithClockGuard handle store nowMs =>
      have hopen := horiginal (.openWithClockGuard handle store nowMs)
      simp only [World.step] at hopen
      simp only [Clocked.step, World.step]
      cases hhandle : s.world.handles[handle]? with
      | none => exact h
      | some copy =>
        rw [hhandle] at hopen
        dsimp only at hopen ⊢
        by_cases hrolled : World.rolledBack (s.world.watermarks store) nowMs
        · rw [World.guardStep_of_rolledBack hrolled] at hopen ⊢
          exact h.of_process hopen (fun _ _ hkey => World.key_of_erase hkey) rfl rfl
        · rw [World.guardStep_of_not_rolledBack hrolled] at hopen ⊢
          obtain ⟨htimers, hnow⟩ := openMessage_timers (c := c) copy s.world.process
          exact h.of_process hopen (fun _ _ hkey => World.key_of_openMessage hkey) htimers hnow
    | expireNow handle =>
      have hexpire := horiginal (.expireNow handle)
      simp only [World.step] at hexpire
      simp only [Clocked.step, World.step]
      cases hhandle : s.world.handles[handle]? with
      | none => exact h
      | some copy =>
        rw [hhandle] at hexpire
        exact h.of_process hexpire (fun _ _ hkey => World.key_of_erase hkey) rfl rfl
    | fireTimer i => exact h.fireTimer i
    | exportForPersistence handle =>
      apply h.of_same (horiginal _)
      simp only [World.step]
      split
      · rfl
      · split <;> rfl
    | stageSelfDestructing state id peerAddress stagedAtMs =>
      apply h.of_same (horiginal _)
      simp only [World.step]
      split
      · rfl
      · split <;> rfl
    | takeSelfDestructing id =>
      apply h.of_same (horiginal _)
      simp only [World.step]
      split <;> rfl
    | restore i store nowMs =>
      simp only [Clocked.step, World.step]
      cases hstate : s.world.states[i]? with
      | none => exact h
      | some state =>
        rw [h.original.states state (List.mem_of_getElem? hstate)]
        exact h.restore hexpires hlimits store hlabel
    | advance duration =>
      refine ⟨horiginal (.advance duration), Nat.le_add_right_of_le h.started, ?_⟩
      intro slot key hkey
      obtain ⟨timer, hmem, hslot, hbound⟩ := h.timers slot key hkey
      refine ⟨timer, hmem, hslot, ?_⟩
      change timer.deadline + (s.wall + duration) ≤ limit + (s.world.process.now + duration)
      omega
    | dropRuntime => exact absurd hlabel id

/-- From the limit on no key is left. -/
lemma Within.key_eq_none (h : s.Within message k start limit) (hlate : limit ≤ s.wall)
    (hdue : ∀ timer ∈ s.world.process.timers, s.world.process.now < timer.deadline) (slot : ℕ) :
    s.world.process.key slot = none := by
  cases hkey : s.world.process.key slot with
  | none => rfl
  | some key =>
    obtain ⟨timer, hmem, -, hbound⟩ := h.timers slot key hkey
    have hahead := hdue timer hmem
    omega

lemma Within.goneBy (h : s.Within message k start limit)
    (hexpires : message.expiresAtMs = some deadline) (hlimits : Limits deadline start limit)
    {bound : ℕ} (hbound : ∀ wall, start ≤ wall → bound ≤ wall → limit ≤ wall)
    {label : ClockedLabel} (hlabel : s.Timely label) : s.GoneBy c bound label := by
  obtain ⟨hhonest, hpunctual⟩ := hlabel
  cases label with
  | restart now downtime => trivial
  | run label =>
    cases label with
    | «open» handle =>
      intro hlate copy hcopy plaintext
      have hkey := h.key_eq_none (hbound _ h.started hlate) hpunctual copy.key
      rw [World.openMessage_of_none hkey]
      nofun
    | openWithClockGuard handle store nowMs =>
      intro hlate copy hcopy plaintext
      have hkey := h.key_eq_none (hbound _ h.started hlate) hpunctual copy.key
      unfold SelfDestructingMessage.openWithClockGuard
      by_cases hrolled : World.rolledBack (s.world.watermarks store) nowMs
      · obtain ⟨watermarkMs, hcheck⟩ := World.checkClockIntegrity_of_rolledBack hrolled
        rw [hcheck]
        nofun
      · rw [World.checkClockIntegrity_of_not_rolledBack hrolled]
        dsimp only
        rw [World.openMessage_of_none hkey]
        nofun
    | restore i store nowMs =>
      intro hlate state hstate restored
      rw [h.original.states state (List.mem_of_getElem? hstate)]
      rcases World.restore_exported message k (s.world.watermarks store) nowMs s.world.process with
        ⟨-, e, hresult⟩ | ⟨-, -, hresult⟩ | ⟨-, hahead, -⟩
      · rw [hresult]
        nofun
      · rw [hresult]
        nofun
      · -- the clock shows the recorded deadline already
        have hlt := UInt64.lt_iff_toNat_lt.mp (hahead deadline hexpires)
        have hlimit := hbound _ h.started hlate
        have hrefused := hlimits.refused
        have hshows : nowMs.toNat = s.wall / 1000000 := hhonest
        unfold fromMillis at hrefused
        omega
    | _ => trivial

section Sealed

variable {env : SealEnv} {call : SealCall} {now wall window : ℕ} {process : Process}

/-- The state right after the seal. -/
def sealed (call : SealCall) (message : SelfDestructingMessage) (process : Process) (wall : ℕ) :
    Clocked :=
  ⟨.sealed call message process, wall⟩

/-- A seal with a window leaves one key and one timer. -/
structure SealedOnce (c : SealCrates) (env : SealEnv) (call : SealCall) (window now : ℕ)
    (message : SelfDestructingMessage) (process : Process) (k : Bytes32) : Prop where
  opens : World.Opens c k message.ciphertext call.plaintext
  key : message.key = 0
  expires : message.expiresAtMs = some (saturatingAdd env.wallClockMs (asMillis window))
  process_eq : process = ⟨[some k], [⟨0, now + window⟩], now⟩
  original : (World.sealed call message process).Original message k

lemma sealTimed_once (hcorrect : c.Correct) {mode : DestructMode} {plaintext : Bytes}
    {timestampMs : UInt64}
    (hseal : SelfDestructingMessage.sealTimed c env mode plaintext timestampMs window { now } =
      .ok (message, process)) :
    ∃ k, World.Opens c k message.ciphertext plaintext ∧ message.key = 0 ∧
      process = ⟨[some k], [⟨0, now + window⟩], now⟩ := by
  obtain ⟨p', hinner, rfl⟩ := SelfDestructingMessage.sealTimed_eq_ok hseal
  obtain ⟨k, hopens, hkey, rfl⟩ := World.sealInner_spec hcorrect hinner
  refine ⟨k, hopens, hkey, ?_⟩
  rw [hkey]
  rfl

lemma sealedOnce (hcorrect : c.Correct) (hwindow : call.window = some window)
    (hseal : call.run c env { now } = .ok (message, process)) :
    ∃ k, SealedOnce c env call window now message process k := by
  obtain ⟨_, hfields⟩ := seal_fields hseal
  have hexpires := hfields.expires_eq
  rw [hwindow] at hexpires
  have hone : ∃ k, World.Opens c k message.ciphertext call.plaintext ∧ message.key = 0 ∧
      process = ⟨[some k], [⟨0, now + window⟩], now⟩ := by
    cases call with
    | sealReadTriggered plaintext timestampMs => cases hwindow
    | «seal» plaintext timestampMs expiryWindow =>
      obtain rfl := Option.some.inj hwindow
      exact sealTimed_once hcorrect hseal
    | sealCombined plaintext timestampMs expiryWindow =>
      obtain rfl := Option.some.inj hwindow
      exact sealTimed_once hcorrect hseal
  obtain ⟨k, hopens, hkey, hprocess⟩ := hone
  have hslots : process.slots = (Process.alloc { now } k).slots := by rw [hprocess]; rfl
  exact ⟨k, hopens, hkey, hexpires, hprocess, World.original_sealed
    ⟨hfields.key_eq, hslots, hfields.mode_eq, hfields.expires_eq, hfields.timers⟩⟩

lemma SealedOnce.within (h : SealedOnce c env call window now message process k) {limit : ℕ}
    (hlimit : wall + window ≤ limit) :
    Within message k wall limit (sealed call message process wall) := by
  refine ⟨h.original, le_rfl, ?_⟩
  intro slot key hkey
  change ∃ timer ∈ process.timers, timer.key = slot ∧ timer.deadline + wall ≤ limit + process.now
  change process.key slot = some key at hkey
  have hslot := Process.lt_length_of_key hkey
  rw [h.process_eq] at hslot ⊢
  refine ⟨⟨0, now + window⟩, List.mem_singleton_self _, ?_, ?_⟩
  · rw [List.length_singleton] at hslot
    exact (Nat.lt_one_iff.mp hslot).symm
  · dsimp only
    omega

/-- Runs of which every timer and every restore stays within a limit keep the bound. -/
lemma everyStep_goneBy_of_limits (h : SealedOnce c env call window now message process k)
    {bound limit : ℕ}
    (hlimits : Limits (saturatingAdd env.wallClockMs (asMillis window)) wall limit)
    (hlimit : wall + window ≤ limit) (hbound : ∀ w, wall ≤ w → bound ≤ w → limit ≤ w)
    {labels : List ClockedLabel}
    (htimely : EveryStep (step c) Timely (sealed call message process wall) labels) :
    EveryStep (step c) (GoneBy c bound) (sealed call message process wall) labels := by
  have hkeep : ∀ (s : Clocked) (label : ClockedLabel), Within message k wall limit s →
      s.Timely label → Within message k wall limit (s.step c label) :=
    fun s label hwithin hlabel => hwithin.step h.expires hlimits hlabel.1
  have hall := everyState_of_everyStep hkeep (h.within hlimit) htimely
  apply (hall.everyStep.and htimely).mono
  rintro s label ⟨hwithin, hlabel⟩
  exact hwithin.goneBy h.expires hlimits hbound hlabel

lemma toNat_saturatingAdd_le (a b : UInt64) : (saturatingAdd a b).toNat ≤ a.toNat + b.toNat := by
  unfold saturatingAdd
  split
  · rw [UInt64.toNat_add]
    exact Nat.mod_le _ _
  · rename_i hover
    rw [UInt64.toNat_ofNat']
    have := Nat.mod_le u64Max (2 ^ 64)
    omega

/-- Sealed after the declared time, with a timer that runs from then on, the message opens after the
bound. -/
lemma not_goneBy_of_late (h : SealedOnce c env call window now message process k)
    (hlate : fromMillis call.timestampMs < wall) (hwindow : 0 < window) :
    ∃ labels, EveryStep (step c) Timely (sealed call message process wall) labels ∧
      ¬EveryStep (step c) (GoneBy c (fromMillis call.timestampMs + window))
        (sealed call message process wall) labels := by
  have hprocess := h.process_eq
  subst hprocess
  refine ⟨[.run (.advance (fromMillis call.timestampMs + window - wall)), .run (.open 0)], ?_, ?_⟩
  · refine ⟨⟨trivial, ?_⟩, ⟨trivial, ?_⟩, trivial⟩
    · intro timer hmem
      rw [List.mem_singleton.mp hmem]
      exact Nat.lt_add_of_pos_right hwindow
    · intro timer hmem
      rw [List.mem_singleton.mp hmem]
      change now + (fromMillis call.timestampMs + window - wall) < now + window
      omega
  · intro hgone
    have hopens := h.opens
    have hlive : Process.key ⟨[some k], [⟨0, now + window⟩],
        now + (fromMillis call.timestampMs + window - wall)⟩ message.key = some k := by
      rw [h.key]
      rfl
    have hbound : fromMillis call.timestampMs + window ≤
        wall + (fromMillis call.timestampMs + window - wall) := by omega
    apply hgone.2.1 hbound message rfl call.plaintext
    exact congrArg Prod.fst (World.openMessage_of_key hopens hlive)

/-- The message with a copy that was restored into the second slot. -/
structure Restored (message : SelfDestructingMessage) (k : Bytes32) (now due due' wall : ℕ)
    (s : Clocked) : Prop where
  process_eq : s.world.process = ⟨[some k, some k], [⟨1, due'⟩, ⟨0, due⟩], now⟩
  handles_eq : s.world.handles =
    [⟨message.ciphertext, 1, message.mode, message.expiresAtMs⟩, message]
  wall_eq : s.wall = wall

/-- A copy is restored `rest` after the seal, from what was exported then. -/
lemma restored_early (h : SealedOnce c env call window now message process k)
    (hexpires : message.expiresAtMs = some deadline) {nowMs : UInt64} (hlt : nowMs < deadline)
    {rest : ℕ} (hrest : rest < window) (hshows : nowMs.toNat = (wall + rest) / 1000000) :
    let labels := [.run (.advance rest), .run (.exportForPersistence 0), .run (.restore 0 0 nowMs)]
    EveryStep (step c) Timely (sealed call message process wall) labels ∧
      Restored message k (now + rest) (now + window) (now + rest + fromMillis (deadline - nowMs))
        (wall + rest) (run (step c) (sealed call message process wall) labels) := by
  obtain rfl := h.process_eq
  have hkey := h.key
  have hrestore : ∀ p, SelfDestructingMessage.restore
      ⟨message.ciphertext, k, message.mode, message.expiresAtMs⟩ none nowMs p =
      (.ok (⟨message.ciphertext, p.slots.length, message.mode, message.expiresAtMs⟩,
        (p.alloc k).spawnExpiryTimer p.slots.length (fromMillis (deadline - nowMs))), some nowMs) := by
    intro p
    simp [SelfDestructingMessage.restore, checkClockIntegrity, hexpires, hlt]
  constructor
  · simp [EveryStep, Clocked.step, World.step, elapsed, sealed, World.sealed, Timely, Honest, Punctual,
      SelfDestructingMessage.exportForPersistence, hkey, Process.key, Shows, hshows]
    omega
  · refine ⟨?_, ?_, ?_⟩ <;>
      simp [run, Clocked.step, World.step, elapsed, sealed, World.sealed,
        SelfDestructingMessage.exportForPersistence, World.restore, hkey, Process.key, hrestore,
        Process.alloc, Process.spawnExpiryTimer, World.withWatermark]

/-- The copy is there when the timer of the original has fired. -/
lemma copy_outlives {due due' : ℕ} (h : Restored message k now due due' wall s) {plaintext : Bytes}
    (hopens : World.Opens c k message.ciphertext plaintext) (hdue : now < due) (hdue' : due < due')
    {bound : ℕ} (hbound : bound ≤ wall + (due - now)) :
    let labels := [.run (.advance (due - now)), .run (.fireTimer 1), .run (.open 0)]
    EveryStep (step c) Timely s labels ∧ ¬EveryStep (step c) (GoneBy c bound) s labels := by
  obtain ⟨hprocess, hhandles, hwall⟩ := h
  obtain ⟨⟨process, handles, states, rows, watermarks, deadlines, erased, reads⟩, wall'⟩ := s
  dsimp only at hprocess hhandles hwall
  subst hprocess hhandles hwall
  have hreached : due ≤ now + (due - now) := by omega
  have hsome : Process.dueTimer ⟨[some k, some k], [⟨1, due'⟩, ⟨0, due⟩], now + (due - now)⟩ 1 =
      some ⟨0, due⟩ := Process.dueTimer_eq_some.mpr ⟨rfl, hreached⟩
  constructor
  · simp [EveryStep, Clocked.step, World.step, World.fireTimer, Process.fireTimer, hsome, elapsed,
      Timely, Honest, Punctual, Process.erase, Process.setKey]
    omega
  · intro hgone
    have hopen := hgone.2.2.1
    simp only [Clocked.step, World.step, World.fireTimer, Process.fireTimer, hsome, elapsed, GoneBy,
      List.getElem?_cons_zero, Option.some.injEq, forall_eq'] at hopen
    have hcopy : World.Opens c k (SelfDestructingMessage.mk message.ciphertext 1 message.mode
        message.expiresAtMs).ciphertext plaintext := hopens
    refine hopen hbound plaintext (congrArg Prod.fst (World.openMessage_of_key hcopy ?_))
    rfl

lemma wallClockMs_eq (hclock : env.wallClockMs.toNat = wall / 1000000)
    (hmoment : wall = fromMillis call.timestampMs) : env.wallClockMs = call.timestampMs := by
  apply UInt64.toNat_inj.mp
  rw [hclock, hmoment]
  exact Nat.mul_div_cancel _ (by decide)

lemma toNat_asMillis_le (duration : ℕ) : (asMillis duration).toNat ≤ duration / 1000000 := by
  unfold asMillis
  rw [UInt64.toNat_ofNat']
  exact Nat.mod_le _ _

/-- The recorded deadline is no later than the window after the seal. -/
lemma recorded_le (nowMs : UInt64) (window : ℕ) :
    (saturatingAdd nowMs (asMillis window)).toNat ≤ nowMs.toNat + window / 1000000 :=
  (toNat_saturatingAdd_le nowMs (asMillis window)).trans
    (Nat.add_le_add_left (toNat_asMillis_le window) _)

/-- Sealed at the declared time, the message opens after the bound when a restore at the end of
the clock's millisecond arms a timer past it. -/
lemma not_goneBy_of_restored (h : SealedOnce c env call window now message process k)
    (hwall : wall = fromMillis call.timestampMs) (hseen : env.wallClockMs = call.timestampMs)
    (hnot : ¬SealedInTime call.timestampMs window wall) :
    ∃ labels, EveryStep (step c) Timely (sealed call message process wall) labels ∧
      ¬EveryStep (step c) (GoneBy c (fromMillis call.timestampMs + window))
        (sealed call message process wall) labels := by
  rw [SealedInTime, ← hseen, and_iff_right (hseen.symm ▸ hwall), not_or, UInt64.not_le,
    not_le] at hnot
  obtain ⟨hahead, houtlives⟩ := hnot
  have hlong := recorded_le env.wallClockMs window
  have hleft := World.fromMillis_sub hahead
  have hnext : env.wallClockMs.toNat < (saturatingAdd env.wallClockMs (asMillis window)).toNat :=
    UInt64.lt_iff_toNat_lt.mp hahead
  have hrest : 999999 < window := by omega
  have hshows : env.wallClockMs.toNat = (wall + 999999) / 1000000 := by
    rw [hseen, hwall]
    unfold fromMillis
    omega
  obtain ⟨hearly, hrestored⟩ := restored_early h h.expires hahead hrest hshows
  have hbefore : now + 999999 < now + window := by omega
  have hafter : now + window < now + 999999 +
      fromMillis (saturatingAdd env.wallClockMs (asMillis window) - env.wallClockMs) := by
    rw [hleft]
    unfold fromMillis at houtlives
    omega
  have hbound : fromMillis call.timestampMs + window ≤
      wall + 999999 + (now + window - (now + 999999)) := by omega
  obtain ⟨hlater, hfails⟩ := copy_outlives hrestored h.opens hbefore hafter hbound
  refine ⟨_, everyStep_append.mpr ⟨hearly, hlater⟩, ?_⟩
  intro hgone
  exact hfails (everyStep_append.mp hgone).2

lemma limits_of_window_eq_zero (hclock : env.wallClockMs.toNat = wall / 1000000) :
    Limits (saturatingAdd env.wallClockMs (asMillis 0)) wall wall := by
  have hrecorded := recorded_le env.wallClockMs 0
  constructor
  · intro w hw hlt
    omega
  · unfold fromMillis
    omega

lemma limits_of_sealedInTime (hseen : env.wallClockMs = call.timestampMs)
    (h : SealedInTime call.timestampMs window wall) :
    Limits (saturatingAdd env.wallClockMs (asMillis window)) wall
      (fromMillis call.timestampMs + window) := by
  obtain ⟨hwall, hshort⟩ := h
  have hrecorded := recorded_le env.wallClockMs window
  rw [← hseen] at hshort hwall ⊢
  rw [UInt64.le_iff_toNat_le] at hshort
  unfold fromMillis at hshort hwall
  constructor
  · intro w hw hlt
    unfold fromMillis
    omega
  · unfold fromMillis
    omega

/-- The message is gone by the declared time and its window, in all runs with punctual timers and
a true clock, exactly when it was sealed in time. -/
theorem goneBy_iff {c : SealCrates} (hcorrect : c.Correct) {env : SealEnv} {call : SealCall}
    {window now wall : ℕ} {message : SelfDestructingMessage} {process : Process}
    (hwindow : call.window = some window)
    (hseal : call.run c env { now } = .ok (message, process))
    (hclock : env.wallClockMs.toNat = wall / 1000000) (hmoment : fromMillis call.timestampMs ≤ wall) :
    (∀ labels, EveryStep (step c) Timely (sealed call message process wall) labels →
      EveryStep (step c) (GoneBy c (fromMillis call.timestampMs + window))
        (sealed call message process wall) labels) ↔
      window = 0 ∨ SealedInTime call.timestampMs window wall := by
  obtain ⟨k, honce⟩ := sealedOnce hcorrect hwindow hseal
  constructor
  · intro hgone
    by_contra hnot
    rw [not_or] at hnot
    obtain ⟨hopen, hnot⟩ := hnot
    by_cases hlate : fromMillis call.timestampMs < wall
    · obtain ⟨labels, htimely, hfails⟩ := not_goneBy_of_late honce hlate (Nat.pos_of_ne_zero hopen)
      exact hfails (hgone labels htimely)
    · have hwall : wall = fromMillis call.timestampMs := le_antisymm (not_lt.mp hlate) hmoment
      obtain ⟨labels, htimely, hfails⟩ :=
        not_goneBy_of_restored honce hwall (wallClockMs_eq hclock hwall) hnot
      exact hfails (hgone labels htimely)
  · rintro (rfl | hintime) labels htimely
    · exact everyStep_goneBy_of_limits honce (limits_of_window_eq_zero hclock) le_rfl
        (fun w hw _ => hw) htimely
    · have hseen := wallClockMs_eq hclock hintime.1
      have hlimit : wall + window ≤ fromMillis call.timestampMs + window := by rw [hintime.1]
      exact everyStep_goneBy_of_limits honce (limits_of_sealedInTime hseen hintime) hlimit
        (fun w _ hw => hw) htimely

end Sealed

/-- Half a millisecond to live. -/
def briefCall : SealCall := .sealCombined [104, 105] 1000 500000

theorem goneBy_iff_brief :
    (∀ labels, EveryStep (step localSealCrates) Timely
        (sealed briefCall (sampleSealed briefCall).1 (sampleSealed briefCall).2 1000000000) labels →
      EveryStep (step localSealCrates) (GoneBy localSealCrates (fromMillis 1000 + 500000))
        (sealed briefCall (sampleSealed briefCall).1 (sampleSealed briefCall).2 1000000000) labels) ↔
      500000 = 0 ∨ SealedInTime 1000 500000 1000000000 :=
  goneBy_iff localSealCrates_correct rfl
    (show briefCall.run localSealCrates sampleSealEnv {} =
      .ok ((sampleSealed briefCall).1, (sampleSealed briefCall).2) by decide +kernel)
    rfl (by decide)

/-- A second to live from 1000 ms on, sealed at 1500 ms. -/
def lateSealed : SelfDestructingMessage × Process :=
  match timeBoundCall.run localSealCrates { sampleSealEnv with wallClockMs := 1500 } {} with
  | .ok result => result
  | .error _ => (⟨[], 0, .timeBound, none⟩, {})

/-- At 2000 ms it opens. -/
theorem not_goneBy_lateSealed :
    ¬∀ labels, EveryStep (step localSealCrates) Timely
        (sealed timeBoundCall lateSealed.1 lateSealed.2 1500000000) labels →
      EveryStep (step localSealCrates) (GoneBy localSealCrates (fromMillis 1000 + 1000000000))
        (sealed timeBoundCall lateSealed.1 lateSealed.2 1500000000) labels := by
  have hseal : timeBoundCall.run localSealCrates { sampleSealEnv with wallClockMs := 1500 } {} =
      .ok (lateSealed.1, lateSealed.2) := by decide +kernel
  obtain ⟨k, honce⟩ := sealedOnce localSealCrates_correct rfl hseal
  have hlate : fromMillis timeBoundCall.timestampMs < 1500000000 := by decide
  obtain ⟨labels, htimely, hfails⟩ := not_goneBy_of_late honce hlate (by decide)
  intro hgone
  exact hfails (hgone labels htimely)

end Clocked

end Parda.ClientStore
