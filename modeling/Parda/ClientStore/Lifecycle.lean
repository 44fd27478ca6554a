import Parda.Lib.Machine
import Parda.ClientStore.Pending

/-!
# One self-destructing message

A sealed message with all clones, exported states, staged rows and restored copies of it,
under every order of the operations. Timers fire at any time from their deadline on, or
never. Handles may be dropped. When all of them and the runtime are, nothing is left of the
process but what was exported or staged; restarts of their own come later.
-/

namespace Parda.ClientStore

open Machine Protocol

structure World where
  process : Process := {}
  handles : List SelfDestructingMessage := []
  states : List PersistedSelfDestructState := []
  rows : List PendingRow := []
  /-- The clock watermark stores. -/
  watermarks : ℕ → Option UInt64 := fun _ => none
  /-- The deadline of each slot, the window after the seal or the restore. -/
  deadlines : List (Option ℕ) := []
  /-- The slots that erasing events hit. -/
  erased : List ℕ := []
  /-- The opens that returned the plaintext. -/
  reads : ℕ := 0

inductive Label where
  | clone (handle : ℕ)
  | drop (handle : ℕ)
  | open (handle : ℕ)
  | openWithClockGuard (handle store : ℕ) (nowMs : UInt64)
  | expireNow (handle : ℕ)
  | fireTimer (k : ℕ)
  | exportForPersistence (handle : ℕ)
  | stageSelfDestructing (state : ℕ) (id peerAddress : String) (stagedAtMs : UInt64)
  | takeSelfDestructing (id : String)
  | restore (state store : ℕ) (nowMs : UInt64)
  | advance (duration : ℕ)
  | dropRuntime

inductive SealCall where
  | seal (plaintext : Bytes) (timestampMs : UInt64) (expiryWindow : ℕ)
  | sealReadTriggered (plaintext : Bytes) (timestampMs : UInt64)
  | sealCombined (plaintext : Bytes) (timestampMs : UInt64) (expiryWindow : ℕ)

namespace SealCall

def run (c : SealCrates) (env : SealEnv) (p : Process) :
    SealCall → Except SealFailure (SelfDestructingMessage × Process)
  | .seal plaintext timestampMs expiryWindow =>
    SelfDestructingMessage.sealMessage c env plaintext timestampMs expiryWindow p
  | .sealReadTriggered plaintext timestampMs =>
    SelfDestructingMessage.sealReadTriggered c env plaintext timestampMs p
  | .sealCombined plaintext timestampMs expiryWindow =>
    SelfDestructingMessage.sealCombined c env plaintext timestampMs expiryWindow p

def plaintext : SealCall → Bytes
  | .seal plaintext _ _ | .sealReadTriggered plaintext _ | .sealCombined plaintext _ _ => plaintext

def window : SealCall → Option ℕ
  | .seal _ _ expiryWindow | .sealCombined _ _ expiryWindow => some expiryWindow
  | .sealReadTriggered _ _ => none

end SealCall

/-- An `open` with this result erased the key of its message. -/
def erasing (message : SelfDestructingMessage) : Except PardaError Bytes → Bool
  | .ok _ => message.mode.erasesOnRead
  | .error (.clockRollbackDetected _ _) => true
  | .error _ => false

namespace World

/-- The state after `message` was sealed in a fresh process. -/
def sealed (call : SealCall) (message : SelfDestructingMessage) (process : Process) : World where
  process
  handles := [message]
  deadlines := [call.window.map (process.now + ·)]

def opened (w : World) (message : SelfDestructingMessage) (result : Except PardaError Bytes)
    (process : Process) : World :=
  { w with
    process
    erased := if erasing message result then message.key :: w.erased else w.erased
    reads := if result.isOk then w.reads + 1 else w.reads }

def withWatermark (w : World) (store : ℕ) (watermark : Option UInt64) : World :=
  { w with watermarks := Function.update w.watermarks store watermark }

def fireTimer (w : World) (k : ℕ) : World :=
  match w.process.dueTimer k with
  | none => w
  | some timer => { w with
      process := w.process.fireTimer k
      erased := timer.key :: w.erased }

/-- The copy's deadline is the rest of its window after the restore. -/
def restore (w : World) (state : PersistedSelfDestructState) (store : ℕ) (nowMs : UInt64) : World :=
  match SelfDestructingMessage.restore state (w.watermarks store) nowMs w.process with
  | (.error _, watermark) => w.withWatermark store watermark
  | (.ok (message, process), watermark) => { w.withWatermark store watermark with
      process
      handles := message :: w.handles
      deadlines := w.deadlines ++
        [state.expiresAtMs.map (fun deadline => w.process.now + fromMillis (deadline - nowMs))] }

section Step

variable (c : SealCrates)

def openStep (w : World) (message : SelfDestructingMessage) : World :=
  let (result, process) := message.openMessage c w.process
  w.opened message result process

def guardStep (w : World) (message : SelfDestructingMessage) (store : ℕ) (nowMs : UInt64) : World :=
  let (result, process, watermark) :=
    message.openWithClockGuard c w.process (w.watermarks store) nowMs
  (w.opened message result process).withWatermark store watermark

def step (w : World) : Label → World
  | .clone handle =>
    match w.handles[handle]? with
    | none => w
    | some message => { w with handles := message :: w.handles }
  | .drop handle => { w with handles := w.handles.eraseIdx handle }
  | .open handle =>
    match w.handles[handle]? with
    | none => w
    | some message => w.openStep c message
  | .openWithClockGuard handle store nowMs =>
    match w.handles[handle]? with
    | none => w
    | some message => w.guardStep c message store nowMs
  | .expireNow handle =>
    match w.handles[handle]? with
    | none => w
    | some message => { w with
        process := message.expireNow w.process
        erased := message.key :: w.erased }
  | .fireTimer k => w.fireTimer k
  | .exportForPersistence handle =>
    match w.handles[handle]? with
    | none => w
    | some message =>
      match message.exportForPersistence w.process with
      | .error _ => w
      | .ok state => { w with states := state :: w.states }
  | .stageSelfDestructing state id peerAddress stagedAtMs =>
    match w.states[state]? with
    | none => w
    | some state =>
      match stageSelfDestructing w.rows id peerAddress state stagedAtMs with
      | .error _ => w
      | .ok rows => { w with rows }
  | .takeSelfDestructing id =>
    match takeSelfDestructing w.rows id with
    | (.ok (some state), rows) => { w with rows, states := state :: w.states }
    | (_, rows) => { w with rows }
  | .restore state store nowMs =>
    match w.states[state]? with
    | none => w
    | some state => w.restore state store nowMs
  | .advance duration => { w with process := { w.process with now := w.process.now + duration } }
  | .dropRuntime => { w with process := { w.process with timers := [] } }

end Step

/-- An erasing event hits the slot. -/
def hit (w : World) (slot : ℕ) : World :=
  { w with process := w.process.erase slot, erased := slot :: w.erased }

/-- The state carries the key, the ciphertext and the mode of the one message. -/
def Carries (k : Bytes32) (ct : Bytes) (mode : DestructMode) (state : PersistedSelfDestructState) :
    Prop :=
  state.ciphertext = ct ∧ state.keyBytes = k ∧ state.mode = mode

structure Inv (k : Bytes32) (ct : Bytes) (mode : DestructMode) (w : World) : Prop where
  handles : ∀ message ∈ w.handles,
    message.ciphertext = ct ∧ message.mode = mode ∧ message.key < w.process.slots.length
  keys : ∀ slot key, w.process.key slot = some key → key = k
  states : ∀ state ∈ w.states, Carries k ct mode state
  rows : ∀ row ∈ w.rows, ∃ state, row.state = .ok state ∧ Carries k ct mode state
  dead : ∀ slot < w.process.slots.length, w.process.key slot = none ↔ slot ∈ w.erased
  erased : ∀ slot ∈ w.erased, slot < w.process.slots.length
  timers : ∀ timer ∈ w.process.timers, timer.key < w.process.slots.length

/-- The stored ciphertext opens under the key. -/
structure Opens (c : SealCrates) (k : Bytes32) (ct plaintext : Bytes) : Prop where
  length : nonceLen ≤ ct.length
  decrypt : c.decrypt k (ct.take nonceLen) (ct.drop nonceLen) = .ok plaintext

variable {c : SealCrates} {k : Bytes32} {ct plaintext : Bytes} {mode : DestructMode} {w : World}
  {message : SelfDestructingMessage}

lemma openMessage_of_none {p : Process} (hkey : p.key message.key = none) :
    message.openMessage c p = (.error .selfDestructExpired, p) := by
  unfold SelfDestructingMessage.openMessage
  rw [hkey]

lemma openMessage_of_key (hopens : Opens c k message.ciphertext plaintext) {p : Process}
    (hkey : p.key message.key = some k) :
    message.openMessage c p =
      (.ok plaintext, if message.mode.erasesOnRead then p.erase message.key else p) := by
  unfold SelfDestructingMessage.openMessage
  rw [hkey]
  dsimp only
  rw [if_neg (not_lt.mpr hopens.length), hopens.decrypt]

lemma openStep_of_none (hkey : w.process.key message.key = none) : w.openStep c message = w := by
  unfold openStep
  rw [openMessage_of_none hkey]
  rfl

lemma openStep_of_key (hopens : Opens c k message.ciphertext plaintext)
    (hkey : w.process.key message.key = some k) :
    w.openStep c message =
      { (if message.mode.erasesOnRead then w.hit message.key else w) with reads := w.reads + 1 } := by
  unfold openStep
  rw [openMessage_of_key hopens hkey]
  cases herases : message.mode.erasesOnRead <;> simp [opened, erasing, hit, herases, Except.isOk, Except.toBool]

/-- The clock shows less than the watermark. -/
def rolledBack (watermark : Option UInt64) (nowMs : UInt64) : Prop :=
  ∃ watermarkMs ∈ watermark, nowMs < watermarkMs

instance (watermark : Option UInt64) (nowMs : UInt64) : Decidable (rolledBack watermark nowMs) :=
  Option.decidableExistsMem watermark

lemma checkClockIntegrity_of_rolledBack {watermark : Option UInt64} {nowMs : UInt64}
    (h : rolledBack watermark nowMs) :
    ∃ watermarkMs, checkClockIntegrity watermark nowMs =
      (.rollbackDetected watermarkMs nowMs, watermark) := by
  obtain ⟨watermarkMs, hmem, hlt⟩ := h
  cases hmem
  exact ⟨watermarkMs, if_pos hlt⟩

lemma checkClockIntegrity_of_not_rolledBack {watermark : Option UInt64} {nowMs : UInt64}
    (h : ¬rolledBack watermark nowMs) : checkClockIntegrity watermark nowMs = (.ok, some nowMs) := by
  cases watermark with
  | none => rfl
  | some watermarkMs => exact if_neg (fun hlt => h ⟨watermarkMs, rfl, hlt⟩)

lemma guardStep_of_rolledBack {store : ℕ} {nowMs : UInt64}
    (h : rolledBack (w.watermarks store) nowMs) :
    w.guardStep c message store nowMs =
      (w.hit message.key).withWatermark store (w.watermarks store) := by
  obtain ⟨watermarkMs, hcheck⟩ := checkClockIntegrity_of_rolledBack h
  unfold guardStep SelfDestructingMessage.openWithClockGuard
  rw [hcheck]
  rfl

lemma guardStep_of_not_rolledBack {store : ℕ} {nowMs : UInt64}
    (h : ¬rolledBack (w.watermarks store) nowMs) :
    w.guardStep c message store nowMs =
      (w.openStep c message).withWatermark store (some nowMs) := by
  unfold guardStep SelfDestructingMessage.openWithClockGuard
  rw [checkClockIntegrity_of_not_rolledBack h]
  rfl

/-- The checks of `restore`. -/
def Restorable (w : World) (state : PersistedSelfDestructState) (store : ℕ) (nowMs : UInt64) : Prop :=
  ¬rolledBack (w.watermarks store) nowMs ∧ ∀ deadline ∈ state.expiresAtMs, nowMs < deadline

variable {state : PersistedSelfDestructState} {store : ℕ} {nowMs : UInt64}

lemma restore_of_not_restorable (h : ¬w.Restorable state store nowMs) :
    ∃ watermark, w.restore state store nowMs = w.withWatermark store watermark := by
  unfold World.restore SelfDestructingMessage.restore
  by_cases hrolled : rolledBack (w.watermarks store) nowMs
  · obtain ⟨watermarkMs, hcheck⟩ := checkClockIntegrity_of_rolledBack hrolled
    rw [hcheck]
    exact ⟨_, rfl⟩
  · rw [checkClockIntegrity_of_not_rolledBack hrolled]
    have hlate : ∃ deadline ∈ state.expiresAtMs, deadline ≤ nowMs := by
      by_contra hnone
      refine h ⟨hrolled, ?_⟩
      intro deadline hmem
      by_contra hle
      exact hnone ⟨deadline, hmem, UInt64.not_lt.mp hle⟩
    obtain ⟨deadline, hmem, hle⟩ := hlate
    dsimp only
    rw [Option.mem_def.mp hmem]
    dsimp only
    rw [if_pos hle]
    exact ⟨_, rfl⟩

/-- A restore that passes its checks puts the key into a new slot. -/
lemma restore_of_restorable (h : w.Restorable state store nowMs) :
    ∃ copy process deadlines, w.restore state store nowMs =
        { w.withWatermark store (some nowMs) with
          process, handles := copy :: w.handles, deadlines } ∧
      copy.ciphertext = state.ciphertext ∧ copy.mode = state.mode ∧
      copy.key = w.process.slots.length ∧
      process.slots = (w.process.alloc state.keyBytes).slots ∧
      ∀ timer ∈ process.timers, timer ∈ w.process.timers ∨ timer.key = w.process.slots.length := by
  unfold World.restore SelfDestructingMessage.restore
  rw [checkClockIntegrity_of_not_rolledBack h.1]
  dsimp only
  cases hexpires : state.expiresAtMs with
  | none => exact ⟨_, _, _, rfl, rfl, rfl, rfl, rfl, fun timer hmem => Or.inl hmem⟩
  | some deadline =>
    have hlt : nowMs < deadline := h.2 deadline hexpires
    dsimp only
    rw [if_neg (UInt64.not_le.mpr hlt)]
    refine ⟨_, _, _, rfl, rfl, rfl, rfl, rfl, ?_⟩
    intro timer hmem
    rcases List.mem_cons.mp hmem with rfl | hmem
    · exact Or.inr rfl
    · exact Or.inl hmem

lemma Inv.hit (h : w.Inv k ct mode) {slot : ℕ} (hslot : slot < w.process.slots.length) :
    (w.hit slot).Inv k ct mode := by
  have hlength : (w.process.erase slot).slots.length = w.process.slots.length :=
    Process.length_slots_erase slot
  refine ⟨?_, ?_, h.states, h.rows, ?_, ?_, ?_⟩
  · intro message hmem
    change _ ∧ _ ∧ message.key < (w.process.erase slot).slots.length
    rw [hlength]
    exact h.handles message hmem
  · intro slot' key hkey
    by_cases heq : slot = slot'
    · subst heq
      change (w.process.erase slot).key slot = _ at hkey
      rw [Process.key_erase_self] at hkey
      cases hkey
    · change (w.process.erase slot).key slot' = _ at hkey
      rw [Process.key_erase_of_ne heq] at hkey
      exact h.keys slot' key hkey
  · intro slot' hlt
    change (w.process.erase slot).key slot' = none ↔ slot' ∈ slot :: w.erased
    by_cases heq : slot = slot'
    · subst heq
      rw [Process.key_erase_self]
      exact iff_of_true rfl List.mem_cons_self
    · rw [Process.key_erase_of_ne heq, h.dead slot' (hlength ▸ hlt), List.mem_cons]
      exact (or_iff_right (Ne.symm heq)).symm
  · intro slot' hmem
    change slot' < (w.process.erase slot).slots.length
    rw [hlength]
    rcases List.mem_cons.mp hmem with rfl | hmem
    · exact hslot
    · exact h.erased slot' hmem
  · intro timer hmem
    change timer.key < (w.process.erase slot).slots.length
    rw [hlength]
    exact h.timers timer hmem

lemma Inv.restore (h : w.Inv k ct mode) (hstate : Carries k ct mode state) (store : ℕ)
    (nowMs : UInt64) : (w.restore state store nowMs).Inv k ct mode := by
  by_cases hok : w.Restorable state store nowMs
  · obtain ⟨copy, process, deadlines, heq, hct, hmode, hkey, hslots, htimers⟩ :=
      restore_of_restorable hok
    have hlength : process.slots.length = w.process.slots.length + 1 := by
      rw [hslots]
      exact List.length_append
    have hkeys := Process.key_congr hslots
    rw [heq]
    refine ⟨?_, ?_, h.states, h.rows, ?_, ?_, ?_⟩
    · intro message hmem
      rcases List.mem_cons.mp hmem with rfl | hmem
      · refine ⟨hct.trans hstate.1, hmode.trans hstate.2.2, ?_⟩
        change message.key < process.slots.length
        omega
      · have hold := h.handles message hmem
        refine ⟨hold.1, hold.2.1, ?_⟩
        change message.key < process.slots.length
        omega
    · intro slot key hsome
      change process.key slot = _ at hsome
      rw [hkeys] at hsome
      by_cases hlt : slot < w.process.slots.length
      · rw [Process.key_alloc_of_lt hlt] at hsome
        exact h.keys slot key hsome
      · have hbound := Process.lt_length_of_key hsome
        have hlast : slot = w.process.slots.length := by
          rw [← hslots] at hbound
          omega
        rw [hlast, Process.key_alloc_self] at hsome
        rw [← Option.some.inj hsome]
        exact hstate.2.1
    · intro slot hlt
      change slot < process.slots.length at hlt
      change process.key slot = none ↔ slot ∈ w.erased
      rw [hkeys]
      by_cases hlast : slot = w.process.slots.length
      · rw [hlast, Process.key_alloc_self]
        refine iff_of_false (by simp) ?_
        intro hmem
        exact absurd (h.erased _ hmem) (lt_irrefl _)
      · rw [Process.key_alloc_of_lt (by omega)]
        exact h.dead slot (by omega)
    · intro slot hmem
      have hold := h.erased slot hmem
      change slot < process.slots.length
      omega
    · intro timer hmem
      change timer.key < process.slots.length
      rcases htimers timer hmem with hmem | hnew
      · have hold := h.timers timer hmem
        omega
      · omega
  · obtain ⟨watermark, heq⟩ := restore_of_not_restorable hok
    rw [heq]
    exact ⟨h.handles, h.keys, h.states, h.rows, h.dead, h.erased, h.timers⟩

lemma Inv.openStep (hopens : Opens c k ct plaintext) (h : w.Inv k ct mode)
    (hmem : message ∈ w.handles) : (w.openStep c message).Inv k ct mode := by
  obtain ⟨hct, -, hslot⟩ := h.handles message hmem
  cases hkey : w.process.key message.key with
  | none =>
    rw [openStep_of_none hkey]
    exact h
  | some key =>
    rw [h.keys _ _ hkey] at hkey
    rw [← hct] at hopens
    rw [openStep_of_key hopens hkey]
    have hinner : (if message.mode.erasesOnRead then w.hit message.key else w).Inv k ct mode := by
      split
      · exact h.hit hslot
      · exact h
    exact ⟨hinner.handles, hinner.keys, hinner.states, hinner.rows, hinner.dead,
      hinner.erased, hinner.timers⟩

lemma Inv.withWatermark (h : w.Inv k ct mode) (store : ℕ) (watermark : Option UInt64) :
    (w.withWatermark store watermark).Inv k ct mode :=
  ⟨h.handles, h.keys, h.states, h.rows, h.dead, h.erased, h.timers⟩

lemma Inv.guardStep (hopens : Opens c k ct plaintext) (h : w.Inv k ct mode)
    (hmem : message ∈ w.handles) (store : ℕ) (nowMs : UInt64) :
    (w.guardStep c message store nowMs).Inv k ct mode := by
  by_cases hrolled : rolledBack (w.watermarks store) nowMs
  · rw [guardStep_of_rolledBack hrolled]
    exact (h.hit (h.handles message hmem).2.2).withWatermark _ _
  · rw [guardStep_of_not_rolledBack hrolled]
    exact (h.openStep hopens hmem).withWatermark _ _

lemma fireTimer_of_due {i : ℕ} {timer : Timer} (htimer : w.process.timers[i]? = some timer)
    (hdue : timer.deadline ≤ w.process.now) :
    w.fireTimer i = { w.hit timer.key with
      process := { w.process.erase timer.key with timers := w.process.timers.eraseIdx i } } := by
  have hsome := Process.dueTimer_eq_some.mpr ⟨htimer, hdue⟩
  unfold World.fireTimer
  rw [hsome, Process.fireTimer_of_due hsome]
  rfl

lemma fireTimer_of_not_due {i : ℕ}
    (h : ∀ timer, w.process.timers[i]? = some timer → ¬timer.deadline ≤ w.process.now) :
    w.fireTimer i = w := by
  unfold World.fireTimer
  rw [Process.dueTimer_eq_none h]

lemma Inv.fireTimer (h : w.Inv k ct mode) (i : ℕ) : (w.fireTimer i).Inv k ct mode := by
  by_cases hdue : ∃ timer, w.process.timers[i]? = some timer ∧ timer.deadline ≤ w.process.now
  · obtain ⟨timer, htimer, hdue⟩ := hdue
    rw [fireTimer_of_due htimer hdue]
    have hhit := h.hit (h.timers timer (List.mem_of_getElem? htimer))
    refine ⟨hhit.handles, hhit.keys, hhit.states, hhit.rows, hhit.dead,
      hhit.erased, ?_⟩
    intro timer' hmem
    exact hhit.timers timer' (List.mem_of_mem_eraseIdx hmem)
  · rw [fireTimer_of_not_due (fun timer htimer hle => hdue ⟨timer, htimer, hle⟩)]
    exact h

lemma Inv.takeSelfDestructing (h : w.Inv k ct mode) (id : String) :
    (w.step c (.takeSelfDestructing id)).Inv k ct mode := by
  unfold World.step
  dsimp only
  cases hfind : w.rows.find? (fun row => row.id = id) with
  | none =>
    have htake : ClientStore.takeSelfDestructing w.rows id = (.ok none, w.rows) := by
      unfold ClientStore.takeSelfDestructing
      rw [hfind]
    rw [htake]
    exact h
  | some row =>
    obtain ⟨state, hstate, hcarries⟩ := h.rows row (List.mem_of_find?_eq_some hfind)
    have htake : ClientStore.takeSelfDestructing w.rows id =
        (.ok (some state), Table.deleteKey PendingRow.id w.rows id) := by
      unfold ClientStore.takeSelfDestructing
      rw [hfind]
      dsimp only
      rw [hstate]
      rfl
    rw [htake]
    refine ⟨h.handles, h.keys, ?_, ?_, h.dead, h.erased, h.timers⟩
    · intro state' hmem
      rcases List.mem_cons.mp hmem with rfl | hmem
      · exact hcarries
      · exact h.states state' hmem
    · intro row' hmem
      exact h.rows row' (Table.mem_deleteKey.mp hmem).1

lemma Inv.stageSelfDestructing (h : w.Inv k ct mode) (i : ℕ) (id peerAddress : String)
    (stagedAtMs : UInt64) :
    (w.step c (.stageSelfDestructing i id peerAddress stagedAtMs)).Inv k ct mode := by
  unfold World.step
  dsimp only
  cases hstate : w.states[i]? with
  | none => exact h
  | some state =>
    have hcarries := h.states state (List.mem_of_getElem? hstate)
    dsimp only
    unfold ClientStore.stageSelfDestructing
    by_cases hused : w.rows.any (fun row => row.id = id) = true
    · rw [if_pos hused]
      exact h
    · rw [if_neg hused]
      refine ⟨h.handles, h.keys, h.states, ?_, h.dead, h.erased, h.timers⟩
      intro row hmem
      rcases List.mem_append.mp hmem with hmem | hmem
      · exact h.rows row hmem
      · rw [List.mem_singleton.mp hmem]
        exact ⟨state, pendingRow_state id peerAddress state stagedAtMs, hcarries⟩

lemma Inv.exportForPersistence (h : w.Inv k ct mode) (hmem : message ∈ w.handles)
    (hexport : message.exportForPersistence w.process = .ok state) :
    Inv k ct mode { w with states := state :: w.states } := by
  refine ⟨h.handles, h.keys, ?_, h.rows, h.dead, h.erased, h.timers⟩
  intro state' hstate
  rcases List.mem_cons.mp hstate with rfl | hstate
  · obtain ⟨hct, hmode, -⟩ := h.handles message hmem
    unfold SelfDestructingMessage.exportForPersistence at hexport
    cases hkey : w.process.key message.key with
    | none =>
      rw [hkey] at hexport
      cases hexport
    | some key =>
      rw [hkey] at hexport
      cases hexport
      exact ⟨hct, h.keys _ _ hkey, hmode⟩
  · exact h.states state' hstate

lemma inv_step (hopens : Opens c k ct plaintext) (w : World) (label : Label)
    (h : w.Inv k ct mode) : (w.step c label).Inv k ct mode := by
  cases label with
  | clone handle =>
    unfold World.step
    dsimp only
    cases hhandle : w.handles[handle]? with
    | none => exact h
    | some message =>
      have hmem := List.mem_of_getElem? hhandle
      refine ⟨?_, h.keys, h.states, h.rows, h.dead, h.erased, h.timers⟩
      intro message' hmem'
      rcases List.mem_cons.mp hmem' with rfl | hmem'
      · exact h.handles _ hmem
      · exact h.handles message' hmem'
  | drop handle =>
    refine ⟨?_, h.keys, h.states, h.rows, h.dead, h.erased, h.timers⟩
    intro message hmem
    exact h.handles message (List.mem_of_mem_eraseIdx hmem)
  | «open» handle =>
    unfold World.step
    dsimp only
    cases hhandle : w.handles[handle]? with
    | none => exact h
    | some message => exact h.openStep hopens (List.mem_of_getElem? hhandle)
  | openWithClockGuard handle store nowMs =>
    unfold World.step
    dsimp only
    cases hhandle : w.handles[handle]? with
    | none => exact h
    | some message => exact h.guardStep hopens (List.mem_of_getElem? hhandle) store nowMs
  | expireNow handle =>
    unfold World.step
    dsimp only
    cases hhandle : w.handles[handle]? with
    | none => exact h
    | some message => exact h.hit (h.handles message (List.mem_of_getElem? hhandle)).2.2
  | fireTimer i => exact h.fireTimer i
  | exportForPersistence handle =>
    unfold World.step
    dsimp only
    cases hhandle : w.handles[handle]? with
    | none => exact h
    | some message =>
      dsimp only
      cases hexport : message.exportForPersistence w.process with
      | error e => exact h
      | ok state => exact h.exportForPersistence (List.mem_of_getElem? hhandle) hexport
  | stageSelfDestructing i id peerAddress stagedAtMs =>
    exact h.stageSelfDestructing i id peerAddress stagedAtMs
  | takeSelfDestructing id => exact h.takeSelfDestructing id
  | restore i store nowMs =>
    unfold World.step
    dsimp only
    cases hstate : w.states[i]? with
    | none => exact h
    | some state => exact h.restore (h.states state (List.mem_of_getElem? hstate)) store nowMs
  | advance duration =>
    exact ⟨h.handles, h.keys, h.states, h.rows, h.dead, h.erased, h.timers⟩
  | dropRuntime =>
    refine ⟨h.handles, h.keys, h.states, h.rows, h.dead, h.erased, ?_⟩
    intro timer hmem
    cases hmem

section Sealed

variable {env : SealEnv} {p process : Process}

lemma sealInner_spec (hcorrect : c.Correct) {timestampMs expiryWindowMs : UInt64}
    (hseal : SelfDestructingMessage.sealInner c env plaintext mode timestampMs expiryWindowMs p =
      .ok (message, process)) :
    ∃ k, Opens c k message.ciphertext plaintext ∧ message.key = p.slots.length ∧
      process = p.alloc k := by
  unfold SelfDestructingMessage.sealInner at hseal
  cases hct : c.encrypt (deriveKey c env.seed mode timestampMs expiryWindowMs) env.nonce.toList
    plaintext with
  | error e =>
    simp only [hct] at hseal
    cases hseal
  | ok ct =>
    simp only [hct] at hseal
    cases hseal
    have hlength : env.nonce.toList.length = nonceLen := env.nonce.toList_length
    refine ⟨_, ⟨?_, ?_⟩, rfl, rfl⟩
    · rw [List.length_append, hlength]
      exact Nat.le_add_right _ _
    · rw [List.take_left' hlength, List.drop_left' hlength]
      exact hcorrect _ _ _ _ hct

/-- A seal allocates one slot, and a timer at most on it. -/
structure SealSpec (c : SealCrates) (plaintext : Bytes) (p : Process)
    (message : SelfDestructingMessage) (process : Process) (k : Bytes32) : Prop where
  opens : Opens c k message.ciphertext plaintext
  key : message.key = p.slots.length
  slots : process.slots = (p.alloc k).slots
  timers : ∀ timer ∈ process.timers, timer ∈ p.timers ∨ timer.key = p.slots.length

lemma sealTimed_spec (hcorrect : c.Correct) {timestampMs : UInt64} {expiryWindow : ℕ}
    (hseal : SelfDestructingMessage.sealTimed c env mode plaintext timestampMs expiryWindow p =
      .ok (message, process)) : ∃ k, SealSpec c plaintext p message process k := by
  obtain ⟨p', hinner, rfl⟩ := SelfDestructingMessage.sealTimed_eq_ok hseal
  obtain ⟨k, hopens, hkey, rfl⟩ := sealInner_spec hcorrect hinner
  refine ⟨k, hopens, hkey, rfl, ?_⟩
  intro timer hmem
  rcases List.mem_cons.mp hmem with rfl | hmem
  · exact Or.inr hkey
  · exact Or.inl hmem

lemma seal_spec (hcorrect : c.Correct) {call : SealCall}
    (hseal : call.run c env p = .ok (message, process)) :
    ∃ k, SealSpec c call.plaintext p message process k := by
  cases call with
  | «seal» plaintext timestampMs expiryWindow => exact sealTimed_spec hcorrect hseal
  | sealReadTriggered plaintext timestampMs =>
    obtain ⟨k, hopens, hkey, rfl⟩ :=
      sealInner_spec hcorrect (SelfDestructingMessage.sealReadTriggered_eq_ok hseal)
    exact ⟨k, hopens, hkey, rfl, fun timer hmem => Or.inl hmem⟩
  | sealCombined plaintext timestampMs expiryWindow => exact sealTimed_spec hcorrect hseal

/-- The invariant right after the seal. -/
lemma inv_sealed (hcorrect : c.Correct) {call : SealCall} {now : ℕ}
    (hseal : call.run c env { now } = .ok (message, process)) :
    ∃ k, Opens c k message.ciphertext call.plaintext ∧
      (sealed call message process).Inv k message.ciphertext message.mode := by
  obtain ⟨k, hopens, hkey, hslots, htimers⟩ := seal_spec hcorrect hseal
  have hslots' : process.slots = [some k] := hslots
  have hkey' : message.key = 0 := hkey
  have hlive : process.key 0 = some k := by
    unfold Process.key
    rw [hslots']
    rfl
  have hzero : ∀ slot, slot < process.slots.length → slot = 0 := by
    intro slot hlt
    rw [hslots'] at hlt
    exact Nat.lt_one_iff.mp hlt
  have hlength : 0 < process.slots.length := by
    rw [hslots']
    exact Nat.one_pos
  refine ⟨k, hopens, ?_, ?_, by simp [sealed], by simp [sealed], ?_, by simp [sealed], ?_⟩
  · intro message' hmem
    rw [List.mem_singleton.mp hmem, hkey']
    exact ⟨rfl, rfl, hlength⟩
  · intro slot key hsome
    have hslot := hzero slot (Process.lt_length_of_key hsome)
    change process.key slot = some key at hsome
    rw [hslot, hlive] at hsome
    exact (Option.some.inj hsome).symm
  · intro slot hlt
    change process.key slot = none ↔ slot ∈ []
    rw [hzero slot hlt, hlive]
    simp
  · intro timer hmem
    rcases htimers timer hmem with hmem | hnew
    · cases hmem
    · change timer.key < process.slots.length
      rw [hnew]
      exact hlength

end Sealed

end World

/-- A computable stand-in for the sealing crates. Its ciphertext starts with the key and
the nonce, which it checks. -/
def localSealCrates : SealCrates where
  hkdfSha256 ikm info := List.Vector.ofFn (fun i => (ikm ++ info).getD i 0)
  encrypt key nonce plaintext := .ok (key.toList ++ nonce ++ plaintext)
  decrypt key nonce ct :=
    if ct.take (key.toList ++ nonce).length = key.toList ++ nonce then
      .ok (ct.drop (key.toList ++ nonce).length)
    else .error "aead::Error"

lemma localSealCrates_correct : localSealCrates.Correct := by
  intro key nonce plaintext ct hct
  cases hct
  change (if _ = _ then _ else _) = _
  rw [List.take_left, if_pos rfl, List.drop_left]

def sampleSealEnv : SealEnv where
  seed := List.Vector.replicate 32 7
  nonce := List.Vector.replicate 12 9
  wallClockMs := 1000

/-- What the stand-in crates seal in a fresh process. -/
def sampleSealed (call : SealCall) : SelfDestructingMessage × Process :=
  match call.run localSealCrates sampleSealEnv {} with
  | .ok result => result
  | .error _ => (⟨[], 0, .timeBound, none⟩, {})

def sampleWorld (call : SealCall) : World :=
  .sealed call (sampleSealed call).1 (sampleSealed call).2

end Parda.ClientStore
