import Parda.ClientStore.Lifecycle
import Parda.Lib.Simulation
import Parda.Protocol.ClockGuard

/-!
# A message is live or gone

One sealed message in memory with any number of clones, and the machine with two states
that it refines. Each step below holds the lock on the key once, or loads or stores a
clock watermark; `open_with_clock_guard` is a call of three such steps.
-/

namespace Parda.ClientStore

open Machine Protocol

/-- What a call tells about the message. -/
inductive Observation where
  | opened (result : Except PardaError Bytes)
  | expired (expired : Bool)

/-- The call was a successful open. -/
def Observation.isRead : Observation → Bool
  | .opened (.ok _) => true
  | _ => false

/-- The purpose of a self-destructing message: there, and then not. -/
inductive Life where
  | live
  | gone
deriving DecidableEq

inductive LifeEvent where
  | open
  | rollback (observedMs watermarkMs : UInt64)
  | expireNow
  | isExpired
  | timer

namespace Life

def step (mode : DestructMode) : Life → LifeEvent → Life
  | .gone, _ => .gone
  | .live, .open => if mode.erasesOnRead then .gone else .live
  | .live, .isExpired => .live
  | .live, .rollback _ _ | .live, .expireNow | .live, .timer => .gone

def observe (plaintext : Bytes) : Life → LifeEvent → Option Observation
  | .live, .open => some (.opened (.ok plaintext))
  | .gone, .open => some (.opened (.error .selfDestructExpired))
  | _, .rollback observedMs watermarkMs =>
    some (.opened (.error (.clockRollbackDetected observedMs watermarkMs)))
  | life, .isExpired => some (.expired (life = .gone))
  | _, .expireNow | _, .timer => none

/-- What an open may say of a message that is gone. -/
def Refused : Observation → Prop
  | .opened result => result = .error .selfDestructExpired ∨
      ∃ observedMs watermarkMs, result = .error (.clockRollbackDetected observedMs watermarkMs)
  | .expired expired => expired = true

variable {mode : DestructMode} {plaintext : Bytes} {life : Life}

/-- Nothing brings a message back. -/
lemma refused_of_gone (events : List LifeEvent) :
    ∀ o ∈ outputs (step mode) (observe plaintext) .gone events, Refused o := by
  have hstep : ∀ life event, life = gone → step mode life event = gone := by
    rintro life event rfl
    rfl
  have hout : ∀ life event, life = gone → ∀ o ∈ observe plaintext life event, Refused o := by
    rintro life event rfl o ho
    cases event with
    | «open» =>
      cases ho
      exact Or.inl rfl
    | rollback observedMs watermarkMs =>
      cases ho
      exact Or.inr ⟨observedMs, watermarkMs, rfl⟩
    | isExpired =>
      cases ho
      rfl
    | expireNow => cases ho
    | timer => cases ho
  exact forall_mem_outputs hstep hout rfl events

/-- An open returns the plaintext or nothing. -/
lemma plaintext_of_read (events : List LifeEvent) {text : Bytes}
    (h : .opened (.ok text) ∈ outputs (step mode) (observe plaintext) life events) :
    text = plaintext := by
  have hout : ∀ life event, True → ∀ o ∈ observe plaintext life event,
      ∀ text, o = .opened (.ok text) → text = plaintext := by
    rintro life event - o ho text rfl
    cases life with
    | live => cases event with
      | «open» =>
        cases ho
        rfl
      | _ => cases ho
    | gone => cases event with
      | _ => cases ho
  have hstep : ∀ life event, True → (fun _ => True) (step mode life event) :=
    fun _ _ _ => trivial
  exact forall_mem_outputs hstep hout trivial events _ h text rfl

/-- A message that a read erases is read once. -/
lemma reads_le_one (hmode : mode.erasesOnRead = true) (events : List LifeEvent) :
    (outputs (step mode) (observe plaintext) life events).countP Observation.isRead ≤
      if life = .live then 1 else 0 := by
  induction events generalizing life with
  | nil => simp
  | cons event events ih =>
    have htail : (outputs (step mode) (observe plaintext) (step mode life event) events).countP
        Observation.isRead ≤ if step mode life event = .live then 1 else 0 := ih
    have hhead : (observe plaintext life event).toList.countP Observation.isRead +
        (if step mode life event = .live then 1 else 0) ≤ if life = .live then 1 else 0 := by
      cases life <;> cases event <;> simp [observe, step, Observation.isRead, hmode]
    rw [outputs_cons, List.countP_append]
    omega

end Life

inductive GuardPc where
  | load
  | store
  | expire (watermarkMs : UInt64)
  | open
  | returned

/-- A call of `open_with_clock_guard` on its way. -/
structure GuardedOpen where
  message : SelfDestructingMessage
  store : ℕ
  nowMs : UInt64
  pc : GuardPc

/-- The process, the clones of the message, the watermark stores and the guarded calls. -/
structure Memory where
  process : Process
  handles : List SelfDestructingMessage
  watermarks : ℕ → Option UInt64
  calls : List GuardedOpen := []

inductive KeyLabel where
  | clone (handle : ℕ)
  | open (handle : ℕ)
  | openWithClockGuard (handle store : ℕ) (nowMs : UInt64)
  | advance (call : ℕ)
  | expireNow (handle : ℕ)
  | isExpired (handle : ℕ)
  | fireTimer (i : ℕ)
  | elapse (duration : ℕ)

namespace Memory

/-- The state after `message` was sealed. -/
def sealed (message : SelfDestructingMessage) (process : Process)
    (watermarks : ℕ → Option UInt64) : Memory where
  process
  handles := [message]
  watermarks

def setPc (w : Memory) (i : ℕ) (call : GuardedOpen) (pc : GuardPc) : Memory :=
  { w with calls := w.calls.set i { call with pc } }

section Step

variable (c : SealCrates)

def advance (w : Memory) (i : ℕ) : Memory :=
  match w.calls[i]? with
  | none => w
  | some call =>
    match call.pc with
    | .load =>
      match rollbackAgainst (w.watermarks call.store) call.nowMs with
      | some watermarkMs => w.setPc i call (.expire watermarkMs)
      | none => w.setPc i call .store
    | .store => { w.setPc i call .open with
        watermarks := Function.update w.watermarks call.store (some call.nowMs) }
    | .expire _ => { w.setPc i call .returned with process := call.message.expireNow w.process }
    | .open => { w.setPc i call .returned with
        process := (call.message.openMessage c w.process).2 }
    | .returned => w

def step (w : Memory) : KeyLabel → Memory
  | .clone handle =>
    match w.handles[handle]? with
    | some message => { w with handles := message :: w.handles }
    | none => w
  | .open handle =>
    match w.handles[handle]? with
    | some message => { w with process := (message.openMessage c w.process).2 }
    | none => w
  | .openWithClockGuard handle store nowMs =>
    match w.handles[handle]? with
    | some message => { w with calls := w.calls ++ [⟨message, store, nowMs, .load⟩] }
    | none => w
  | .advance i => w.advance c i
  | .expireNow handle =>
    match w.handles[handle]? with
    | some message => { w with process := message.expireNow w.process }
    | none => w
  | .isExpired _ => w
  | .fireTimer i => { w with process := w.process.fireTimer i }
  | .elapse duration => { w with process := { w.process with now := w.process.now + duration } }

/-- What the step tells its caller. -/
def observe (w : Memory) : KeyLabel → Option Observation
  | .open handle =>
    w.handles[handle]?.map fun message => .opened (message.openMessage c w.process).1
  | .advance i =>
    match w.calls[i]? with
    | some ⟨_, _, nowMs, .expire watermarkMs⟩ =>
      some (.opened (.error (.clockRollbackDetected nowMs watermarkMs)))
    | some ⟨message, _, _, .open⟩ => some (.opened (message.openMessage c w.process).1)
    | _ => none
  | .isExpired handle => w.handles[handle]?.map fun message => .expired (message.isExpired w.process)
  | _ => none

end Step

/-- What the step is to the two-state machine, if anything. -/
def event (w : Memory) : KeyLabel → Option LifeEvent
  | .open handle => w.handles[handle]?.map fun _ => .open
  | .advance i =>
    match w.calls[i]? with
    | some ⟨_, _, nowMs, .expire watermarkMs⟩ => some (.rollback nowMs watermarkMs)
    | some ⟨_, _, _, .open⟩ => some .open
    | _ => none
  | .expireNow handle => w.handles[handle]?.map fun _ => .expireNow
  | .isExpired handle => w.handles[handle]?.map fun _ => .isExpired
  | .fireTimer i => (w.process.dueTimer i).map fun _ => .timer
  | _ => none

/-- Every clone and call is of the one message, whose key is there while it is live. -/
structure Refines (message : SelfDestructingMessage) (k : Bytes32) (w : Memory) (life : Life) :
    Prop where
  handles : ∀ clone ∈ w.handles, clone = message
  calls : ∀ call ∈ w.calls, call.message = message
  timers : ∀ timer ∈ w.process.timers, timer.key = message.key ∧ message.mode ≠ .readTriggered
  key : w.process.key message.key = if life = .live then some k else none

variable {c : SealCrates} {k : Bytes32} {plaintext : Bytes} {message : SelfDestructingMessage}
  {w : Memory} {life : Life}

/-- An open is the machine's. -/
lemma Refines.openMessage (hopens : World.Opens c k message.ciphertext plaintext)
    (h : Refines message k w life) :
    some (.opened (message.openMessage c w.process).1) = Life.observe plaintext life .open ∧
      (message.openMessage c w.process).2.timers = w.process.timers ∧
      (message.openMessage c w.process).2.key message.key =
        if Life.step message.mode life .open = .live then some k else none := by
  have hkey := h.key
  cases life with
  | gone =>
    rw [if_neg (by decide)] at hkey
    rw [World.openMessage_of_none hkey]
    exact ⟨rfl, rfl, hkey⟩
  | live =>
    rw [if_pos rfl] at hkey
    rw [World.openMessage_of_key hopens hkey]
    cases hmode : message.mode.erasesOnRead with
    | true => simpa [Life.observe, Life.step, hmode, Process.erase, Process.setKey] using
        Process.key_erase_self message.key
    | false => simpa [Life.observe, Life.step, hmode] using hkey

lemma Refines.process (h : Refines message k w life) {p : Process} {life' : Life}
    (htimers : ∀ timer ∈ p.timers, timer ∈ w.process.timers)
    (hkey : p.key message.key = if life' = .live then some k else none) :
    Refines message k { w with process := p } life' :=
  ⟨h.handles, h.calls, fun timer ht => h.timers timer (htimers timer ht), hkey⟩

lemma Refines.setPc (h : Refines message k w life) {i : ℕ} {call : GuardedOpen}
    (hcall : w.calls[i]? = some call) (pc : GuardPc) : Refines message k (w.setPc i call pc) life := by
  refine ⟨h.handles, ?_, h.timers, h.key⟩
  intro other hother
  rcases List.mem_or_eq_of_mem_set hother with hold | rfl
  · exact h.calls other hold
  · exact h.calls call (List.mem_of_getElem? hcall)

/-- The slot is empty exactly when the message is gone. -/
lemma Refines.key_eq_none (h : Refines message k w life) :
    w.process.key message.key = none ↔ life = .gone := by
  rw [h.key]
  cases life <;> simp

/-- Erasing the key is what takes the message away. -/
lemma Refines.erase (h : Refines message k w life) :
    Refines message k { w with process := w.process.erase message.key } .gone :=
  h.process (fun _ ht => ht) (Process.key_erase_self message.key)

lemma Refines.stutter (h : Refines message k w life) (label : KeyLabel)
    (hevent : w.event label = none) :
    Refines message k (w.step c label) life ∧ w.observe c label = none := by
  cases label with
  | clone handle =>
    refine ⟨?_, rfl⟩
    simp only [step]
    cases hhandle : w.handles[handle]? with
    | none => exact h
    | some clone =>
      refine ⟨?_, h.calls, h.timers, h.key⟩
      intro other hother
      rcases List.mem_cons.mp hother with rfl | hold
      · exact h.handles _ (List.mem_of_getElem? hhandle)
      · exact h.handles other hold
  | «open» handle =>
    have hnone : w.handles[handle]? = none := by simpa [event] using hevent
    simpa [step, observe, hnone] using h
  | openWithClockGuard handle store nowMs =>
    refine ⟨?_, rfl⟩
    simp only [step]
    cases hhandle : w.handles[handle]? with
    | none => exact h
    | some clone =>
      refine ⟨h.handles, ?_, h.timers, h.key⟩
      intro call hcall
      rcases List.mem_append.mp hcall with hold | hnew
      · exact h.calls call hold
      · rw [List.mem_singleton.mp hnew]
        exact h.handles clone (List.mem_of_getElem? hhandle)
  | advance i =>
    simp only [step, advance, observe]
    cases hcall : w.calls[i]? with
    | none => exact ⟨h, rfl⟩
    | some call =>
      obtain ⟨clone, store, nowMs, pc⟩ := call
      cases pc with
      | load =>
        refine ⟨?_, rfl⟩
        dsimp only
        cases rollbackAgainst (w.watermarks store) nowMs with
        | some watermarkMs => exact h.setPc hcall _
        | none => exact h.setPc hcall _
      | store =>
        have hset := h.setPc hcall .open
        exact ⟨⟨hset.handles, hset.calls, hset.timers, hset.key⟩, rfl⟩
      | returned => exact ⟨h, rfl⟩
      | expire watermarkMs => simp [event, hcall] at hevent
      | «open» => simp [event, hcall] at hevent
  | expireNow handle =>
    have hnone : w.handles[handle]? = none := by simpa [event] using hevent
    simpa [step, observe, hnone] using h
  | isExpired handle =>
    have hnone : w.handles[handle]? = none := by simpa [event] using hevent
    simpa [step, observe, hnone] using h
  | fireTimer i =>
    have hnone : w.process.dueTimer i = none := by simpa [event] using hevent
    refine ⟨?_, rfl⟩
    simpa [step, Process.fireTimer, hnone] using h
  | elapse duration => exact ⟨h.process (fun _ ht => ht) h.key, rfl⟩

lemma Refines.forward (hopens : World.Opens c k message.ciphertext plaintext)
    (h : Refines message k w life) (label : KeyLabel) (e : LifeEvent)
    (hevent : w.event label = some e) :
    Refines message k (w.step c label) (Life.step message.mode life e) ∧
      w.observe c label = Life.observe plaintext life e := by
  obtain ⟨hresult, htimers, hkey⟩ := h.openMessage hopens
  have hopened : Refines message k { w with process := (message.openMessage c w.process).2 }
      (Life.step message.mode life .open) :=
    h.process (fun timer ht => by rwa [htimers] at ht) hkey
  have hgone : ∀ e, e ≠ .open → e ≠ .isExpired → Life.step message.mode life e = .gone := by
    intro e hopen hexpired
    cases life <;> cases e <;> simp_all [Life.step]
  cases label with
  | clone handle => cases hevent
  | openWithClockGuard handle store nowMs => cases hevent
  | elapse duration => cases hevent
  | «open» handle =>
    obtain ⟨clone, hhandle, rfl⟩ := Option.map_eq_some_iff.mp hevent
    have hclone := h.handles clone (List.mem_of_getElem? hhandle)
    subst hclone
    simp only [step, observe, hhandle, Option.map_some]
    exact ⟨hopened, hresult⟩
  | advance i =>
    simp only [step, advance, observe]
    cases hcall : w.calls[i]? with
    | none => simp [event, hcall] at hevent
    | some call =>
      obtain ⟨clone, store, nowMs, pc⟩ := call
      have hclone : clone = message := h.calls _ (List.mem_of_getElem? hcall)
      subst hclone
      cases pc with
      | expire watermarkMs =>
        simp only [event, hcall, Option.some.injEq] at hevent
        subst hevent
        rw [hgone _ (by simp) (by simp)]
        have herased := (h.setPc hcall .returned).erase
        refine ⟨herased, ?_⟩
        cases life <;> rfl
      | «open» =>
        simp only [event, hcall, Option.some.injEq] at hevent
        subst hevent
        have hset := hopened.setPc hcall .returned
        exact ⟨⟨hset.handles, hset.calls, hset.timers, hset.key⟩, hresult⟩
      | load => simp [event, hcall] at hevent
      | store => simp [event, hcall] at hevent
      | returned => simp [event, hcall] at hevent
  | expireNow handle =>
    obtain ⟨clone, hhandle, rfl⟩ := Option.map_eq_some_iff.mp hevent
    have hclone := h.handles clone (List.mem_of_getElem? hhandle)
    subst hclone
    rw [hgone _ (by simp) (by simp)]
    simp only [step, observe, hhandle]
    refine ⟨h.erase, ?_⟩
    cases life <;> rfl
  | isExpired handle =>
    obtain ⟨clone, hhandle, rfl⟩ := Option.map_eq_some_iff.mp hevent
    have hclone := h.handles clone (List.mem_of_getElem? hhandle)
    subst hclone
    have hsame : Life.step clone.mode life .isExpired = life := by cases life <;> rfl
    rw [hsame]
    refine ⟨h, ?_⟩
    have hlife := h.key
    cases life <;> simp_all [observe, Life.observe, SelfDestructingMessage.isExpired]
  | fireTimer i =>
    obtain ⟨timer, htimer, rfl⟩ := Option.map_eq_some_iff.mp hevent
    rw [hgone _ (by simp) (by simp)]
    have hmem := Process.mem_timers_of_dueTimer htimer
    simp only [step, Process.fireTimer, htimer, (h.timers timer hmem).1]
    refine ⟨?_, ?_⟩
    · apply h.process
      · intro other hother
        exact List.mem_of_mem_eraseIdx hother
      · exact Process.key_erase_self message.key
    · cases life <;> rfl

/-- The memory of one message simulates the machine with two states. -/
lemma simulates (hopens : World.Opens c k message.ciphertext plaintext) :
    Simulates (Refines message k) event (step c) (observe c) (Life.step message.mode)
      (Life.observe plaintext) where
  stutter _ _ label h hevent := h.stutter label hevent
  forward _ _ label e h hevent := h.forward hopens label e hevent

lemma Refines.mode_of_timer (h : Refines message k w life) {label : KeyLabel}
    (hevent : w.event label = some .timer) : message.mode ≠ .readTriggered := by
  cases label with
  | fireTimer i =>
    obtain ⟨timer, htimer, -⟩ := Option.map_eq_some_iff.mp hevent
    exact (h.timers timer (Process.mem_timers_of_dueTimer htimer)).2
  | advance i =>
    simp only [event] at hevent
    split at hevent <;> simp at hevent
  | _ => simp [event] at hevent

/-- Once the message is gone no step touches the slots. -/
lemma Refines.gone_step (hopens : World.Opens c k message.ciphertext plaintext)
    (h : Refines message k w .gone) (label : KeyLabel) :
    Refines message k (w.step c label) .gone ∧ (w.step c label).process.slots = w.process.slots := by
  have hkey : w.process.key message.key = none := h.key
  have hopen := World.openMessage_of_none (c := c) hkey
  refine ⟨?_, ?_⟩
  · cases hevent : w.event label with
    | none => exact (h.stutter label hevent).1
    | some e => exact (h.forward hopens label e hevent).1
  · cases label with
    | clone handle =>
      simp only [step]
      cases w.handles[handle]? <;> rfl
    | openWithClockGuard handle store nowMs =>
      simp only [step]
      cases w.handles[handle]? <;> rfl
    | isExpired handle => rfl
    | elapse duration => rfl
    | «open» handle =>
      simp only [step]
      cases hhandle : w.handles[handle]? with
      | none => rfl
      | some clone =>
        rw [h.handles clone (List.mem_of_getElem? hhandle)]
        simp only [hopen]
    | expireNow handle =>
      simp only [step]
      cases hhandle : w.handles[handle]? with
      | none => rfl
      | some clone =>
        rw [h.handles clone (List.mem_of_getElem? hhandle)]
        exact Process.slots_erase_of_none hkey
    | fireTimer i =>
      simp only [step, Process.fireTimer]
      cases hdue : w.process.dueTimer i with
      | none => rfl
      | some timer =>
        have hmem := Process.mem_timers_of_dueTimer hdue
        dsimp only
        rw [(h.timers timer hmem).1]
        exact Process.slots_erase_of_none hkey
    | advance i =>
      simp only [step, advance]
      cases hcall : w.calls[i]? with
      | none => rfl
      | some call =>
        obtain ⟨clone, store, nowMs, pc⟩ := call
        have hclone : clone = message := h.calls _ (List.mem_of_getElem? hcall)
        subst hclone
        cases pc with
        | load =>
          dsimp only
          cases rollbackAgainst (w.watermarks store) nowMs <;> rfl
        | expire watermarkMs => exact Process.slots_erase_of_none hkey
        | «open» => simp only [hopen]
        | _ => rfl

lemma Refines.gone_run (hopens : World.Opens c k message.ciphertext plaintext)
    (h : Refines message k w .gone) (labels : List KeyLabel) :
    (run (step c) w labels).process.slots = w.process.slots := by
  have hkeep : ∀ v label, (Refines message k v .gone ∧ v.process.slots = w.process.slots) →
      Refines message k (v.step c label) .gone ∧
        (v.step c label).process.slots = w.process.slots := by
    rintro v label ⟨hgone, hslots⟩
    obtain ⟨hnext, hsame⟩ := hgone.gone_step hopens label
    exact ⟨hnext, hsame.trans hslots⟩
  exact (run_invariant hkeep ⟨h, rfl⟩ labels).2

end Memory

def SealCall.mode : SealCall → DestructMode
  | .seal _ _ _ => .timeBound
  | .sealReadTriggered _ _ => .readTriggered
  | .sealCombined _ _ _ => .combined

def combinedCall : SealCall := .sealCombined [104, 105] 1000 1000000000

section Sealed

variable {c : SealCrates} {env : SealEnv} {plaintext : Bytes} {mode : DestructMode} {p process : Process}
  {message : SelfDestructingMessage}

/-- What a seal leaves, apart from its ciphertext. -/
structure Fields (env : SealEnv) (mode : DestructMode) (window : Option ℕ) (p : Process)
    (message : SelfDestructingMessage) (process : Process) (k : Bytes32) : Prop where
  key_eq : message.key = p.slots.length
  slots_eq : process.slots = (p.alloc k).slots
  mode_eq : message.mode = mode
  expires_eq : message.expiresAtMs =
    window.map (fun window => saturatingAdd env.wallClockMs (asMillis window))
  timers : ∀ timer ∈ process.timers,
    (timer.key = message.key ∧ mode ≠ .readTriggered) ∨ timer ∈ p.timers

lemma sealInner_fields {timestampMs expiryWindowMs : UInt64}
    (hseal : SelfDestructingMessage.sealInner c env plaintext mode timestampMs expiryWindowMs p =
      .ok (message, process)) :
    ∃ k, message.key = p.slots.length ∧ process = p.alloc k ∧ message.mode = mode ∧
      message.expiresAtMs =
        if mode = .readTriggered then none else some (saturatingAdd env.wallClockMs expiryWindowMs) := by
  unfold SelfDestructingMessage.sealInner at hseal
  cases hct : c.encrypt (deriveKey c env.seed mode timestampMs expiryWindowMs) env.nonce.toList
    plaintext with
  | error e =>
    simp only [hct] at hseal
    cases hseal
  | ok ct =>
    simp only [hct] at hseal
    cases hseal
    refine ⟨_, rfl, rfl, rfl, ?_⟩
    cases mode <;> rfl

lemma sealTimed_fields {timestampMs : UInt64} {expiryWindow : ℕ} (hmode : mode ≠ .readTriggered)
    (hseal : SelfDestructingMessage.sealTimed c env mode plaintext timestampMs expiryWindow p =
      .ok (message, process)) : ∃ k, Fields env mode (some expiryWindow) p message process k := by
  obtain ⟨p', hinner, rfl⟩ := SelfDestructingMessage.sealTimed_eq_ok hseal
  obtain ⟨k, hkey, rfl, hmode', hexpires⟩ := sealInner_fields hinner
  rw [if_neg hmode] at hexpires
  refine ⟨k, hkey, rfl, hmode', hexpires, ?_⟩
  intro timer hmem
  rcases List.mem_cons.mp hmem with rfl | hold
  · exact Or.inl ⟨rfl, hmode⟩
  · exact Or.inr hold

/-- A seal sets the mode it is for, and a deadline and a timer in the modes that have one. -/
lemma seal_fields {call : SealCall} (hseal : call.run c env p = .ok (message, process)) :
    ∃ k, Fields env call.mode call.window p message process k := by
  cases call with
  | sealReadTriggered plaintext timestampMs =>
    obtain ⟨k, hkey, rfl, hmode, hexpires⟩ :=
      sealInner_fields (SelfDestructingMessage.sealReadTriggered_eq_ok hseal)
    exact ⟨k, hkey, rfl, hmode, hexpires, fun timer hmem => Or.inr hmem⟩
  | «seal» plaintext timestampMs expiryWindow => exact sealTimed_fields DestructMode.noConfusion hseal
  | sealCombined plaintext timestampMs expiryWindow => exact sealTimed_fields DestructMode.noConfusion hseal

lemma refines_sealed (hcorrect : c.Correct) {call : SealCall} {now : ℕ}
    (hseal : call.run c env { now } = .ok (message, process)) (watermarks : ℕ → Option UInt64) :
    ∃ k, World.Opens c k message.ciphertext call.plaintext ∧
      Memory.Refines message k (.sealed message process watermarks) .live := by
  obtain ⟨k, hopens, hkey, hslots, -⟩ := World.seal_spec hcorrect hseal
  obtain ⟨_, hfields⟩ := seal_fields hseal
  refine ⟨k, hopens, ?_, ?_, ?_, ?_⟩
  · intro clone hclone
    exact List.mem_singleton.mp hclone
  · intro call hcall
    cases hcall
  · intro timer hmem
    rcases hfields.timers timer hmem with hnew | hold
    · rwa [hfields.mode_eq]
    · cases hold
  · change process.key message.key = some k
    rw [Process.key_congr hslots, hkey]
    exact Process.key_alloc_self k

end Sealed

/-- A failed open changes nothing. -/
lemma openMessage_of_error {c : SealCrates} {message : SelfDestructingMessage} {p : Process}
    {e : PardaError} (h : (message.openMessage c p).1 = .error e) :
    (message.openMessage c p).2 = p := by
  unfold SelfDestructingMessage.openMessage at *
  cases hkey : p.key message.key with
  | none => rfl
  | some key =>
    rw [hkey] at h
    dsimp only at h ⊢
    by_cases hlength : message.ciphertext.length < nonceLen
    · rw [if_pos hlength]
    · rw [if_neg hlength] at h ⊢
      cases hdecrypt : c.decrypt key (message.ciphertext.take nonceLen)
        (message.ciphertext.drop nonceLen) with
      | error e => rfl
      | ok plaintext =>
        rw [hdecrypt] at h
        cases h

namespace Memory

/-- Every run on a sealed message and its clones shows what the machine with two states
shows. So an open returns the plaintext or fails, a mode that a read erases is read once,
and a message that is gone stays gone; and an open that fails erases nothing, whatever
the crates do. -/
theorem refines_twoState {c : SealCrates} (hcorrect : c.Correct) {env : SealEnv} {call : SealCall}
    {now : ℕ} {message : SelfDestructingMessage} {process : Process}
    (hseal : call.run c env { now } = .ok (message, process)) (watermarks : ℕ → Option UInt64)
    (labels : List KeyLabel) :
    let w := sealed message process watermarks
    let w' := run (step c) w labels
    let events := outputs (step c) event w labels
    let shown := outputs (step c) (observe c) w labels
    (shown = outputs (Life.step call.mode) (Life.observe call.plaintext) .live events ∧
      (w'.process.key message.key = none ↔ run (Life.step call.mode) .live events = .gone) ∧
      (.timer ∈ events → call.mode ≠ .readTriggered)) ∧
    (∀ text, .opened (.ok text) ∈ shown → text = call.plaintext) ∧
    (call.mode.erasesOnRead = true → shown.countP Observation.isRead ≤ 1) ∧
    (w'.process.key message.key = none → ∀ later,
      (∀ o ∈ outputs (step c) (observe c) w' later, Life.Refused o) ∧
        (run (step c) w' later).process.slots = w'.process.slots) ∧
    ∀ (message : SelfDestructingMessage) (p : Process) (e : PardaError),
      (message.openMessage c p).1 = .error e → (message.openMessage c p).2 = p := by
  intro w w' events shown
  obtain ⟨k, hopens, hstart⟩ := refines_sealed hcorrect hseal watermarks
  obtain ⟨_, hfields⟩ := seal_fields hseal
  rw [← hfields.mode_eq]
  obtain ⟨hrefines, hshown⟩ := (simulates hopens).run hstart labels
  refine ⟨⟨hshown, ?_, ?_⟩, ?_, ?_, ?_, fun _ _ _ h => openMessage_of_error h⟩
  · exact hrefines.key_eq_none
  · have hstep : ∀ v label, (∃ life, Refines message k v life) →
        ∃ life, Refines message k (v.step c label) life := by
      rintro v label ⟨life, h⟩
      cases hevent : v.event label with
      | none => exact ⟨life, (h.stutter label hevent).1⟩
      | some e => exact ⟨_, (h.forward hopens label e hevent).1⟩
    have hout : ∀ v label, (∃ life, Refines message k v life) → ∀ e ∈ v.event label,
        e = .timer → message.mode ≠ .readTriggered := by
      rintro v label ⟨life, h⟩ e he rfl
      exact h.mode_of_timer he
    intro htimer
    exact forall_mem_outputs hstep hout ⟨_, hstart⟩ labels _ htimer rfl
  · intro text htext
    change _ ∈ outputs (step c) (observe c) w labels at htext
    rw [hshown] at htext
    exact Life.plaintext_of_read _ htext
  · intro hmode
    change (outputs (step c) (observe c) w labels).countP _ ≤ 1
    rw [hshown]
    exact Life.reads_le_one hmode _
  · intro hgone later
    have hlife : run (Life.step message.mode) .live events = .gone := hrefines.key_eq_none.mp hgone
    rw [hlife] at hrefines
    obtain ⟨-, hlater⟩ := (simulates hopens).run hrefines later
    constructor
    · rw [hlater]
      exact Life.refused_of_gone _
    · exact hrefines.gone_run hopens later

/-- A guarded call that nothing interrupts is `open_with_clock_guard`. -/
theorem guarded_alone (c : SealCrates) (w : Memory) {handle : ℕ} {message : SelfDestructingMessage}
    (hhandle : w.handles[handle]? = some message) (store : ℕ) (nowMs : UInt64) :
    let i := w.calls.length
    let labels : List KeyLabel :=
      [.openWithClockGuard handle store nowMs, .advance i, .advance i, .advance i]
    let w' := run (step c) w labels
    let opened := message.openWithClockGuard c w.process (w.watermarks store) nowMs
    outputs (step c) (observe c) w labels = [.opened opened.1] ∧ w'.process = opened.2.1 ∧
      w'.watermarks store = opened.2.2 := by
  cases hroll : rollbackAgainst (w.watermarks store) nowMs with
  | none =>
    have hclock : ¬World.rolledBack (w.watermarks store) nowMs := by
      rintro ⟨watermarkMs, hmem, hlt⟩
      exact absurd hlt (UInt64.not_lt.mpr (ClockStore.rollbackAgainst_eq_none hroll _ hmem))
    have hcheck := World.checkClockIntegrity_of_not_rolledBack hclock
    simp [outputs_cons, step, observe, advance, setPc, hhandle, hroll, hcheck,
      SelfDestructingMessage.openWithClockGuard]
  | some watermarkMs =>
    obtain ⟨hmark, hlt⟩ := ClockStore.rollbackAgainst_eq_some hroll
    have hcheck : checkClockIntegrity (w.watermarks store) nowMs =
        (.rollbackDetected watermarkMs nowMs, w.watermarks store) := by
      rw [hmark]
      exact if_pos hlt
    simp [outputs_cons, step, observe, advance, setPc, hhandle, hroll, hcheck,
      SelfDestructingMessage.openWithClockGuard]

/-- A guarded call has passed its clock check when a clone is opened. -/
def guardRace : List KeyLabel :=
  [.clone 0, .openWithClockGuard 0 0 2000, .advance 0, .advance 0, .open 1, .advance 0, .isExpired 0]

/-- One of the two opens reads the message. -/
theorem refines_twoState_guardRace :
    let w := sealed (sampleSealed combinedCall).1 (sampleSealed combinedCall).2 fun _ => none
    let shown := outputs (step localSealCrates) (observe localSealCrates) w guardRace
    0 < shown.countP Observation.isRead ∧ shown.countP Observation.isRead ≤ 1 := by
  intro w shown
  have hseal : combinedCall.run localSealCrates sampleSealEnv { now := 0 } =
      .ok ((sampleSealed combinedCall).1, (sampleSealed combinedCall).2) := by decide +kernel
  obtain ⟨-, -, honce, -⟩ :=
    refines_twoState localSealCrates_correct hseal (fun _ => none) guardRace
  exact ⟨by decide +kernel, honce rfl⟩

end Memory

end Parda.ClientStore
