import Parda.Lib.Codec
import Parda.Protocol.Envelope

/-!
# Self-destructing messages

Model of `protocol/src/clock_guard.rs` and `protocol/src/self_destruct.rs`. The shared
key slots, the pending expiry timers and the monotonic clock make up the process; a
message holds the index of its slot, and clones of it hold the same index. Durations and
instants are in nanoseconds.
-/

namespace Parda.Protocol

/-- `hkdf` with `sha2` and no salt, and `chacha20poly1305` on a key, a nonce and a text. -/
structure SealCrates where
  hkdfSha256 : Bytes → Bytes → Bytes32
  encrypt : Bytes32 → Bytes → Bytes → Except String Bytes
  decrypt : Bytes32 → Bytes → Bytes → Except String Bytes

/-- What was encrypted decrypts under the same key and nonce. -/
def SealCrates.Correct (c : SealCrates) : Prop :=
  ∀ key nonce plaintext ct, c.encrypt key nonce plaintext = .ok ct →
    c.decrypt key nonce ct = .ok plaintext

inductive ClockCheck where
  | ok
  | rollbackDetected (watermarkMs observedMs : UInt64)
deriving DecidableEq

/-- The check on the stored watermark, with the watermark it leaves. -/
def checkClockIntegrity (watermark : Option UInt64) (nowMs : UInt64) : ClockCheck × Option UInt64 :=
  match watermark with
  | some watermarkMs =>
    if nowMs < watermarkMs then (.rollbackDetected watermarkMs nowMs, watermark)
    else (.ok, some nowMs)
  | none => (.ok, some nowMs)

inductive DestructMode where
  | timeBound
  | readTriggered
  | combined
deriving DecidableEq, Repr

namespace DestructMode

def tag : DestructMode → UInt8
  | .timeBound => 0
  | .readTriggered => 1
  | .combined => 2

def erasesOnRead (mode : DestructMode) : Bool := mode = .readTriggered || mode = .combined

end DestructMode

def kdfContext : Bytes := asciiBytes "PARDA-Phase3-SelfDestructKey-V1"

def nonceLen : ℕ := 12

def deriveKey (c : SealCrates) (seed : Bytes32) (mode : DestructMode)
    (timestampMs expiryWindowMs : UInt64) : Bytes32 :=
  c.hkdfSha256 seed.toList
    (kdfContext ++ [mode.tag] ++ Codec.beBytes 8 timestampMs.toNat ++
      Codec.beBytes 8 expiryWindowMs.toNat)

/-- `Duration::as_millis() as u64`. -/
def asMillis (duration : ℕ) : UInt64 := UInt64.ofNat (duration / 1000000)

/-- `Duration::from_millis`. -/
def fromMillis (ms : UInt64) : ℕ := ms.toNat * 1000000

/-- `u64::saturating_add`. -/
def saturatingAdd (a b : UInt64) : UInt64 :=
  if a.toNat + b.toNat ≤ u64Max then a + b else UInt64.ofNat u64Max

/-- A task of `spawn_expiry_timer` that sleeps until its deadline. -/
structure Timer where
  key : ℕ
  deadline : ℕ
deriving DecidableEq

/-- Where an `Instant` ends, which has its seconds in an `i64`. -/
def instantEnd : ℕ := 2 ^ 63 * 10 ^ 9

structure Process where
  slots : List (Option Bytes32) := []
  timers : List Timer := []
  now : ℕ := 0
deriving DecidableEq

namespace Process

/-- The key in a slot. -/
def key (p : Process) (slot : ℕ) : Option Bytes32 := (p.slots[slot]?).join

/-- A new slot, at index `p.slots.length`. -/
def alloc (p : Process) (key : Bytes32) : Process := { p with slots := p.slots ++ [some key] }

def setKey (p : Process) (slot : ℕ) (key : Option Bytes32) : Process :=
  { p with slots := p.slots.set slot key }

def erase (p : Process) (slot : ℕ) : Process := p.setKey slot none

def spawnExpiryTimer (p : Process) (slot expiryWindow : ℕ) : Process :=
  { p with timers := ⟨slot, p.now + expiryWindow⟩ :: p.timers }

/-- A timer that is due. -/
def dueTimer (p : Process) (i : ℕ) : Option Timer :=
  p.timers[i]?.filter (fun timer => timer.deadline ≤ p.now)

/-- The task of a timer that is due wakes and erases its key. -/
def fireTimer (p : Process) (i : ℕ) : Process :=
  match p.dueTimer i with
  | some timer => { p with timers := p.timers.eraseIdx i }.erase timer.key
  | none => p

variable {p : Process}

lemma dueTimer_eq_some {i : ℕ} {timer : Timer} :
    p.dueTimer i = some timer ↔ p.timers[i]? = some timer ∧ timer.deadline ≤ p.now := by
  unfold dueTimer
  rw [Option.filter_eq_some_iff, decide_eq_true_iff]

lemma dueTimer_eq_none {i : ℕ} (h : ∀ timer, p.timers[i]? = some timer → ¬timer.deadline ≤ p.now) :
    p.dueTimer i = none := by
  rw [Option.eq_none_iff_forall_ne_some]
  intro timer hdue
  rw [dueTimer_eq_some] at hdue
  exact h timer hdue.1 hdue.2

lemma mem_timers_of_dueTimer {i : ℕ} {timer : Timer} (h : p.dueTimer i = some timer) :
    timer ∈ p.timers :=
  List.mem_of_getElem? (dueTimer_eq_some.mp h).1

lemma fireTimer_of_due {i : ℕ} {timer : Timer} (h : p.dueTimer i = some timer) :
    p.fireTimer i = { p.erase timer.key with timers := p.timers.eraseIdx i } := by
  unfold fireTimer
  rw [h]
  rfl

lemma key_congr {p' : Process} (h : p.slots = p'.slots) (slot : ℕ) : p.key slot = p'.key slot := by
  unfold key
  rw [h]

lemma key_erase_self (slot : ℕ) : (p.erase slot).key slot = none := by
  unfold erase setKey key
  by_cases hslot : slot < p.slots.length
  · rw [List.getElem?_set_self hslot]
    rfl
  · rw [List.getElem?_eq_none (by rw [List.length_set]; exact not_lt.mp hslot)]
    rfl

lemma key_erase_of_ne {slot slot' : ℕ} (h : slot ≠ slot') : (p.erase slot).key slot' = p.key slot' := by
  unfold erase setKey key
  rw [List.getElem?_set_ne h]

lemma length_slots_erase (slot : ℕ) : (p.erase slot).slots.length = p.slots.length :=
  List.length_set

/-- Erasing again changes nothing. -/
lemma slots_erase_of_none {slot : ℕ} (h : p.key slot = none) : (p.erase slot).slots = p.slots := by
  change p.slots.set slot none = p.slots
  apply List.ext_getElem?
  intro i
  by_cases hi : slot = i
  · subst hi
    rw [List.getElem?_set_self']
    unfold key at h
    cases hslot : p.slots[slot]? with
    | none => rfl
    | some content =>
      rw [hslot] at h
      cases content with
      | none => rfl
      | some key => cases h
  · rw [List.getElem?_set_ne hi]

lemma key_alloc_of_lt {slot : ℕ} (h : slot < p.slots.length) (key : Bytes32) :
    (p.alloc key).key slot = p.key slot := by
  unfold alloc Process.key
  rw [List.getElem?_append_left h]

lemma key_alloc_self (key : Bytes32) : (p.alloc key).key p.slots.length = some key := by
  unfold alloc Process.key
  rw [List.getElem?_concat_length]
  rfl

lemma lt_length_of_key {slot : ℕ} {k : Bytes32} (h : p.key slot = some k) : slot < p.slots.length := by
  by_contra hslot
  unfold key at h
  rw [List.getElem?_eq_none (not_lt.mp hslot)] at h
  cases h

end Process

structure SelfDestructingMessage where
  ciphertext : Bytes
  /-- The slot of the key. -/
  key : ℕ
  mode : DestructMode
  expiresAtMs : Option UInt64
deriving DecidableEq

/-- Why a seal yields no message: it fails, or its deadline is no `Instant`. -/
inductive SealFailure where
  | error (e : PardaError)
  | panicked
deriving DecidableEq

structure PersistedSelfDestructState where
  ciphertext : Bytes
  keyBytes : Bytes32
  mode : DestructMode
  expiresAtMs : Option UInt64
deriving DecidableEq

/-- What a `seal` draws and reads besides its arguments. -/
structure SealEnv where
  seed : Bytes32
  nonce : List.Vector UInt8 nonceLen
  wallClockMs : UInt64

namespace SelfDestructingMessage

section Seal

variable (c : SealCrates) (env : SealEnv)

def sealInner (plaintext : Bytes) (mode : DestructMode) (timestampMs expiryWindowMs : UInt64)
    (p : Process) : Except PardaError (SelfDestructingMessage × Process) :=
  let key := deriveKey c env.seed mode timestampMs expiryWindowMs
  match c.encrypt key env.nonce.toList plaintext with
  | .error e => .error (.selfDestructCrypto e)
  | .ok ct => .ok (
      { ciphertext := env.nonce.toList ++ ct
        key := p.slots.length
        mode
        expiresAtMs := match mode with
          | .readTriggered => none
          | .timeBound | .combined => some (saturatingAdd env.wallClockMs expiryWindowMs) },
      p.alloc key)

/-- A seal that arms the expiry timer. -/
def sealTimed (mode : DestructMode) (plaintext : Bytes) (timestampMs : UInt64) (expiryWindow : ℕ)
    (p : Process) : Except SealFailure (SelfDestructingMessage × Process) :=
  match sealInner c env plaintext mode timestampMs (asMillis expiryWindow) p with
  | .error e => .error (.error e)
  | .ok (message, p) =>
    -- `TokioInstant::now() + expiry_window` panics past the end.
    if p.now + expiryWindow < instantEnd then
      .ok (message, p.spawnExpiryTimer message.key expiryWindow)
    else .error .panicked

/-- `seal`. -/
def sealMessage (plaintext : Bytes) (timestampMs : UInt64) (expiryWindow : ℕ) (p : Process) :
    Except SealFailure (SelfDestructingMessage × Process) :=
  sealTimed c env .timeBound plaintext timestampMs expiryWindow p

def sealReadTriggered (plaintext : Bytes) (timestampMs : UInt64) (p : Process) :
    Except SealFailure (SelfDestructingMessage × Process) :=
  match sealInner c env plaintext .readTriggered timestampMs 0 p with
  | .error e => .error (.error e)
  | .ok sealed => .ok sealed

def sealCombined (plaintext : Bytes) (timestampMs : UInt64) (expiryWindow : ℕ) (p : Process) :
    Except SealFailure (SelfDestructingMessage × Process) :=
  sealTimed c env .combined plaintext timestampMs expiryWindow p

variable {c env} {plaintext : Bytes} {timestampMs : UInt64} {p process : Process}
  {message : SelfDestructingMessage}

lemma sealTimed_eq_ok {mode : DestructMode} {expiryWindow : ℕ}
    (h : sealTimed c env mode plaintext timestampMs expiryWindow p = .ok (message, process)) :
    ∃ p', sealInner c env plaintext mode timestampMs (asMillis expiryWindow) p = .ok (message, p') ∧
      process = p'.spawnExpiryTimer message.key expiryWindow := by
  unfold sealTimed at h
  cases hinner : sealInner c env plaintext mode timestampMs (asMillis expiryWindow) p with
  | error e =>
    rw [hinner] at h
    cases h
  | ok inner =>
    rw [hinner] at h
    dsimp only at h
    split at h
    · cases h
      exact ⟨inner.2, rfl, rfl⟩
    · cases h

lemma sealReadTriggered_eq_ok
    (h : sealReadTriggered c env plaintext timestampMs p = .ok (message, process)) :
    sealInner c env plaintext .readTriggered timestampMs 0 p = .ok (message, process) := by
  unfold sealReadTriggered at h
  split at h
  · cases h
  · rename_i hinner
    rw [hinner, Except.ok.inj h]

end Seal

variable (c : SealCrates) (message : SelfDestructingMessage) (p : Process)

def expireNow : Process := p.erase message.key

def isExpired : Bool := (p.key message.key).isNone

/-- `open`, which holds the lock on the slot throughout. -/
def openMessage : Except PardaError Bytes × Process :=
  match p.key message.key with
  | none => (.error .selfDestructExpired, p)
  | some key =>
    if message.ciphertext.length < nonceLen then
      (.error (.selfDestructCrypto "stored ciphertext shorter than the nonce prefix"), p)
    else
      match c.decrypt key (message.ciphertext.take nonceLen) (message.ciphertext.drop nonceLen) with
      | .error e => (.error (.selfDestructCrypto e), p)
      | .ok plaintext =>
        (.ok plaintext, if message.mode.erasesOnRead then p.erase message.key else p)

/-- `open_with_clock_guard`, with the watermark it leaves. -/
def openWithClockGuard (watermark : Option UInt64) (nowMs : UInt64) :
    Except PardaError Bytes × Process × Option UInt64 :=
  match checkClockIntegrity watermark nowMs with
  | (.rollbackDetected watermarkMs observedMs, watermark) =>
    (.error (.clockRollbackDetected observedMs watermarkMs), message.expireNow p, watermark)
  | (.ok, watermark) =>
    let (result, p) := message.openMessage c p
    (result, p, watermark)

def exportForPersistence : Except PardaError PersistedSelfDestructState :=
  match p.key message.key with
  | none => .error .selfDestructExpired
  | some key => .ok ⟨message.ciphertext, key, message.mode, message.expiresAtMs⟩

/-- `restore`, with the watermark it leaves. -/
def restore (state : PersistedSelfDestructState) (watermark : Option UInt64) (nowMs : UInt64)
    (p : Process) : Except PardaError (SelfDestructingMessage × Process) × Option UInt64 :=
  match checkClockIntegrity watermark nowMs with
  | (.rollbackDetected watermarkMs observedMs, watermark) =>
    (.error (.clockRollbackDetected observedMs watermarkMs), watermark)
  | (.ok, watermark) =>
    let message : SelfDestructingMessage :=
      ⟨state.ciphertext, p.slots.length, state.mode, state.expiresAtMs⟩
    match state.expiresAtMs with
    | none => (.ok (message, p.alloc state.keyBytes), watermark)
    | some deadline =>
      if deadline ≤ nowMs then (.error .selfDestructExpired, watermark)
      else
        -- Less than `2 ^ 64` milliseconds are far from the end of `Instant`.
        (.ok (message, (p.alloc state.keyBytes).spawnExpiryTimer message.key
          (fromMillis (deadline - nowMs))), watermark)

end SelfDestructingMessage

end Parda.Protocol
