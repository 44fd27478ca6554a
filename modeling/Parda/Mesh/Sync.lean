import Parda.Lib.Machine
import Parda.Mesh.Relay

/-!
# Epidemic sync sessions

Model of `MeshRelayAgent::sync_with_peer`, cut at its locked sections and awaits. A
session is a program counter with the local variables that are live there. An event is
a local section or a finished send, a received message with the outcome of decoding it,
or an error of the link. The relay agent runs any number of sessions on one store.
-/

namespace Parda.Mesh

open Protocol

inductive SyncMessage where
  | haveHashes (hashes : List BundleHash)
  | want (hashes : List BundleHash)
  | bundle (bytes : Bytes)
  | done
deriving DecidableEq

inductive SyncPc where
  | sweep
  | snapshot
  | sendHave (myHashes : List BundleHash)
  | recvHave (myHashes : List BundleHash)
  | sendWant (want : List BundleHash)
  | recvWant
  | collect (theirWant : List BundleHash)
  | sendBundles (toSend : List Bytes)
  | admitting (admitted sessionBudget : ℕ)
  | finished (result : Except MeshError ℕ)

inductive SyncEvent where
  | advance (nowMs : UInt64) (order : IterOrder)
  | receive (nowMs : UInt64) (message : Except MeshError SyncMessage)
  | broken (error : MeshError)

def unexpected : MeshError := .link "sync protocol violation: message out of order"

/-- The hashes to ask for: those not held, up to the session cap. -/
def wanted (cfg : RelayConfig) (mine theirs : List BundleHash) : List BundleHash :=
  (theirs.filter (fun h => !mine.contains h)).take cfg.maxBundlesPerSession

/-- The bytes to push: what is still held of the first hashes asked for. -/
def collected (cfg : RelayConfig) (s : RelayStore) (theirWant : List BundleHash) : List Bytes :=
  (theirWant.take cfg.maxBundlesPerSession).filterMap
    (fun h => (s.byHash.lookup h).map StoredBundle.bytes)

/-- A received bundle in the admission loop. A refused bundle charges nothing. -/
def syncAdmit (c : Crates) (cfg : RelayConfig) (nowMs : UInt64) (s : RelayStore)
    (admitted sessionBudget : ℕ) (bytes : Bytes) : SyncPc × RelayStore :=
  match s.admitChecked c cfg nowMs bytes (some sessionBudget) with
  | .ok s' => (.admitting (admitted + 1) (sessionBudget - 1), s')
  | .error _ => (.admitting admitted sessionBudget, s)

/-- What a session waiting for a message does with one. -/
def syncReceive (c : Crates) (cfg : RelayConfig) (nowMs : UInt64) (s : RelayStore) :
    SyncPc → SyncMessage → SyncPc × RelayStore
  | .recvHave mine, .haveHashes theirs => (.sendWant (wanted cfg mine theirs), s)
  | .recvWant, .want theirs => (.collect theirs, s)
  | .admitting admitted budget, .bundle bytes => syncAdmit c cfg nowMs s admitted budget bytes
  | .admitting admitted _, .done => (.finished (.ok admitted), s)
  | _, _ => (.finished (.error unexpected), s)

def SyncPc.waiting : SyncPc → Bool
  | .recvHave _ => true
  | .recvWant => true
  | .admitting _ _ => true
  | _ => false

/-- One step of a session, with the message it puts on the link. -/
def syncStep (c : Crates) (cfg : RelayConfig) (s : RelayStore) (pc : SyncPc) :
    SyncEvent → SyncPc × RelayStore × Option SyncMessage
  | .advance nowMs order =>
    match pc with
    | .sweep => (.snapshot, s.sweepExpired order nowMs, none)
    | .snapshot => (.sendHave (order.order s.byHash.keys), s, none)
    | .sendHave mine => (.recvHave mine, s, some (.haveHashes mine))
    | .sendWant want => (.recvWant, s, some (.want want))
    | .collect theirWant => (.sendBundles (collected cfg s theirWant), s, none)
    | .sendBundles (bytes :: rest) => (.sendBundles rest, s, some (.bundle bytes))
    | .sendBundles [] => (.admitting 0 cfg.maxBundlesPerSession, s, some .done)
    | pc => (pc, s, none)
  | .receive nowMs (.ok message) =>
    if pc.waiting then
      let next := syncReceive c cfg nowMs s pc message
      (next.1, next.2, none)
    else (pc, s, none)
  | .receive _ (.error e) => if pc.waiting then (.finished (.error e), s, none) else (pc, s, none)
  | .broken e =>
    match pc with
    | .finished result => (.finished result, s, none)
    | _ => (.finished (.error e), s, none)

/-- A relay agent: the store and its sync sessions. -/
structure Agent where
  store : RelayStore := {}
  sessions : ℕ → SyncPc := fun _ => .sweep

inductive AgentLabel where
  | admitBundle (nowMs : UInt64) (bytes : Bytes)
  | session (i : ℕ) (event : SyncEvent)
  | take (order : IterOrder) (addresses : List Address)
  | sweep (order : IterOrder) (nowMs : UInt64)

def Agent.session (c : Crates) (cfg : RelayConfig) (a : Agent) (i : ℕ) (event : SyncEvent) :
    Agent :=
  let next := syncStep c cfg a.store (a.sessions i) event
  ⟨next.2.1, Function.update a.sessions i next.1⟩

def agentStep (c : Crates) (cfg : RelayConfig) (a : Agent) : AgentLabel → Agent
  | .admitBundle nowMs bytes =>
    match a.store.admitBundle c cfg nowMs bytes with
    | .ok s => { a with store := s }
    | .error _ => a
  | .session i event => a.session c cfg i event
  | .take order addresses => { a with store := (a.store.takeForAddresses order addresses).1 }
  | .sweep order nowMs => { a with store := a.store.sweepExpired order nowMs }

/-- The two ends of a link. -/
inductive Side where
  | a
  | b
deriving DecidableEq, Repr

def Side.other : Side → Side
  | .a => .b
  | .b => .a

@[simp] lemma Side.other_other (x : Side) : x.other.other = x := by
  cases x <;> rfl

@[simp] lemma Side.other_ne (x : Side) : x.other ≠ x := by
  cases x <;> simp [Side.other]

@[simp] lemma Side.ne_other (x : Side) : x ≠ x.other :=
  (Side.other_ne x).symm

lemma Side.eq_or_eq_other (x y : Side) : y = x ∨ y = x.other := by
  cases x <;> cases y <;> simp [Side.other]

lemma Side.forall_iff (x : Side) {p : Side → Prop} : (∀ y, p y) ↔ p x ∧ p x.other := by
  constructor
  · intro h
    exact ⟨h x, h x.other⟩
  · rintro ⟨hx, hother⟩ y
    rcases Side.eq_or_eq_other x y with rfl | rfl
    · exact hx
    · exact hother

section Steps

variable (c : Crates) (cfg : RelayConfig) (s : RelayStore) (pc : SyncPc) (event : SyncEvent)

/-- What one session step can do to the store: nothing, a sweep, or one admission of a
received bundle under the session's budget. -/
lemma syncStep_store :
    (syncStep c cfg s pc event).2.1 = s ∨
    (pc = .sweep ∧ ∃ nowMs order, event = .advance nowMs order ∧
      (syncStep c cfg s pc event).2.1 = s.sweepExpired order nowMs) ∨
    (∃ admitted budget nowMs bytes s', pc = .admitting admitted budget ∧
      event = .receive nowMs (.ok (.bundle bytes)) ∧
      s.admitChecked c cfg nowMs bytes (some budget) = .ok s' ∧
      (syncStep c cfg s pc event).2.1 = s') := by
  cases event with
  | advance nowMs order =>
    cases pc with
    | sweep => exact Or.inr (Or.inl ⟨rfl, nowMs, order, rfl, rfl⟩)
    | sendBundles toSend =>
      cases toSend with
      | nil => exact Or.inl rfl
      | cons bytes rest => exact Or.inl rfl
    | _ => exact Or.inl rfl
  | broken e =>
    cases pc with
    | _ => exact Or.inl rfl
  | receive nowMs message =>
    cases message with
    | error e =>
      cases pc with
      | _ => exact Or.inl rfl
    | ok message =>
      cases pc with
      | admitting admitted budget =>
        cases message with
        | bundle bytes =>
          cases had : s.admitChecked c cfg nowMs bytes (some budget) with
          | error e =>
            left
            simp [syncStep, syncReceive, syncAdmit, SyncPc.waiting, had]
          | ok s' =>
            right
            right
            refine ⟨admitted, budget, nowMs, bytes, s', rfl, rfl, had, ?_⟩
            simp [syncStep, syncReceive, syncAdmit, SyncPc.waiting, had]
        | _ => exact Or.inl rfl
      | recvHave mine =>
        cases message with
        | _ => exact Or.inl rfl
      | recvWant =>
        cases message with
        | _ => exact Or.inl rfl
      | _ => exact Or.inl rfl

end Steps

section Provenance

variable {P : Bytes → Prop}

/-- Every bundle on the message satisfies `P`. -/
def SyncMessage.Within (P : Bytes → Prop) : SyncMessage → Prop
  | .bundle bytes => P bytes
  | _ => True

def SyncPc.Within (P : Bytes → Prop) : SyncPc → Prop
  | .sendBundles toSend => ∀ bytes ∈ toSend, P bytes
  | _ => True

def SyncEvent.Within (P : Bytes → Prop) : SyncEvent → Prop
  | .receive _ (.ok message) => message.Within P
  | _ => True

def RelayStore.Within (P : Bytes → Prop) (s : RelayStore) : Prop :=
  ∀ bytes, s.Holds bytes → P bytes

lemma SyncPc.Within.mono {Q : Bytes → Prop} {pc : SyncPc} (h : pc.Within P)
    (hPQ : ∀ bytes, P bytes → Q bytes) : pc.Within Q := by
  cases pc with
  | sendBundles toSend => exact fun bytes hb => hPQ bytes (h bytes hb)
  | _ => trivial

lemma SyncMessage.Within.mono {Q : Bytes → Prop} {message : SyncMessage} (h : message.Within P)
    (hPQ : ∀ bytes, P bytes → Q bytes) : message.Within Q := by
  cases message with
  | bundle bytes => exact hPQ bytes h
  | _ => trivial

variable {c : Crates} {cfg : RelayConfig} {s s' : RelayStore}

lemma RelayStore.Within.removeAll (hs : s.Within P) (hashes : List BundleHash) :
    (s.removeAll hashes).1.Within P := by
  have hstep : ∀ (acc : RelayStore × List Bytes) (h : BundleHash), acc.1.Within P →
      (RelayStore.removeStep acc h).1.Within P := by
    rintro acc h hacc bytes ⟨k, b, hb, rfl⟩
    rw [RelayStore.removeStep_lookup] at hb
    by_cases hk : k = h
    · rw [if_pos hk] at hb
      cases hb
    · rw [if_neg hk] at hb
      exact hacc _ ⟨k, b, hb, rfl⟩
  exact Machine.run_invariant hstep (s := (s, [])) hs hashes

lemma RelayStore.Within.admitChecked (hs : s.Within P) {nowMs : UInt64} {bytes : Bytes}
    {budget : Option ℕ} (hbytes : P bytes)
    (h : s.admitChecked c cfg nowMs bytes budget = .ok s') : s'.Within P := by
  rintro bytes' ⟨k, b, hb, rfl⟩
  rcases RelayStore.lookup_of_admitChecked h hb with hold | ⟨-, heq, -⟩
  · exact hs _ ⟨k, b, hold, rfl⟩
  · rw [heq]
    exact hbytes

lemma collected_within (hs : s.Within P) (theirWant : List BundleHash) :
    ∀ bytes ∈ collected cfg s theirWant, P bytes := by
  intro bytes hb
  obtain ⟨h, -, heq⟩ := List.mem_filterMap.mp hb
  obtain ⟨b, hlook, rfl⟩ := Option.map_eq_some_iff.mp heq
  exact hs _ ⟨h, b, hlook, rfl⟩

/-- A session step passes on no bundle that was not stored, queued or received before. -/
theorem syncStep_within (c : Crates) (cfg : RelayConfig) {pc : SyncPc} {event : SyncEvent}
    (hs : s.Within P) (hpc : pc.Within P)
    (hevent : event.Within P) :
    (syncStep c cfg s pc event).1.Within P ∧ (syncStep c cfg s pc event).2.1.Within P ∧
      ∀ message, (syncStep c cfg s pc event).2.2 = some message → message.Within P := by
  have hstore : (syncStep c cfg s pc event).2.1.Within P := by
    rcases syncStep_store c cfg s pc event with
      h | ⟨-, nowMs, order, -, h⟩ | ⟨_, _, nowMs, bytes, s', -, rfl, had, h⟩
    · rw [h]
      exact hs
    · rw [h]
      exact hs.removeAll _
    · rw [h]
      exact hs.admitChecked hevent had
  refine ⟨?_, hstore, ?_⟩
  · cases event with
    | broken e => cases pc with
      | _ => trivial
    | receive nowMs message =>
      cases message with
      | error e => cases pc with
        | sendBundles toSend => exact hpc
        | _ => trivial
      | ok message =>
        cases pc with
        | sendBundles toSend => exact hpc
        | admitting admitted budget =>
          cases message with
          | bundle bytes =>
            change (syncAdmit c cfg nowMs s admitted budget bytes).1.Within P
            unfold syncAdmit
            cases s.admitChecked c cfg nowMs bytes (some budget) with
            | _ => trivial
          | _ => trivial
        | recvHave mine => cases message with
          | _ => trivial
        | recvWant => cases message with
          | _ => trivial
        | _ => trivial
    | advance nowMs order =>
      cases pc with
      | collect theirWant => exact collected_within hs theirWant
      | sendBundles toSend =>
        cases toSend with
        | nil => trivial
        | cons bytes rest => exact fun b hb => hpc b (List.mem_cons_of_mem _ hb)
      | _ => trivial
  · intro message hsent
    cases event with
    | broken e => cases pc with
      | _ => cases hsent
    | receive nowMs received =>
      cases received with
      | error e => cases pc with
        | _ => cases hsent
      | ok received => cases pc with
        | _ => cases hsent
    | advance nowMs order =>
      cases pc with
      | sendHave mine =>
        cases hsent
        trivial
      | sendWant want =>
        cases hsent
        trivial
      | sendBundles toSend =>
        cases toSend with
        | nil =>
          cases hsent
          trivial
        | cons bytes rest =>
          cases hsent
          exact hpc bytes List.mem_cons_self
      | _ => cases hsent

end Provenance

end Parda.Mesh
