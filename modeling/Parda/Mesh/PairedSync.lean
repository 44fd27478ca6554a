import Parda.Lib.Grammar
import Parda.Mesh.LocalCrates
import Parda.Mesh.Sync

/-!
# Two ends of one sync session

Two relays run `sync_with_peer` against each other over a link of
`mesh/src/radio/simulated.rs`: an unbounded queue of encoded messages each way, on which
a send never waits. An end of the link goes away some time after its call has returned,
and then the other end's sends fail, and its receives once its queue is empty. Anything
may happen to the stores between two steps.
-/

namespace Parda.Mesh

open Protocol Machine

/-- `serde_json` on sync messages. -/
structure SyncJson where
  toVec : SyncMessage → Except String Bytes
  fromSlice : Bytes → Except String SyncMessage

/-- A message decodes from what it was encoded to. -/
def SyncJson.RoundTrip (json : SyncJson) : Prop :=
  ∀ message, ∃ bytes, json.toVec message = .ok bytes ∧ json.fromSlice bytes = .ok message

/-- A codec of sync messages that reads back what it writes. -/
def syncMessageCodec : PrefixCodec SyncMessage :=
  (LocalCrates.byteCodec.prod <| LocalCrates.bytes32Codec.list.prod LocalCrates.byteCodec.list).comap
    (fun
      | .haveHashes hashes => (0, hashes, [])
      | .want hashes => (1, hashes, [])
      | .bundle bytes => (2, [], bytes)
      | .done => (3, [], []))
    (fun (tag, hashes, bytes) =>
      if tag = 0 then .haveHashes hashes
      else if tag = 1 then .want hashes
      else if tag = 2 then .bundle bytes
      else .done)
    fun message => by cases message <;> rfl

def localSyncJson : SyncJson where
  toVec message := .ok (syncMessageCodec.encode message)
  fromSlice := LocalCrates.decodeWhole syncMessageCodec

lemma localSyncJson_roundTrip : localSyncJson.RoundTrip :=
  fun message => ⟨_, rfl, LocalCrates.decodeWhole_encode syncMessageCodec message⟩

/-- A bundle for the address that repeats the byte `k`, good for a minute from 1000. -/
def carriedBundle (k : UInt8) : Bytes :=
  localCrates.bundleToCbor ⟨⟨deadDropUri (List.Vector.replicate 32 k), 1000, 60000⟩, some [k]⟩

/-- What a relay holds that has admitted the bundles. -/
def carrying (bundles : List Bytes) : RelayStore :=
  (run (agentStep localCrates {}) {} (bundles.map (AgentLabel.admitBundle 2000))).store

def partitioned : Side → RelayStore
  | .a => carrying [carriedBundle 0, carriedBundle 1]
  | .b => carrying [carriedBundle 2]

structure SyncEnd where
  store : RelayStore
  pc : SyncPc := .sweep
  /-- The bytes in flight towards this end. -/
  inbox : List Bytes := []
  dropped : Bool := false

abbrev SyncPair := Side → SyncEnd

/-- `advance` runs the next local section, send or receive of one end's session. -/
inductive PairLabel where
  | advance (x : Side) (nowMs : UInt64) (order : IterOrder)
  | drop (x : Side)
  | interfere (x : Side) (store : RelayStore)

def peerLinkClosed : MeshError := .link "peer link closed"

def SyncPc.isFinished : SyncPc → Bool
  | .finished _ => true
  | _ => false

/-- `send_msg`, with the peer's end after it. -/
def sendMsg (json : SyncJson) (peer : SyncEnd) (message : SyncMessage) : Except MeshError SyncEnd :=
  match json.toVec message with
  | .error e => .error (.link ("sync message encode failed: " ++ e))
  | .ok bytes =>
    if peer.dropped then .error peerLinkClosed
    else .ok { peer with inbox := peer.inbox ++ [bytes] }

/-- `recv_msg`, with the rest of the queue; it is still waiting when there is none. -/
def recvMsg (json : SyncJson) (inbox : List Bytes) (peerDropped : Bool) :
    Option (Except MeshError SyncMessage × List Bytes) :=
  match inbox with
  | [] => if peerDropped then some (.error peerLinkClosed, []) else none
  | bytes :: rest =>
    match json.fromSlice bytes with
    | .ok message => some (.ok message, rest)
    | .error e => some (.error (.link ("sync message decode failed: " ++ e)), rest)

def SyncEnd.after (e : SyncEnd) (next : SyncPc × RelayStore × Option SyncMessage) : SyncEnd :=
  { e with pc := next.1, store := next.2.1 }

namespace SyncPair

def start (stores : Side → RelayStore) : SyncPair := fun x => { store := stores x }

section Step

variable (c : Crates) (cfg : Side → RelayConfig) (json : SyncJson)

def advance (w : SyncPair) (x : Side) (nowMs : UInt64) (order : IterOrder) : SyncPair :=
  let e := w x
  let event := syncStep c (cfg x) e.store e.pc
  if e.pc.waiting then
    match recvMsg json e.inbox (w x.other).dropped with
    | none => w
    | some (message, rest) =>
      Function.update w x ({ e with inbox := rest }.after (event (.receive nowMs message)))
  else
    let next := event (.advance nowMs order)
    match next.2.2 with
    | none => Function.update w x (e.after next)
    | some message =>
      match sendMsg json (w x.other) message with
      | .ok peer => Function.update (Function.update w x (e.after next)) x.other peer
      | .error err => Function.update w x (e.after (event (.broken err)))

def step (w : SyncPair) : PairLabel → SyncPair
  | .advance x nowMs order => w.advance c cfg json x nowMs order
  | .drop x => if (w x).pc.isFinished then Function.update w x { w x with dropped := true } else w
  | .interfere x store => Function.update w x { w x with store }

end Step

/-- The session at `x` has a step to take. -/
def CanStep (w : SyncPair) (x : Side) : Prop :=
  (w x).pc.isFinished = false ∧
    ((w x).pc.waiting = true → (w x).inbox ≠ [] ∨ (w x.other).dropped = true)

instance (w : SyncPair) (x : Side) : Decidable (w.CanStep x) :=
  inferInstanceAs (Decidable (_ ∧ (_ → _ ∨ _)))

def Stuck (w : SyncPair) : Prop := ∀ x, ¬w.CanStep x

/-- Both calls have returned `Ok` and nothing is in flight. -/
def Completed (w : SyncPair) : Prop :=
  ∀ x, (∃ admitted, (w x).pc = .finished (.ok admitted)) ∧ (w x).inbox = []

/-- The label runs a step of a session that has one to take. -/
def effective (w : SyncPair) : PairLabel → ℕ
  | .advance x _ _ => if w.CanStep x then 1 else 0
  | _ => 0

/-- A schedule that goes on for as long as a session has a step to take. -/
def Maximal (c : Crates) (cfg : Side → RelayConfig) (json : SyncJson) (w : SyncPair)
    (schedule : ℕ → PairLabel) : Prop :=
  ∀ n, ¬(trace (step c cfg json) w schedule n).Stuck →
    ∃ m, n ≤ m ∧ (trace (step c cfg json) w schedule m).effective (schedule m) ≠ 0

end SyncPair

/-- What a side still has to write on the link. -/
inductive SyncPhase where
  | opening
  | asking
  | pushing
  | closed
deriving DecidableEq

def SyncPhase.depth : SyncPhase → ℕ
  | .opening => 0
  | .asking => 1
  | .pushing => 2
  | .closed => 3

/-- Have, Want, any number of bundles, Done. -/
def SyncPhase.next : SyncPhase → SyncMessage → Option SyncPhase
  | .opening, .haveHashes _ => some .asking
  | .asking, .want _ => some .pushing
  | .pushing, .bundle _ => some .pushing
  | .pushing, .done => some .closed
  | _, _ => none

namespace SyncPc

/-- The phase up to which a session has read its peer's stream. -/
def readPhase : SyncPc → SyncPhase
  | .sweep | .snapshot | .sendHave _ | .recvHave _ => .opening
  | .sendWant _ | .recvWant => .asking
  | .collect _ | .sendBundles _ | .admitting _ _ => .pushing
  | .finished _ => .closed

/-- The phase up to which a session has written its own stream. -/
def writePhase : SyncPc → SyncPhase
  | .sweep | .snapshot | .sendHave _ => .opening
  | .recvHave _ | .sendWant _ => .asking
  | .recvWant | .collect _ | .sendBundles _ => .pushing
  | .admitting _ _ | .finished _ => .closed

/-- A session has not failed. -/
def Fine (pc : SyncPc) : Prop := ∀ e, pc ≠ .finished (.error e)

/-- A bound on the steps a session can still take, and its peer to read what it sends. -/
def work (cfg : RelayConfig) : SyncPc → ℕ
  | .sweep => 2 * cfg.maxBundlesPerSession + 9
  | .snapshot => 2 * cfg.maxBundlesPerSession + 8
  | .sendHave _ => 2 * cfg.maxBundlesPerSession + 7
  | .recvHave _ | .sendWant _ => 2 * cfg.maxBundlesPerSession + 5
  | .recvWant | .collect _ => 2 * cfg.maxBundlesPerSession + 3
  | .sendBundles toSend => 2 * toSend.length + 2
  | .admitting _ _ | .finished _ => 0

variable {pc : SyncPc}

lemma readPhase_lt_writePhase (h : pc.waiting = true) :
    pc.readPhase.depth < pc.writePhase.depth := by
  cases pc <;> simp_all [waiting, readPhase, writePhase, SyncPhase.depth]

lemma readPhase_eq_closed_iff : pc.readPhase = .closed ↔ pc.isFinished = true := by
  cases pc <;> simp [readPhase, isFinished]

lemma writePhase_ne_closed (hwait : pc.waiting = false) (hfin : pc.isFinished = false) :
    pc.writePhase ≠ .closed := by
  cases pc <;> simp_all [waiting, writePhase, isFinished]

lemma not_isFinished_of_waiting (h : pc.waiting = true) : pc.isFinished = false := by
  cases pc <;> simp_all [waiting, isFinished]

/-- A session that runs on has not failed. -/
lemma Fine.of_running (h : pc.isFinished = false) : pc.Fine := by
  rintro e rfl
  cases h

lemma exists_result (h : pc.isFinished = true) : ∃ result, pc = .finished result := by
  cases pc with
  | finished result => exact ⟨result, rfl⟩
  | _ => cases h

lemma writePhase_of_isFinished (h : pc.isFinished = true) : pc.writePhase = .closed := by
  cases pc <;> simp_all [writePhase, isFinished]

end SyncPc

lemma SyncPhase.next_closed (message : SyncMessage) : SyncPhase.closed.next message = none := by
  cases message <;> rfl

section Steps

variable {c : Crates} {cfg : RelayConfig} {pc : SyncPc} {nowMs : UInt64}

/-- A local section writes nothing, and a send writes the next message of the grammar. -/
lemma syncStep_advance (c : Crates) (cfg : RelayConfig) (nowMs : UInt64) (s : RelayStore)
    (order : IterOrder) (hwait : pc.waiting = false)
    (hfin : pc.isFinished = false) :
    let next := syncStep c cfg s pc (.advance nowMs order)
    next.1.isFinished = false ∧ next.1.readPhase = pc.readPhase ∧
      ((next.2.2 = none ∧ next.1.writePhase = pc.writePhase ∧ next.1.work cfg < pc.work cfg) ∨
        ∃ message, next.2.2 = some message ∧
          pc.writePhase.next message = some next.1.writePhase ∧
          next.1.work cfg + 1 < pc.work cfg) := by
  cases pc with
  | collect theirWant =>
    have hlen : (collected cfg s theirWant).length ≤ cfg.maxBundlesPerSession := by
      unfold collected
      exact (List.length_filterMap_le _ _).trans (List.length_take_le _ _)
    refine ⟨rfl, rfl, Or.inl ⟨rfl, rfl, ?_⟩⟩
    simp only [syncStep, SyncPc.work]
    omega
  | sendBundles toSend =>
    cases toSend with
    | nil => exact ⟨rfl, rfl, Or.inr ⟨.done, rfl, rfl, by simp [syncStep, SyncPc.work]⟩⟩
    | cons bytes rest =>
      refine ⟨rfl, rfl, Or.inr ⟨.bundle bytes, rfl, rfl, ?_⟩⟩
      simp only [syncStep, SyncPc.work, List.length_cons]
      omega
  | sendHave mine => exact ⟨rfl, rfl, Or.inr ⟨.haveHashes mine, rfl, rfl, by simp [syncStep, SyncPc.work]⟩⟩
  | sendWant want => exact ⟨rfl, rfl, Or.inr ⟨.want want, rfl, rfl, by simp [syncStep, SyncPc.work]⟩⟩
  | sweep => exact ⟨rfl, rfl, Or.inl ⟨rfl, rfl, by simp [syncStep, SyncPc.work]⟩⟩
  | snapshot => exact ⟨rfl, rfl, Or.inl ⟨rfl, rfl, by simp [syncStep, SyncPc.work]⟩⟩
  | recvHave mine => simp [SyncPc.waiting] at hwait
  | recvWant => simp [SyncPc.waiting] at hwait
  | admitting admitted budget => simp [SyncPc.waiting] at hwait
  | finished result => simp [SyncPc.isFinished] at hfin

/-- A waiting session that reads the next message of the grammar goes on. -/
lemma syncStep_receive (c : Crates) (cfg : RelayConfig) (nowMs : UInt64) (s : RelayStore)
    {message : SyncMessage} {phase : SyncPhase}
    (hwait : pc.waiting = true) (hnext : pc.readPhase.next message = some phase) :
    let next := syncStep c cfg s pc (.receive nowMs (.ok message))
    next.1.Fine ∧ next.1.readPhase = phase ∧ next.1.writePhase = pc.writePhase ∧
      next.1.work cfg ≤ pc.work cfg := by
  cases pc with
  | recvHave mine =>
    cases message with
    | haveHashes theirs =>
      cases hnext
      exact ⟨fun e => by simp [syncStep, SyncPc.waiting, syncReceive], rfl, rfl, le_rfl⟩
    | _ => cases hnext
  | recvWant =>
    cases message with
    | want theirs =>
      cases hnext
      exact ⟨fun e => by simp [syncStep, SyncPc.waiting, syncReceive], rfl, rfl, le_rfl⟩
    | _ => cases hnext
  | admitting admitted budget =>
    cases message with
    | bundle bytes =>
      cases hnext
      have hadmitted : syncStep c cfg s (.admitting admitted budget) (.receive nowMs (.ok (.bundle bytes))) =
          ((syncAdmit c cfg nowMs s admitted budget bytes).1,
            (syncAdmit c cfg nowMs s admitted budget bytes).2, none) := rfl
      rw [hadmitted]
      unfold syncAdmit
      cases s.admitChecked c cfg nowMs bytes (some budget) with
      | error e => exact ⟨fun e => by simp, rfl, rfl, le_rfl⟩
      | ok s' => exact ⟨fun e => by simp, rfl, rfl, le_rfl⟩
    | done =>
      cases hnext
      exact ⟨fun e => by simp [syncStep, SyncPc.waiting, syncReceive], rfl, rfl, le_rfl⟩
    | _ => cases hnext
  | _ => simp [SyncPc.waiting] at hwait

end Steps

namespace SyncPair

/-- The messages in flight towards an end. -/
def inFlight (json : SyncJson) (inbox : List Bytes) : List SyncMessage :=
  inbox.filterMap (fun bytes => (json.fromSlice bytes).toOption)

section InFlight

variable {json : SyncJson} {inbox : List Bytes} {bytes : Bytes} {message : SyncMessage}

lemma inFlight_concat (h : json.fromSlice bytes = .ok message) :
    inFlight json (inbox ++ [bytes]) = inFlight json inbox ++ [message] := by
  simp [inFlight, h, Except.toOption]

lemma inFlight_cons (h : json.fromSlice bytes = .ok message) :
    inFlight json (bytes :: inbox) = message :: inFlight json inbox := by
  simp [inFlight, h, Except.toOption]

end InFlight

/-- The queue towards an end decodes and takes the end to where its peer is, the end goes
away only after its session, and the session has not failed. -/
structure Linked (json : SyncJson) (e peer : SyncEnd) : Prop where
  decodes : ∀ bytes ∈ e.inbox, ∃ message, json.fromSlice bytes = .ok message
  carries : Grammar.Carries SyncPhase.next e.pc.readPhase (inFlight json e.inbox) peer.pc.writePhase
  dropped : e.dropped = true → e.pc.isFinished = true
  fine : e.pc.Fine

def Ordered (json : SyncJson) (w : SyncPair) : Prop := ∀ x, Linked json (w x) (w x.other)

lemma Linked.present {json : SyncJson} {e peer : SyncEnd} (h : Linked json e peer)
    (hfin : e.pc.isFinished = false) : e.dropped = false := by
  by_contra hdrop
  rw [h.dropped (by simpa using hdrop)] at hfin
  cases hfin

section Runs

variable (c : Crates) (cfg : Side → RelayConfig) (json : SyncJson)

/-- What `advance` can do when the link does its part. -/
inductive Advanced (w : SyncPair) (x : Side) (nowMs : UInt64) (order : IterOrder) : SyncPair → Prop
  | idle (h : ¬w.CanStep x) : Advanced w x nowMs order w
  | ran (hwait : (w x).pc.waiting = false) (hfin : (w x).pc.isFinished = false)
      (hsilent : (syncStep c (cfg x) (w x).store (w x).pc (.advance nowMs order)).2.2 = none) :
      Advanced w x nowMs order (Function.update w x
        ((w x).after (syncStep c (cfg x) (w x).store (w x).pc (.advance nowMs order))))
  | sent (message : SyncMessage) (bytes : Bytes) (hwait : (w x).pc.waiting = false)
      (hfin : (w x).pc.isFinished = false)
      (hmessage : (syncStep c (cfg x) (w x).store (w x).pc (.advance nowMs order)).2.2 = some message)
      (hbytes : json.fromSlice bytes = .ok message) :
      Advanced w x nowMs order (Function.update (Function.update w x
        ((w x).after (syncStep c (cfg x) (w x).store (w x).pc (.advance nowMs order)))) x.other
        { w x.other with inbox := (w x.other).inbox ++ [bytes] })
  | received (message : SyncMessage) (bytes : Bytes) (rest : List Bytes)
      (hwait : (w x).pc.waiting = true) (hinbox : (w x).inbox = bytes :: rest)
      (hbytes : json.fromSlice bytes = .ok message) :
      Advanced w x nowMs order (Function.update w x ({ w x with inbox := rest }.after
        (syncStep c (cfg x) (w x).store (w x).pc (.receive nowMs (.ok message)))))

variable {c cfg json} {w : SyncPair}

/-- The peer of a session that still writes has not gone away. -/
lemma Ordered.peer_present (h : w.Ordered json) {x : Side} (hwait : (w x).pc.waiting = false)
    (hfin : (w x).pc.isFinished = false) : (w x.other).dropped = false := by
  by_contra hdrop
  have hpeer : (w x.other).pc.readPhase = .closed :=
    SyncPc.readPhase_eq_closed_iff.mpr ((h x.other).dropped (by simpa using hdrop))
  have hcarries := (h x.other).carries
  rw [hpeer, Side.other_other] at hcarries
  obtain ⟨-, hclosed⟩ := hcarries.eq_nil SyncPhase.next_closed
  exact SyncPc.writePhase_ne_closed hwait hfin hclosed

/-- A session that waits on an empty queue has a peer that still runs. -/
lemma Ordered.peer_running (h : w.Ordered json) {x : Side} (hwait : (w x).pc.waiting = true)
    (hinbox : (w x).inbox = []) : (w x.other).pc.isFinished = false := by
  by_contra hfin
  have hcarries := (h x).carries
  rw [SyncPc.writePhase_of_isFinished (by simpa using hfin), hinbox] at hcarries
  have hread : (w x).pc.readPhase = .closed := Grammar.carries_nil.mp hcarries
  rw [SyncPc.readPhase_eq_closed_iff, SyncPc.not_isFinished_of_waiting hwait] at hread
  cases hread

lemma advance_cases (hjson : json.RoundTrip) (h : w.Ordered json) (x : Side) (nowMs : UInt64)
    (order : IterOrder) :
    Advanced c cfg json w x nowMs order (w.advance c cfg json x nowMs order) := by
  by_cases hwait : (w x).pc.waiting = true
  · cases hinbox : (w x).inbox with
    | nil =>
      have hdrop := (h x.other).present (h.peer_running hwait hinbox)
      have hstay : w.advance c cfg json x nowMs order = w := by
        simp [advance, hwait, hinbox, recvMsg, hdrop]
      rw [hstay]
      exact .idle (by simp [CanStep, hwait, hinbox, hdrop])
    | cons bytes rest =>
      obtain ⟨message, hbytes⟩ := (h x).decodes bytes (by simp [hinbox])
      have hnext : w.advance c cfg json x nowMs order =
          Function.update w x ({ w x with inbox := rest }.after
            (syncStep c (cfg x) (w x).store (w x).pc (.receive nowMs (.ok message)))) := by
        simp [advance, hwait, hinbox, recvMsg, hbytes]
      rw [hnext]
      exact .received message bytes rest hwait hinbox hbytes
  rw [Bool.not_eq_true] at hwait
  by_cases hfin : (w x).pc.isFinished = true
  · have hstay : syncStep c (cfg x) (w x).store (w x).pc (.advance nowMs order) =
        ((w x).pc, (w x).store, none) := by
      obtain ⟨result, hpc⟩ := SyncPc.exists_result hfin
      rw [hpc]
      rfl
    have hsame : w.advance c cfg json x nowMs order = w := by
      simp [advance, hwait, hstay, SyncEnd.after]
    rw [hsame]
    exact .idle (by simp [CanStep, hfin])
  rw [Bool.not_eq_true] at hfin
  cases hmessage : (syncStep c (cfg x) (w x).store (w x).pc (.advance nowMs order)).2.2 with
  | none =>
    have hnext : w.advance c cfg json x nowMs order = Function.update w x ((w x).after
        (syncStep c (cfg x) (w x).store (w x).pc (.advance nowMs order))) := by
      simp [advance, hwait, hmessage]
    rw [hnext]
    exact .ran hwait hfin hmessage
  | some message =>
    obtain ⟨bytes, hvec, hbytes⟩ := hjson message
    have hpeer := h.peer_present hwait hfin
    have hnext : w.advance c cfg json x nowMs order =
        Function.update (Function.update w x ((w x).after
          (syncStep c (cfg x) (w x).store (w x).pc (.advance nowMs order)))) x.other
          { w x.other with inbox := (w x.other).inbox ++ [bytes] } := by
      simp [advance, hwait, hmessage, sendMsg, hvec, hpeer]
    rw [hnext]
    exact .sent message bytes hwait hfin hmessage hbytes

lemma ordered_start (stores : Side → RelayStore) : (start stores).Ordered json := by
  intro x
  constructor
  · intro bytes hb
    simp [start] at hb
  · simp [start, inFlight, SyncPc.readPhase, SyncPc.writePhase]
  · intro hd
    simp [start] at hd
  · exact SyncPc.Fine.of_running rfl

lemma Ordered.advanced {w' : SyncPair} {x : Side} {nowMs : UInt64} {order : IterOrder}
    (h : w.Ordered json) (hadv : Advanced c cfg json w x nowMs order w') : w'.Ordered json := by
  have hpeer := h x.other
  rw [Side.other_other] at hpeer
  cases hadv with
  | idle _ => exact h
  | ran hwait hfin hsilent =>
    obtain ⟨hrun, hread, ⟨-, hwrite, -⟩ | ⟨message, hsome, -⟩⟩ :=
      syncStep_advance c (cfg x) nowMs (w x).store order hwait hfin
    · refine (Side.forall_iff x).mpr ⟨?_, ?_⟩
      · constructor
        · simpa [SyncEnd.after] using (h x).decodes
        · simpa [SyncEnd.after, hread] using (h x).carries
        · simp [SyncEnd.after, (h x).present hfin]
        · simpa [SyncEnd.after] using SyncPc.Fine.of_running hrun
      · have hcarries := hpeer.carries
        rw [← hwrite] at hcarries
        simpa using { hpeer with carries := hcarries }
    · rw [hsilent] at hsome
      cases hsome
  | sent message bytes hwait hfin hmessage hbytes =>
    obtain ⟨hrun, hread, ⟨hnone, -⟩ | ⟨message', hsome, hnext, -⟩⟩ :=
      syncStep_advance c (cfg x) nowMs (w x).store order hwait hfin
    · rw [hmessage] at hnone
      cases hnone
    · rw [hmessage, Option.some.injEq] at hsome
      subst hsome
      refine (Side.forall_iff x).mpr ⟨?_, ?_⟩
      · constructor
        · simpa [SyncEnd.after] using (h x).decodes
        · simpa [SyncEnd.after, hread] using (h x).carries
        · simp [SyncEnd.after, (h x).present hfin]
        · simpa [SyncEnd.after] using SyncPc.Fine.of_running hrun
      · constructor
        · intro bytes' hb
          rcases (by simpa using hb : bytes' ∈ (w x.other).inbox ∨ bytes' = bytes) with hold | rfl
          · exact hpeer.decodes bytes' hold
          · exact ⟨message, hbytes⟩
        · simpa [SyncEnd.after, inFlight_concat hbytes] using hpeer.carries.concat hnext
        · simpa using hpeer.dropped
        · simpa using hpeer.fine
  | received message bytes rest hwait hinbox hbytes =>
    have hcarries := (h x).carries
    rw [hinbox, inFlight_cons hbytes, Grammar.carries_cons] at hcarries
    obtain ⟨phase, hphase, hrest⟩ := hcarries
    obtain ⟨hfine, hread, hwrite, -⟩ :=
      syncStep_receive c (cfg x) nowMs (w x).store hwait hphase
    refine (Side.forall_iff x).mpr ⟨?_, ?_⟩
    · constructor
      · intro bytes' hb
        apply (h x).decodes
        rw [hinbox]
        exact List.mem_cons_of_mem _ (by simpa [SyncEnd.after] using hb)
      · simpa [SyncEnd.after, hread] using hrest
      · simp [SyncEnd.after, (h x).present (SyncPc.not_isFinished_of_waiting hwait)]
      · simpa [SyncEnd.after] using hfine
    · have hpeerCarries := hpeer.carries
      rw [← hwrite] at hpeerCarries
      simpa using { hpeer with carries := hpeerCarries }

lemma ordered_step (hjson : json.RoundTrip) (h : w.Ordered json) (label : PairLabel) :
    (w.step c cfg json label).Ordered json := by
  cases label with
  | advance x nowMs order => exact h.advanced (advance_cases hjson h x nowMs order)
  | drop x =>
    have hpeer := h x.other
    by_cases hfin : (w x).pc.isFinished = true
    · rw [step, if_pos hfin]
      have hx : Linked json { w x with dropped := true } (w x.other) :=
        { h x with dropped := fun _ => hfin }
      rw [Side.other_other] at hpeer
      refine (Side.forall_iff x).mpr ⟨?_, ?_⟩
      · simpa using hx
      · simpa using { hpeer with carries := hpeer.carries }
    · rw [step, if_neg hfin]
      exact h
  | interfere x store =>
    have hpeer := h x.other
    rw [Side.other_other] at hpeer
    have hx : Linked json { w x with store } (w x.other) := { h x with carries := (h x).carries }
    refine (Side.forall_iff x).mpr ⟨?_, ?_⟩
    · simpa [step] using hx
    · simpa [step] using { hpeer with carries := hpeer.carries }

/-- A state in which neither session can go on is one in which both have returned. -/
lemma Ordered.completed_of_stuck (h : w.Ordered json) (hstuck : w.Stuck) : w.Completed := by
  -- a session that is not done waits, on an empty queue
  have hstarved : ∀ x, (w x).pc.isFinished = false →
      (w x).pc.waiting = true ∧ (w x).inbox = [] ∧ (w x.other).dropped = false := by
    intro x hfin
    have hno := hstuck x
    simp only [CanStep, hfin, true_and, Classical.not_imp, not_or, not_not,
      Bool.not_eq_true] at hno
    exact hno
  have hdone : ∀ x, (w x).pc.isFinished = true := by
    intro x
    by_contra hfin
    rw [Bool.not_eq_true] at hfin
    obtain ⟨hwait, hinbox, -⟩ := hstarved x hfin
    have hpeer := h.peer_running hwait hinbox
    obtain ⟨hwait', hinbox', -⟩ := hstarved x.other hpeer
    have hcarries := (h x).carries
    have hcarries' := (h x.other).carries
    rw [Side.other_other] at hcarries'
    rw [hinbox] at hcarries
    rw [hinbox'] at hcarries'
    exact Grammar.not_both_starved (SyncPc.readPhase_lt_writePhase hwait)
      (SyncPc.readPhase_lt_writePhase hwait') hcarries hcarries'
  intro x
  constructor
  · obtain ⟨result, hpc⟩ := SyncPc.exists_result (hdone x)
    cases result with
    | ok admitted => exact ⟨admitted, hpc⟩
    | error e => exact absurd hpc ((h x).fine e)
  · have hcarries := (h x).carries
    rw [SyncPc.readPhase_eq_closed_iff.mpr (hdone x)] at hcarries
    obtain ⟨hnil, -⟩ := hcarries.eq_nil SyncPhase.next_closed
    rw [List.eq_nil_iff_forall_not_mem]
    intro bytes hb
    obtain ⟨message, hbytes⟩ := (h x).decodes bytes hb
    have hmem : message ∈ inFlight json (w x).inbox :=
      List.mem_filterMap.mpr ⟨bytes, hb, by simp [hbytes, Except.toOption]⟩
    rw [hnil] at hmem
    cases hmem

/-- A bound on the steps that both sessions still take. -/
def remaining (cfg : Side → RelayConfig) (w : SyncPair) : ℕ :=
  ((w .a).pc.work (cfg .a) + (w .a).inbox.length) + ((w .b).pc.work (cfg .b) + (w .b).inbox.length)

lemma remaining_eq (cfg : Side → RelayConfig) (w : SyncPair) (x : Side) :
    w.remaining cfg = ((w x).pc.work (cfg x) + (w x).inbox.length) +
      ((w x.other).pc.work (cfg x.other) + (w x.other).inbox.length) := by
  cases x with
  | a => rfl
  | b => exact Nat.add_comm _ _

/-- A step that a session has to take brings the end nearer. -/
lemma Advanced.remaining_lt {w' : SyncPair} {x : Side} {nowMs : UInt64} {order : IterOrder}
    (h : w.Ordered json) (hadv : Advanced c cfg json w x nowMs order w') :
    w.effective (.advance x nowMs order) + w'.remaining cfg ≤ w.remaining cfg := by
  have hone : w.effective (.advance x nowMs order) ≤ 1 := by
    simp only [effective]
    split <;> omega
  rw [remaining_eq cfg w x, remaining_eq cfg w' x]
  cases hadv with
  | idle hno => simp [effective, hno]
  | ran hwait hfin hsilent =>
    obtain ⟨-, -, ⟨-, -, hwork⟩ | ⟨message, hsome, -⟩⟩ :=
      syncStep_advance c (cfg x) nowMs (w x).store order hwait hfin
    · simp only [SyncEnd.after, Function.update_self, Function.update_of_ne (Side.other_ne x)]
      omega
    · rw [hsilent] at hsome
      cases hsome
  | sent message bytes hwait hfin hmessage hbytes =>
    obtain ⟨-, -, ⟨hnone, -⟩ | ⟨message', -, -, hwork⟩⟩ :=
      syncStep_advance c (cfg x) nowMs (w x).store order hwait hfin
    · rw [hmessage] at hnone
      cases hnone
    · simp only [SyncEnd.after, Function.update_self, Function.update_of_ne (Side.ne_other x),
        List.length_append, List.length_singleton]
      omega
  | received message bytes rest hwait hinbox hbytes =>
    have hcarries := (h x).carries
    rw [hinbox, inFlight_cons hbytes, Grammar.carries_cons] at hcarries
    obtain ⟨phase, hphase, -⟩ := hcarries
    obtain ⟨-, -, -, hwork⟩ :=
      syncStep_receive c (cfg x) nowMs (w x).store hwait hphase
    simp only [SyncEnd.after, Function.update_self, Function.update_of_ne (Side.other_ne x),
      hinbox, List.length_cons]
    omega

lemma effective_add_remaining (hjson : json.RoundTrip) (h : w.Ordered json) (label : PairLabel) :
    w.effective label + (w.step c cfg json label).remaining cfg ≤ w.remaining cfg := by
  cases label with
  | advance x nowMs order => exact (advance_cases hjson h x nowMs order).remaining_lt h
  | drop x =>
    by_cases hfin : (w x).pc.isFinished = true
    · rw [step, if_pos hfin, remaining_eq cfg w x, remaining_eq cfg _ x]
      simp [effective]
    · rw [step, if_neg hfin]
      simp [effective]
  | interfere x store =>
    rw [remaining_eq cfg w x, remaining_eq cfg _ x]
    simp [step, effective]

lemma remaining_start (stores : Side → RelayStore) :
    (start stores).remaining cfg =
      2 * ((cfg .a).maxBundlesPerSession + (cfg .b).maxBundlesPerSession) + 18 := by
  simp only [remaining, start, SyncPc.work, List.length_nil]
  omega

/-- Sessions that are given their steps return. -/
lemma exists_completed (hjson : json.RoundTrip) (h : w.Ordered json) (nowMs : UInt64)
    (order : IterOrder) :
    ∃ labels : List PairLabel, (∀ label ∈ labels, ∃ x, label = .advance x nowMs order) ∧
      (run (step c cfg json) w labels).Completed := by
  induction hn : w.remaining cfg using Nat.strong_induction_on generalizing w with
  | _ n ih =>
    by_cases hstuck : w.Stuck
    · exact ⟨[], by simp, h.completed_of_stuck hstuck⟩
    · obtain ⟨x, hx⟩ := not_forall_not.mp hstuck
      have hless : (w.step c cfg json (.advance x nowMs order)).remaining cfg < n := by
        have hpaid : w.effective (.advance x nowMs order) +
            (w.step c cfg json (.advance x nowMs order)).remaining cfg ≤ w.remaining cfg :=
          effective_add_remaining hjson h _
        rw [effective, if_pos hx] at hpaid
        omega
      obtain ⟨labels, hlabels, hdone⟩ := ih _ hless (ordered_step hjson h _) rfl
      refine ⟨.advance x nowMs order :: labels, ?_, hdone⟩
      rw [List.forall_mem_cons]
      exact ⟨⟨x, rfl⟩, hlabels⟩

end Runs

/-- Two sessions on one link never block each other and never read a message out of
order, whatever happens to the stores: a state in which neither can go on is one in which
both have returned `Ok` and the link is empty, there are only so many steps to take, and
a schedule that takes them reaches that state. -/
theorem sync_deadlock_free (c : Crates) (cfg : Side → RelayConfig) (json : SyncJson)
    (hjson : json.RoundTrip) (stores : Side → RelayStore) :
    (∀ labels, EveryState (step c cfg json)
      (fun w => (w.Stuck → w.Completed) ∧ ∀ x, (w x).pc.Fine) (start stores) labels) ∧
    (∀ labels, total (step c cfg json) effective (start stores) labels ≤
      2 * ((cfg .a).maxBundlesPerSession + (cfg .b).maxBundlesPerSession) + 18) ∧
    ∀ schedule, Maximal c cfg json (start stores) schedule →
      ∃ n, ∀ m, n ≤ m → (trace (step c cfg json) (start stores) schedule m).Completed := by
  have hstart : (start stores).Ordered json := ordered_start stores
  have hstep : ∀ w label, Ordered json w → Ordered json (w.step c cfg json label) :=
    fun w label h => ordered_step hjson h label
  have hcost : ∀ w label, Ordered json w →
      w.effective label + (w.step c cfg json label).remaining cfg ≤ w.remaining cfg :=
    fun w label h => effective_add_remaining hjson h label
  refine ⟨?_, ?_, ?_⟩
  · intro labels
    apply (everyState_of_step hstep hstart labels).mono
    intro w h
    exact ⟨h.completed_of_stuck, fun x => (h x).fine⟩
  · intro labels
    have hpaid := total_add_le (remaining cfg) hstep hcost hstart labels
    rw [remaining_start] at hpaid
    omega
  · intro schedule hmax
    obtain ⟨n, hn⟩ := exists_forall_cost_eq_zero (remaining cfg) hstep hcost hstart schedule
    refine ⟨n, fun m hm => ?_⟩
    apply (trace_invariant hstep hstart schedule m).completed_of_stuck
    by_contra hstuck
    obtain ⟨k, hk, hne⟩ := hmax m hstuck
    exact hne (hn k (hm.trans hk))

/-- Two relays with two bundles and one, whose sessions may move three bundles and one. -/
theorem sync_deadlock_free_partitioned :
    let cfg : Side → RelayConfig := fun
      | .a => { maxBundlesPerSession := 3 }
      | .b => { maxBundlesPerSession := 1 }
    (∀ labels, EveryState (step localCrates cfg localSyncJson)
      (fun w => (w.Stuck → w.Completed) ∧ ∀ x, (w x).pc.Fine) (start partitioned) labels) ∧
    (∀ labels, total (step localCrates cfg localSyncJson) effective (start partitioned) labels ≤
      2 * (3 + 1) + 18) ∧
    ∀ schedule, Maximal localCrates cfg localSyncJson (start partitioned) schedule →
      ∃ n, ∀ m, n ≤ m →
        (trace (step localCrates cfg localSyncJson) (start partitioned) schedule m).Completed :=
  sync_deadlock_free localCrates _ localSyncJson localSyncJson_roundTrip partitioned

end SyncPair

end Parda.Mesh
