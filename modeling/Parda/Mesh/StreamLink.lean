import Parda.Lib.Frames
import Parda.Mesh.PairedSync

/-!
# Two ends of one sync session, over byte streams

Two agents run `sync_with_peer` over the `BluezLink` of `mesh/src/radio/bluez.rs`: a byte stream
each way that holds a number of unread bytes and lets a writer wait while it is full. Every step is
a local section of a session or one byte that is written or read.
-/

namespace Parda.Mesh

open Protocol Machine

/-- An agent as its session finds it, with the time of the sweep and the order of its map. -/
structure SyncParty where
  cfg : RelayConfig
  store : RelayStore
  sweepMs : UInt64
  order : IterOrder

structure StreamEnd where
  store : RelayStore
  pc : SyncPc := .sweep
  /-- What `send` has still to write. -/
  outgoing : Bytes := []
  /-- What `recv` has read of its frame. -/
  received : Bytes := []
  /-- The unread bytes towards this end. -/
  inbox : Bytes := []
  dropped : Bool := false

abbrev StreamPair := Side → StreamEnd

inductive StreamLabel where
  | advance (x : Side) (nowMs : UInt64)
  | drop (x : Side)

def brokenPipe : MeshError := .link "Broken pipe (os error 32)"

def earlyEof : MeshError := .link "early eof"

def StreamEnd.after (e : StreamEnd) (next : SyncPc × RelayStore × Option SyncMessage) :
    StreamEnd :=
  { e with pc := next.1, store := next.2.1 }

/-- The decoding of `recv_msg`. -/
def decodeMsg (json : SyncJson) (body : Bytes) : Except MeshError SyncMessage :=
  match json.fromSlice body with
  | .ok message => .ok message
  | .error e => .error (.link ("sync message decode failed: " ++ e))

/-- A message that is cut short does not decode. -/
def SyncJson.Whole (json : SyncJson) : Prop :=
  ∀ message bytes, json.toVec message = .ok bytes → ∀ n < bytes.length,
    ∃ e, json.fromSlice (bytes.take n) = .error e

/-- Two agents and the streams between them. -/
structure StreamSync where
  crates : Crates
  json : SyncJson
  party : Side → SyncParty
  capacity : ℕ
  capacity_pos : 0 < capacity

namespace StreamSync

variable (S : StreamSync)

def start : StreamPair := fun x => { store := (S.party x).store }

section Step

variable (w : StreamPair) (x : Side)

def event (e : SyncEvent) : SyncPc × RelayStore × Option SyncMessage :=
  syncStep S.crates (S.party x).cfg (w x).store (w x).pc e

/-- One byte of `send`. -/
def write (b : UInt8) (rest : Bytes) : StreamPair :=
  if (w x.other).dropped then
    Function.update w x ({ w x with outgoing := [] }.after (S.event w x (.broken brokenPipe)))
  else if (w x.other).inbox.length < S.capacity then
    Function.update (Function.update w x { w x with outgoing := rest }) x.other
      { w x.other with inbox := (w x.other).inbox ++ [b] }
  else w

/-- One byte of `recv`, and the session goes on with the last one. -/
def read (nowMs : UInt64) : StreamPair :=
  match (w x).inbox with
  | [] =>
    if (w x.other).dropped then
      Function.update w x ((w x).after (S.event w x (.receive nowMs (.error earlyEof))))
    else w
  | b :: rest =>
    match Frames.body? 4 ((w x).received ++ [b]) with
    | none => Function.update w x { w x with received := (w x).received ++ [b], inbox := rest }
    | some body => Function.update w x ({ w x with received := [], inbox := rest }.after
        (S.event w x (.receive nowMs (decodeMsg S.json body))))

/-- A local section, or the encoding of a message to send. -/
def work : StreamPair :=
  let next := S.event w x (.advance (S.party x).sweepMs (S.party x).order)
  match next.2.2 with
  | none => Function.update w x ((w x).after next)
  | some message =>
    match S.json.toVec message with
    | .error e => Function.update w x
        ((w x).after (S.event w x (.broken (.link ("sync message encode failed: " ++ e)))))
    | .ok bytes => Function.update w x
        { (w x).after next with outgoing := Frames.frame 4 bytes }

def advance (nowMs : UInt64) : StreamPair :=
  match (w x).outgoing with
  | b :: rest => S.write w x b rest
  | [] => if (w x).pc.waiting then S.read w x nowMs else S.work w x

def step (w : StreamPair) : StreamLabel → StreamPair
  | .advance x nowMs => S.advance w x nowMs
  | .drop x => if (w x).pc.isFinished then Function.update w x { w x with dropped := true } else w

/-- A `send` that waits for the peer to read. -/
def Blocked : Prop :=
  (w x).outgoing ≠ [] ∧ (w x.other).dropped = false ∧ S.capacity ≤ (w x.other).inbox.length

/-- The session at `x` has a step to take. -/
def CanStep : Prop :=
  if (w x).outgoing = [] then
    (w x).pc.isFinished = false ∧
      ((w x).pc.waiting = true → (w x).inbox ≠ [] ∨ (w x.other).dropped = true)
  else (w x.other).dropped = true ∨ (w x.other).inbox.length < S.capacity

instance : Decidable (S.CanStep w x) :=
  inferInstanceAs (Decidable (if (w x).outgoing = [] then _ ∧ (_ → _ ∨ _) else _ ∨ _))

end Step

/-- The label runs a step of a session that has one to take. -/
def effective (w : StreamPair) : StreamLabel → ℕ
  | .advance x _ => if S.CanStep w x then 1 else 0
  | .drop _ => 0

/-- A schedule that goes on for as long as a session has a step to take. -/
def Maximal (schedule : ℕ → StreamLabel) : Prop :=
  ∀ n, (∃ x, S.CanStep (trace S.step S.start schedule n) x) →
    ∃ m, n ≤ m ∧ S.effective (trace S.step S.start schedule m) (schedule m) ≠ 0

/-- Both calls have returned `Ok`. -/
def Returned (w : StreamPair) : Prop := ∀ x, ∃ admitted, (w x).pc = .finished (.ok admitted)

/-- The two sessions never wait in a `send` both, and every maximal run ends with two `Ok`. -/
structure DeadlockFree : Prop where
  sends : ∀ labels, ¬∀ x, S.Blocked (run S.step S.start labels) x
  returns : ∀ schedule, S.Maximal schedule → ∃ n, Returned (trace S.step S.start schedule n)

/-! ### What the two stores make the sessions send -/

section Messages

variable (x : Side)

def swept : RelayStore := (S.party x).store.sweepExpired (S.party x).order (S.party x).sweepMs

def myHashes : List BundleHash := (S.party x).order.order (S.swept x).byHash.keys

def want : List BundleHash := wanted (S.party x).cfg (S.myHashes x) (S.myHashes x.other)

def toSend : List Bytes := collected (S.party x).cfg (S.swept x) (S.want x.other)

/-- The messages between two receives: the hashes held, the hashes wanted, the bundles. -/
def exchange : ℕ → List SyncMessage
  | 0 => [.haveHashes (S.myHashes x)]
  | 1 => [.want (S.want x)]
  | 2 => (S.toSend x).map .bundle ++ [.done]
  | _ => []

end Messages

def encoded (message : SyncMessage) : Bytes :=
  match S.json.toVec message with
  | .ok bytes => bytes
  | .error _ => []

/-- The bytes of a sequence of messages on the stream. -/
def framed (messages : List SyncMessage) : Bytes := Frames.frames 4 (messages.map S.encoded)

/-- Every length fits its prefix, and in each exchange a side sends no more than its stream holds. -/
structure Passes : Prop where
  fits : ∀ x k, ∀ message ∈ S.exchange x k, (S.encoded message).length < 2 ^ 32
  flows : ∀ k, ∃ x, (S.framed (S.exchange x k)).length ≤ S.capacity

end StreamSync

end Parda.Mesh
