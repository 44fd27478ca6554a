import Parda.Lib.Machine
import Parda.Lib.Table
import Parda.Mixnode.Peel

/-!
# Mix nodes

Model of `receive_packet` of `mixnode/src/routes.rs` and of `mixnode/src/mixing.rs`: any
number of nodes, what is posted to them and the detached tasks that `schedule` spawns. A
packet is posted by a client, by a cover loop or by anyone else, and may be any bytes.
-/

namespace Parda.Mixnode.Mixnet

open Protocol Machine

structure MixNode where
  address : String
  secretKey : Bytes32

/-- `serde_json::from_slice` on what a final hop recovers. -/
structure PayloadCrates where
  envelopeFromJson : Bytes → Except String MessageEnvelope
  pullRequestFromJson : Bytes → Except String PullRequest

/-- A request that a final hop makes of the relay. -/
inductive RelayPost where
  | deliver (envelope : MessageEnvelope)
  | stagePull (request : PullRequest)
deriving DecidableEq

/-- What a `POST /mix/packet` ends in. -/
inductive Ending where
  | lost
  | refused (e : PardaError)
  | discarded
  | posted (node : String) (post : RelayPost) (atNs : ℕ)
deriving DecidableEq

/-- A `POST /mix/packet` on its way. `origin` numbers the packet that it goes back to, and is
read by no node. -/
structure Posting where
  address : String
  packetBytes : Bytes
  origin : ℕ
deriving DecidableEq

/-- A task of `schedule`, which sleeps until `dueNs`. -/
structure MixTask where
  node : String
  outcome : UnwrapOutcome
  dueNs : ℕ
  origin : ℕ
deriving DecidableEq

/-- A packet that was handed to the network, and when. -/
structure SentPacket where
  sentNs : ℕ
  address : String
  packetBytes : Bytes
deriving DecidableEq

structure Mixes where
  nowNs : ℕ := 0
  sent : List SentPacket := []
  posts : List Posting := []
  tasks : List MixTask := []
  ended : List (ℕ × Ending) := []
deriving DecidableEq

inductive MixLabel where
  | send (address : String) (packetBytes : Bytes)
  | receivePacket (k : ℕ)
  | lose (k : ℕ)
  | runTask (k : ℕ)
  /-- The node stops, and the task with it. -/
  | stop (k : ℕ)
  | wait (ns : ℕ)

def UnwrapOutcome.delayNs : UnwrapOutcome → ℕ
  | .forward _ delay _ => delay.toNat
  | _ => 0

section Nodes

variable (n : NodeCrates) (j : PayloadCrates) (nodes : List MixNode)

def secretAt (address : String) : Option Bytes32 :=
  (nodes.find? fun node => node.address = address).map MixNode.secretKey

/-- `receive_packet`, and the task it schedules. -/
def receivePacket (nowNs : ℕ) (p : Posting) : Except Ending MixTask :=
  match secretAt nodes p.address with
  | none => .error .lost
  | some secretKey =>
    match processPacket n p.packetBytes secretKey with
    | .error e => .error (.refused e)
    | .ok outcome => .ok ⟨p.address, outcome, nowNs + outcome.delayNs, p.origin⟩

/-- `deliver`. -/
def deliver (envelopeBytes : Bytes) : Option RelayPost :=
  match j.envelopeFromJson envelopeBytes with
  | .ok envelope => some (.deliver envelope)
  | .error _ => none

/-- `stage_pull`. -/
def stagePull (requestBytes : Bytes) : Option RelayPost :=
  match j.pullRequestFromJson requestBytes with
  | .ok request => some (.stagePull request)
  | .error _ => none

def endingOf (nowNs : ℕ) (node : String) : Option RelayPost → Ending
  | some post => .posted node post nowNs
  | none => .discarded

/-- The body of the task, once it has slept: what it posts to the next hop, or the end. -/
def runTask (nowNs : ℕ) (t : MixTask) : Except Ending Posting :=
  match t.outcome with
  | .forward nextHopAddress _ packetBytes => .ok ⟨nextHopAddress, packetBytes, t.origin⟩
  | .deliver envelopeBytes => .error (endingOf nowNs t.node (deliver j envelopeBytes))
  | .pullRequest requestBytes => .error (endingOf nowNs t.node (stagePull j requestBytes))
  | .dropCover => .error .discarded

namespace Mixes

def send (w : Mixes) (address : String) (packetBytes : Bytes) : Mixes :=
  { w with
    sent := w.sent ++ [⟨w.nowNs, address, packetBytes⟩]
    posts := ⟨address, packetBytes, w.sent.length⟩ :: w.posts }

def finish (w : Mixes) (origin : ℕ) (ending : Ending) : Mixes :=
  { w with ended := (origin, ending) :: w.ended }

def step (w : Mixes) : MixLabel → Mixes
  | .send address packetBytes => w.send address packetBytes
  | .receivePacket k =>
    match w.posts[k]? with
    | none => w
    | some p =>
      let w := { w with posts := w.posts.eraseIdx k }
      match receivePacket n nodes w.nowNs p with
      | .ok task => { w with tasks := task :: w.tasks }
      | .error ending => w.finish p.origin ending
  | .lose k =>
    match w.posts[k]? with
    | none => w
    | some p => { w with posts := w.posts.eraseIdx k }.finish p.origin .lost
  | .runTask k =>
    match w.tasks[k]? with
    | none => w
    | some t =>
      if w.nowNs < t.dueNs then w
      else
        let w := { w with tasks := w.tasks.eraseIdx k }
        match runTask j w.nowNs t with
        | .ok p => { w with posts := p :: w.posts }
        | .error ending => w.finish t.origin ending
  | .stop k =>
    match w.tasks[k]? with
    | none => w
    | some t => { w with tasks := w.tasks.eraseIdx k }.finish t.origin .lost
  | .wait ns => { w with nowNs := w.nowNs + ns }

/-- Where the packets are, by their origins. -/
def origins (w : Mixes) : Multiset ℕ :=
  (w.posts.map Posting.origin : Multiset ℕ) + (w.tasks.map MixTask.origin : Multiset ℕ) +
    (w.ended.map Prod.fst : Multiset ℕ)

end Mixes

end Nodes

end Parda.Mixnode.Mixnet
