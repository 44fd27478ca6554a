import Parda.Server.Conservation

/-!
# Mix-routed pulls

`MixTransport::receive`, the mix hops and the relay. A pull request travels through the
hops, each of which answers at once and acts in a detached task of its own; the final one
asks the relay to stage the recipient's queue. The client's `GET` waits for none of this.
A Sphinx packet is modelled by the hops that its layers name and its payload.
-/

namespace Parda.Mixnode

open Machine Protocol Server

structure PullRequest where
  recipientId : String
  rendezvousToken : String
deriving DecidableEq

def minPathLength : ℕ := 3

structure PullPacket where
  nextHops : List String
  request : PullRequest
deriving DecidableEq

/-- `build_packet_to` with the pull tag. The first hop is the one the client posts to. -/
def buildPacketTo (request : PullRequest) (path : List String) : Except PardaError PullPacket :=
  if path.length < minPathLength then
    .error (.mixRouting s!"path length {path.length} is below the minimum of {minPathLength}")
  else .ok ⟨path.tail, request⟩

inductive UnwrapOutcome where
  | forward (nextHopAddress : String) (packet : PullPacket)
  | pullRequest (request : PullRequest)
deriving DecidableEq

def processPacket : PullPacket → UnwrapOutcome
  | ⟨[], request⟩ => .pullRequest request
  | ⟨hop :: hops, request⟩ => .forward hop ⟨hops, request⟩

def UnwrapOutcome.request : UnwrapOutcome → PullRequest
  | .forward _ packet => packet.request
  | .pullRequest request => request

@[simp] lemma processPacket_request (packet : PullPacket) :
    (processPacket packet).request = packet.request := by
  obtain ⟨hops, request⟩ := packet
  cases hops <;> rfl

/-- `submit_message`. An envelope for someone else is rejected. -/
def submitMessage (relay : StoreRun) (recipientId msgId : String) (envelope : MessageEnvelope) :
    StoreRun :=
  if envelope.recipientId ≠ recipientId then relay
  else relay.step (.enqueue recipientId ⟨msgId, envelope⟩)

structure World where
  relay : StoreRun := {}
  /-- The detached tasks of the hops. -/
  tasks : List UnwrapOutcome := []
  /-- The calls of `receive` whose `GET` is still to come. -/
  waiting : List PullRequest := []
  /-- The calls that have done their `GET`, with what it returned. -/
  answered : List (PullRequest × List StoredEnvelope) := []

inductive Label where
  | submitMessage (recipientId msgId : String) (envelope : MessageEnvelope)
  | receive (recipientId rendezvousToken : String) (path : List String)
  | runTask (k : ℕ)
  | insertStage (k : ℕ) (nowMs : UInt64)
  | get (k : ℕ)

namespace World

def requests (w : World) : List PullRequest := w.waiting ++ w.answered.map Prod.fst

/-- The first leg of `receive`. The token is a fresh random one. -/
def receive (w : World) (recipientId rendezvousToken : String) (path : List String) : World :=
  if rendezvousToken ∈ w.requests.map PullRequest.rendezvousToken then w
  else
    match buildPacketTo ⟨recipientId, rendezvousToken⟩ path with
    | .error _ => w
    | .ok packet => { w with
        tasks := processPacket packet :: w.tasks
        waiting := ⟨recipientId, rendezvousToken⟩ :: w.waiting }

/-- A detached task reaches the end of its delay. At the final hop the relay begins the
`stage_pull`. -/
def runTask (w : World) (k : ℕ) : World :=
  match w.tasks[k]? with
  | none => w
  | some (.forward _ packet) => { w with tasks := processPacket packet :: w.tasks.eraseIdx k }
  | some (.pullRequest request) => { w with
      tasks := w.tasks.eraseIdx k
      relay := w.relay.step (.stageDrain request.recipientId request.rendezvousToken) }

/-- The second leg of `receive`, the only `GET` of the call. -/
def get (w : World) (k : ℕ) : World :=
  match w.waiting[k]? with
  | none => w
  | some request => { w with
      relay := w.relay.step (.fetchPull request.rendezvousToken)
      waiting := w.waiting.eraseIdx k
      answered :=
        (request, (w.relay.store.fetchPull request.rendezvousToken).2.getD []) :: w.answered }

def step (w : World) : Label → World
  | .submitMessage recipientId msgId envelope =>
    { w with relay := submitMessage w.relay recipientId msgId envelope }
  | .receive recipientId rendezvousToken path => w.receive recipientId rendezvousToken path
  | .runTask k => w.runTask k
  | .insertStage k nowMs => { w with relay := w.relay.step (.stageInsert k nowMs) }
  | .get k => w.get k

end World

end Parda.Mixnode
