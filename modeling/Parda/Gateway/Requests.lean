import Parda.Protocol.Envelope
import Parda.Server.Routes

/-!
# Identifiers in request URLs

The requests that `protocol/src/transport.rs` `DirectTransport`, `mixnode/src/mixing.rs` `deliver`
and the handlers of `gateway/src/routes.rs` make of the identifiers they are given, each written
into the URL as it is, and what the relay makes of them.
-/

namespace Parda

namespace Gateway

open Protocol Server

/-- A request to the relay. `relay_base_url` is an origin such as `http://127.0.0.1:8080`, and
`target` is the rest of the URL. -/
structure Request where
  method : Method
  target : String

end Gateway

namespace Protocol

namespace DirectTransport

open Gateway

def send (envelope : MessageEnvelope) : Request :=
  ⟨.post, "/v1/messages/" ++ envelope.recipientId⟩

def receive (recipientId : String) : Request :=
  ⟨.get, "/v1/messages/" ++ recipientId⟩

end DirectTransport

end Protocol

namespace Mixnode

open Protocol Gateway

def deliver (envelope : MessageEnvelope) : Request :=
  ⟨.post, "/v1/messages/" ++ envelope.recipientId⟩

end Mixnode

namespace Gateway

open Protocol Server

def uploadPrekeyBundle (userId : String) : Request := ⟨.post, "/v1/keys/" ++ userId⟩

def getPrekeyBundle (userId : String) : Request := ⟨.get, "/v1/keys/" ++ userId⟩

def submitMessage (recipientId : String) : Request := ⟨.post, "/v1/messages/" ++ recipientId⟩

def fetchMessages (userId : String) : Request := ⟨.get, "/v1/messages/" ++ userId⟩

def deleteMessage (userId msgId : String) : Request :=
  ⟨.delete, "/v1/messages/" ++ userId ++ "/" ++ msgId⟩

/-- A call that makes a request. For a handler of the gateway the arguments are its own `Path`
parameters, decoded. -/
inductive Call where
  | directSend (envelope : MessageEnvelope)
  | directReceive (recipientId : String)
  | deliver (envelope : MessageEnvelope)
  | uploadPrekeyBundle (userId : String)
  | getPrekeyBundle (userId : String)
  | submitMessage (recipientId : String)
  | fetchMessages (userId : String)
  | deleteMessage (userId msgId : String)

namespace Call

def request : Call → Request
  | directSend envelope => DirectTransport.send envelope
  | directReceive recipientId => DirectTransport.receive recipientId
  | deliver envelope => Mixnode.deliver envelope
  | uploadPrekeyBundle userId => Gateway.uploadPrekeyBundle userId
  | getPrekeyBundle userId => Gateway.getPrekeyBundle userId
  | submitMessage recipientId => Gateway.submitMessage recipientId
  | fetchMessages userId => Gateway.fetchMessages userId
  | deleteMessage userId msgId => Gateway.deleteMessage userId msgId

/-- The relay's handler of the same name. -/
def handler : Call → Handler
  | directSend _ | deliver _ | submitMessage _ => .submitMessage
  | directReceive _ | fetchMessages _ => .fetchMessages
  | uploadPrekeyBundle _ => .uploadPrekeyBundle
  | getPrekeyBundle _ => .getPrekeyBundle
  | deleteMessage _ _ => .deleteMessage

def ids : Call → List String
  | directSend envelope | deliver envelope => [envelope.recipientId]
  | directReceive id | uploadPrekeyBundle id | getPrekeyBundle id | submitMessage id
  | fetchMessages id => [id]
  | deleteMessage userId msgId => [userId, msgId]

open PathPart in
/-- The path that the request is written after. -/
def path : Call → List PathPart
  | uploadPrekeyBundle _ | getPrekeyBundle _ => [segment "v1", segment "keys", param "user_id"]
  | deleteMessage _ _ => [segment "v1", segment "messages", param "user_id", param "msg_id"]
  | _ => [segment "v1", segment "messages", param "user_id"]

end Call

/-- What the HTTP client and the router leave open: which URLs the client refuses to send, and
whether a path parameter may be empty. -/
structure Http where
  refuses : String → Bool
  emptyParam : Bool → Bool

/-- The request is refused, or it reaches the handler of the same name with the same ids. -/
def Call.IdsReach (http : Http) (call : Call) : Prop :=
  http.refuses call.request.target = true ∨
    dispatch http.emptyParam call.request.method (Url.path call.request.target) =
      .found call.handler call.ids

lemma Call.exists_route (call : Call) :
    ∃ route ∈ app, route.path = call.path ∧
      route.methods.lookup call.request.method = some call.handler := by
  cases call with
  | directSend envelope => exact ⟨app.get ⟨4, by decide⟩, by decide, rfl, rfl⟩
  | directReceive recipientId => exact ⟨app.get ⟨4, by decide⟩, by decide, rfl, rfl⟩
  | deliver envelope => exact ⟨app.get ⟨4, by decide⟩, by decide, rfl, rfl⟩
  | uploadPrekeyBundle userId => exact ⟨app.get ⟨1, by decide⟩, by decide, rfl, rfl⟩
  | getPrekeyBundle userId => exact ⟨app.get ⟨1, by decide⟩, by decide, rfl, rfl⟩
  | submitMessage recipientId => exact ⟨app.get ⟨4, by decide⟩, by decide, rfl, rfl⟩
  | fetchMessages userId => exact ⟨app.get ⟨4, by decide⟩, by decide, rfl, rfl⟩
  | deleteMessage userId msgId => exact ⟨app.get ⟨5, by decide⟩, by decide, rfl, rfl⟩

lemma Call.path_cases (call : Call) :
    call.path = [.segment "v1", .segment "keys", .param "user_id"] ∨
      call.path = [.segment "v1", .segment "messages", .param "user_id"] ∨
      call.path = [.segment "v1", .segment "messages", .param "user_id", .param "msg_id"] := by
  cases call <;> simp [path]

/-- No other route takes the paths that these requests are made for. -/
lemma Call.noRival (call : Call) {route : Route} (hroute : route ∈ app)
    (hpath : route.path = call.path) :
    ∀ r ∈ app, compatible r.path route.path = true → r = route := by
  rw [hpath]
  rcases call.path_cases with h | h | h
  all_goals
    rw [h] at hpath ⊢
    revert route
    decide +kernel

lemma Call.paramCount_path (call : Call) : paramCount call.path = call.ids.length := by
  cases call <;> rfl

lemma Call.target_eq (call : Call) :
    call.request.target.toList =
      '/' :: Url.joined ((fill call.path call.ids).map String.toList) := by
  cases call <;>
    simp [request, path, ids, fill, Url.joined, DirectTransport.send, DirectTransport.receive,
      Mixnode.deliver, Gateway.uploadPrekeyBundle, Gateway.getPrekeyBundle,
      Gateway.submitMessage, Gateway.fetchMessages, Gateway.deleteMessage]

/-- An identifier arrives as it was given exactly when it survives the URL it was written into. -/
theorem Call.idsReach_iff (http : Http) (call : Call) :
    call.IdsReach http ↔
      http.refuses call.request.target = true ∨
        Survives http.emptyParam call.path call.ids := by
  obtain ⟨route, hroute, hpath, hmethod⟩ := call.exists_route
  have hreach : dispatch http.emptyParam call.request.method (Url.path call.request.target) =
      .found call.handler call.ids ↔ Survives http.emptyParam route.path call.ids := by
    apply dispatch_eq_found_iff hroute hmethod (call.noRival hroute hpath)
    · rw [hpath, call.paramCount_path]
    · rw [hpath]
      rcases call.path_cases with h | h | h <;> simp [h]
    · rw [hpath, call.target_eq]
  unfold IdsReach
  rw [hreach, hpath]

def sampleEnvelope (recipientId : String) : MessageEnvelope where
  senderId := "alice"
  recipientId := recipientId
  ciphertext := [1, 2, 3]
  envelopeType := .ratchet
  timestampMs := 0
  sealedSender := false

/-- A client that refuses no URL, and a router that takes empty parameters. -/
def permissive : Http := ⟨fun _ => false, fun _ => true⟩

/-- A receive of `bob?x` drains the queue of `bob`. A message for `../keys/bob` is posted as the
prekey bundle of `bob`, and a receive of it asks for that bundle. -/
theorem Call.not_idsReach_query :
    dispatch permissive.emptyParam .get (Url.path (directReceive "bob?x").request.target) =
      .found .fetchMessages ["bob"] ∧
    dispatch permissive.emptyParam .post
        (Url.path (directSend (sampleEnvelope "../keys/bob")).request.target) =
      .found .uploadPrekeyBundle ["bob"] ∧
    dispatch permissive.emptyParam .get
        (Url.path (directReceive "../keys/bob").request.target) =
      .found .getPrekeyBundle ["bob"] ∧
    ¬(directReceive "bob?x").IdsReach permissive ∧
    ¬(directSend (sampleEnvelope "../keys/bob")).IdsReach permissive := by
  refine ⟨by decide +kernel, by decide +kernel, by decide +kernel, ?_, ?_⟩
  · unfold IdsReach
    decide +kernel
  · unfold IdsReach
    decide +kernel

end Gateway

end Parda
