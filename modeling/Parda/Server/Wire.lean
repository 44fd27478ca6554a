import Parda.Mesh.LocalCrates
import Parda.Protocol.EnvelopeJson
import Parda.Server.Base64
import Parda.Server.Store

/-!
# Envelopes on the wire

The forms an envelope takes on its way: by itself; beside the relay's id, as `server/src/models.rs`
stores and returns it; as a client reads that; and as the payload of a mesh bundle.
-/

namespace Parda.Server

open Protocol Json

namespace StoredEnvelope

/-- `#[serde(flatten)]`: the id stands among the envelope's own fields. -/
def toFields (b : Base64) (s : StoredEnvelope) : List (String × Json) :=
  ("id", JsonCodec.string.toJson s.id) :: s.envelope.toFields b

/-- The envelope is read from what is left when the id is taken out. -/
def ofFields (b : Base64) (fields : List (String × Json)) : Option StoredEnvelope := do
  let id ← required JsonCodec.string "id" fields
  let envelope ← MessageEnvelope.ofFields b (fields.filter fun field => field.1 ≠ "id")
  return { id, envelope }

variable {b : Base64}

lemma ne_id_of_mem {name : String} (h : name ∈ MessageEnvelope.fieldNames) : name ≠ "id" := by
  rintro rfl
  revert h
  decide

/-- An envelope has no field for the id, and reads past it. -/
lemma envelope_ofFields (s : StoredEnvelope) :
    MessageEnvelope.ofFields b (s.toFields b) = some s.envelope := by
  rw [← MessageEnvelope.ofFields_toFields (b := b) s.envelope]
  apply MessageEnvelope.ofFields_congr
  intro name hname
  exact lookup_cons_of_ne (ne_id_of_mem hname).symm _

theorem ofFields_toFields (s : StoredEnvelope) : ofFields b (s.toFields b) = some s := by
  have hid : required JsonCodec.string "id" (s.toFields b) = some s.id :=
    required_of_lookup _ (by simp [toFields, MessageEnvelope.toFields])
  have henvelope : MessageEnvelope.ofFields b
      ((s.toFields b).filter fun field => field.1 ≠ "id") = some s.envelope := by
    rw [← envelope_ofFields (b := b) s]
    apply MessageEnvelope.ofFields_congr
    intro name hname
    exact lookup_filter (p := fun name => name ≠ "id") (by simpa using ne_id_of_mem hname)
  unfold ofFields
  rw [hid, henvelope]
  rfl

def json (b : Base64) : JsonCodec StoredEnvelope where
  toJson s := .object (s.toFields b)
  ofJson
    | .object fields => ofFields b fields
    | _ => none
  round_trip s := ofFields_toFields s

lemma json_fits {depth : ℕ} : (json b).Fits (depth + 2) := by
  intro s field hf
  rcases List.mem_cons.mp hf with rfl | hf
  · exact JsonCodec.string_fits _
  · exact MessageEnvelope.toFields_fits s.envelope field hf

end StoredEnvelope

/-- `FetchMessagesResponse`: of stored envelopes on the relay, of envelopes in
`protocol/src/transport.rs`. -/
def fetchMessagesResponseJson {α : Type} (c : JsonCodec α) : JsonCodec (List α) where
  toJson messages := .object [("messages", c.list.toJson messages)]
  ofJson
    | .object fields => required c.list "messages" fields
    | .array [messages] => c.list.ofJson messages
    | _ => none
  round_trip _ := required_of_lookup _ (lookup_cons_self (lookup_nil _) _)

lemma fetchMessagesResponseJson_fits {α : Type} {c : JsonCodec α} {depth : ℕ}
    (h : c.Fits depth) : (fetchMessagesResponseJson c).Fits (depth + 2) := by
  intro messages field hf
  rw [List.mem_singleton] at hf
  subst hf
  exact h.list messages

/-- A client reads the relay's response as envelopes. -/
lemma ofJson_fetchMessagesResponse (b : Base64) (messages : List StoredEnvelope) :
    (fetchMessagesResponseJson (MessageEnvelope.json b)).ofJson
        ((fetchMessagesResponseJson (StoredEnvelope.json b)).toJson messages) =
      some (messages.map StoredEnvelope.envelope) := by
  have hitem : ∀ s, (MessageEnvelope.json b).ofJson ((StoredEnvelope.json b).toJson s) =
      some s.envelope := StoredEnvelope.envelope_ofFields
  change required _ "messages" [("messages", _)] = _
  unfold required
  rw [lookup_cons_self (lookup_nil _), Option.bind_some, Option.bind_some]
  exact JsonCodec.mapM_ofJson _ _ hitem messages

/-! ### Hops -/

/-- What a mesh bundle relies on of `bp7`: `with_dtn` accepts a dead-drop demux and prints it under
the `dtn` scheme, and a bundle is read back from its CBOR. -/
structure Bp7Laws (c : Crates) : Prop where
  eid_dead_drop : ∀ address : Address,
    c.eidWithDtn (Mesh.deadDropDemuxPrefix ++ Mesh.hexEncode address.toList) =
      .ok (Mesh.deadDropUri address)
  primary_build : ∀ address created lifetime,
    c.primaryBuild ⟨Mesh.deadDropUri address, created, lifetime⟩ =
      .ok ⟨Mesh.deadDropUri address, created, lifetime⟩
  cbor_round_trip : ∀ address created lifetime payload,
    let bundle := ⟨⟨Mesh.deadDropUri address, created, lifetime⟩, some payload⟩
    c.bundleFromCbor (c.bundleToCbor bundle) = .ok bundle

/-- `serde_json` refuses to read what is nested deeper than 127 levels. -/
abbrev SerdeJson := JsonText 127

/-- The mesh's crates write an envelope in its derived form, and read it from an object that has
its fields. Of other bytes nothing is assumed. -/
structure EnvelopeSerde (text : SerdeJson) (b : Base64) (c : Crates) : Prop where
  to_json : ∀ e, c.envelopeToJson e = .ok (text.encode (MessageEnvelope.json b) e)
  from_json : ∀ bytes fields e, text.parse bytes = some (.object fields) →
    MessageEnvelope.ofFields b fields = some e → c.envelopeFromJson bytes = .ok e

/-- One form an envelope is written in and read from, with what else stands in it. A request's
body, a mix packet's payload and a row of the client's store are `plain`. -/
inductive Hop where
  | plain
  | stored (id : String)
  | staged (before : List StoredEnvelope) (id : String) (after : List StoredEnvelope)
  | response (before : List StoredEnvelope) (id : String) (after : List StoredEnvelope)
  | clientParse (id : String)
  | clientResponse (before : List StoredEnvelope) (id : String) (after : List StoredEnvelope)
  | bundle (address : Address) (nowMs : UInt64)

section Hops

variable (text : SerdeJson) (b : Base64) (c : Crates)

/-- What comes out of a hop when `e` goes in. -/
def Hop.carry (e : MessageEnvelope) : Hop → Option MessageEnvelope
  | .plain => text.decode (MessageEnvelope.json b) (text.encode (MessageEnvelope.json b) e)
  | .stored id =>
    (text.decode (StoredEnvelope.json b) (text.encode (StoredEnvelope.json b) ⟨id, e⟩)).map
      StoredEnvelope.envelope
  | .staged before id after => do
    let messages ← text.decode (StoredEnvelope.json b).list
      (text.encode (StoredEnvelope.json b).list (before ++ ⟨id, e⟩ :: after))
    let message ← messages[before.length]?
    return message.envelope
  | .response before id after => do
    let messages ← text.decode (fetchMessagesResponseJson (StoredEnvelope.json b))
      (text.encode (fetchMessagesResponseJson (StoredEnvelope.json b)) (before ++ ⟨id, e⟩ :: after))
    let message ← messages[before.length]?
    return message.envelope
  | .clientParse id =>
    text.decode (MessageEnvelope.json b) (text.encode (StoredEnvelope.json b) ⟨id, e⟩)
  | .clientResponse before id after => do
    let messages ← text.decode (fetchMessagesResponseJson (MessageEnvelope.json b))
      (text.encode (fetchMessagesResponseJson (StoredEnvelope.json b)) (before ++ ⟨id, e⟩ :: after))
    messages[before.length]?
  | .bundle address nowMs =>
    match Mesh.wrap c nowMs e address with
    | .ok bytes => (Mesh.unwrap c bytes).toOption.map Prod.snd
    | .error _ => none

/-- A chain of hops, each of which takes what the one before it delivers. -/
def Hop.carryAll (hops : List Hop) (e : MessageEnvelope) : Option MessageEnvelope :=
  hops.foldlM (Hop.carry text b c) e

/-- What the decoders make of what the encoders write. -/
structure EncodingsAgree : Prop where
  plain : ∀ e, text.decode (MessageEnvelope.json b) (text.encode (MessageEnvelope.json b) e) = some e
  stored : ∀ s, text.decode (StoredEnvelope.json b) (text.encode (StoredEnvelope.json b) s) = some s
  staged : ∀ messages, text.decode (StoredEnvelope.json b).list
    (text.encode (StoredEnvelope.json b).list messages) = some messages
  response : ∀ messages, text.decode (fetchMessagesResponseJson (StoredEnvelope.json b))
    (text.encode (fetchMessagesResponseJson (StoredEnvelope.json b)) messages) = some messages
  clientParse : ∀ s, text.decode (MessageEnvelope.json b) (text.encode (StoredEnvelope.json b) s) =
    some s.envelope
  clientResponse : ∀ messages, text.decode (fetchMessagesResponseJson (MessageEnvelope.json b))
    (text.encode (fetchMessagesResponseJson (StoredEnvelope.json b)) messages) =
      some (messages.map StoredEnvelope.envelope)
  bundle : ∀ e address nowMs, ∃ bytes, Mesh.wrap c nowMs e address = .ok bytes ∧
    Mesh.unwrap c bytes = .ok (address, e)
  chain : ∀ hops e, Hop.carryAll text b c hops e = some e
  /-- An object without the two later fields is read as one that has them with `1` and `false`. -/
  defaults : ∀ bytes fields, text.parse bytes = some (.object fields) →
    lookup "version" fields = some none → lookup "read_triggered_destruct" fields = some none →
    text.decode (MessageEnvelope.json b) bytes = (MessageEnvelope.json b).ofJson (.object
      (("version", .number 1) :: ("read_triggered_destruct", .bool false) :: fields))
  defaultValues : ∀ bytes fields e, text.parse bytes = some (.object fields) →
    lookup "version" fields = some none → lookup "read_triggered_destruct" fields = some none →
    text.decode (MessageEnvelope.json b) bytes = some e →
    e.version = 1 ∧ e.readTriggeredDestruct = false
  /-- If its other fields are those of an envelope, it is read as that envelope. -/
  old : ∀ bytes fields (e : MessageEnvelope), text.parse bytes = some (.object fields) →
    lookup "version" fields = some none → lookup "read_triggered_destruct" fields = some none →
    (∀ name ∈ MessageEnvelope.fieldNames, name ≠ "version" → name ≠ "read_triggered_destruct" →
      lookup name fields = lookup name (e.toFields b)) →
    text.decode (MessageEnvelope.json b) bytes =
      some { e with version := 1, readTriggeredDestruct := false }
  oldForm : ∀ e : MessageEnvelope,
    text.decode (MessageEnvelope.json b) (text.render (.object (e.toOldFields b))) =
      some { e with version := 1, readTriggeredDestruct := false }

variable {text b c}

lemma framingLaws (bp7 : Bp7Laws c) (serde : EnvelopeSerde text b c) : Mesh.FramingLaws c where
  json_round_trip e := by
    have hparse : text.parse (text.encode (MessageEnvelope.json b) e) =
        some (.object (e.toFields b)) := text.parse_render _ (MessageEnvelope.json_fits e)
    exact ⟨_, serde.to_json e, serde.from_json _ _ e hparse (MessageEnvelope.ofFields_toFields e)⟩
  eid_dead_drop := bp7.eid_dead_drop
  primary_build := bp7.primary_build
  cbor_round_trip := bp7.cbor_round_trip

/-- The rows hold an envelope's JSON, and `drain` reads from them what the store's model holds. -/
theorem mapM_decode_selectPending (s : RelayStore) (userId : String) :
    ((s.messages.filter (RelayStore.isFor userId)).insertionSort
        (fun a b => a.createdAtMs ≤ b.createdAtMs)).mapM
        (fun row => text.decode (StoredEnvelope.json b)
          (text.encode (StoredEnvelope.json b) row.envelope)) =
      some (s.selectPending userId) := by
  have hrow : ∀ row : MessageRow, text.decode (StoredEnvelope.json b)
      (text.encode (StoredEnvelope.json b) row.envelope) = some row.envelope := by
    intro row
    exact text.decode_encode _ StoredEnvelope.json_fits row.envelope
  simp only [hrow]
  exact List.mapM_pure

lemma decode_encode_staged (messages : List StoredEnvelope) :
    text.decode (StoredEnvelope.json b).list (text.encode (StoredEnvelope.json b).list messages) =
      some messages :=
  text.decode_encode _ StoredEnvelope.json_fits.list messages

lemma decode_encode_response (messages : List StoredEnvelope) :
    text.decode (fetchMessagesResponseJson (StoredEnvelope.json b))
      (text.encode (fetchMessagesResponseJson (StoredEnvelope.json b)) messages) = some messages :=
  text.decode_encode _ (fetchMessagesResponseJson_fits StoredEnvelope.json_fits) messages

lemma decode_encode_clientParse (s : StoredEnvelope) :
    text.decode (MessageEnvelope.json b) (text.encode (StoredEnvelope.json b) s) =
      some s.envelope := by
  rw [text.decode_encode_of_fits _ _ StoredEnvelope.json_fits]
  exact StoredEnvelope.envelope_ofFields s

lemma decode_encode_clientResponse (messages : List StoredEnvelope) :
    text.decode (fetchMessagesResponseJson (MessageEnvelope.json b))
      (text.encode (fetchMessagesResponseJson (StoredEnvelope.json b)) messages) =
        some (messages.map StoredEnvelope.envelope) := by
  rw [text.decode_encode_of_fits _ _ (fetchMessagesResponseJson_fits StoredEnvelope.json_fits)]
  exact ofJson_fetchMessagesResponse b messages

lemma carry_eq (bp7 : Bp7Laws c) (serde : EnvelopeSerde text b c) (hop : Hop)
    (e : MessageEnvelope) : hop.carry text b c e = some e := by
  cases hop with
  | plain => exact text.decode_encode _ MessageEnvelope.json_fits e
  | stored id =>
    rw [Hop.carry, text.decode_encode _ StoredEnvelope.json_fits]
    rfl
  | staged before id after =>
    rw [Hop.carry, decode_encode_staged]
    simp
  | response before id after =>
    rw [Hop.carry, decode_encode_response]
    simp
  | clientParse id => exact decode_encode_clientParse ⟨id, e⟩
  | clientResponse before id after =>
    rw [Hop.carry, decode_encode_clientResponse]
    simp
  | bundle address nowMs =>
    obtain ⟨bytes, -, hwrap, -, -, hunwrap, -⟩ :=
      Mesh.wrap_spec (framingLaws bp7 serde) nowMs e address
    rw [Hop.carry, hwrap]
    simp only [hunwrap, Except.toOption, Option.map_some]

theorem carryAll_eq (bp7 : Bp7Laws c) (serde : EnvelopeSerde text b c) (hops : List Hop)
    (e : MessageEnvelope) : Hop.carryAll text b c hops e = some e := by
  unfold Hop.carryAll
  induction hops with
  | nil => rfl
  | cons hop hops ih => rw [List.foldlM_cons, carry_eq bp7 serde, Option.bind_eq_bind,
      Option.bind_some, ih]

lemma decode_of_parse {bytes : Bytes} {j : Json} (h : text.parse bytes = some j) :
    text.decode (MessageEnvelope.json b) bytes = (MessageEnvelope.json b).ofJson j := by
  unfold JsonText.decode
  rw [h, Option.bind_some]

/-- Every decoder gets back what was encoded, whatever the hops before it, and old objects get the
values that the two missing fields stood for. -/
theorem encodings_agree (bp7 : Bp7Laws c) (serde : EnvelopeSerde text b c) :
    EncodingsAgree text b c where
  plain := text.decode_encode _ MessageEnvelope.json_fits
  stored := text.decode_encode _ StoredEnvelope.json_fits
  staged := decode_encode_staged
  response := decode_encode_response
  clientParse := decode_encode_clientParse
  clientResponse := decode_encode_clientResponse
  bundle e address nowMs := by
    obtain ⟨bytes, -, hwrap, -, -, hunwrap, -⟩ :=
      Mesh.wrap_spec (framingLaws bp7 serde) nowMs e address
    exact ⟨bytes, hwrap, hunwrap⟩
  chain := carryAll_eq bp7 serde
  defaults bytes fields hparse hversion hread := by
    rw [decode_of_parse hparse]
    exact MessageEnvelope.ofFields_of_missing hversion hread
  defaultValues bytes fields e hparse hversion hread h := by
    rw [decode_of_parse hparse] at h
    exact MessageEnvelope.ofFields_defaults hversion hread h
  old bytes fields e hparse hversion hread h := by
    rw [decode_of_parse hparse]
    exact MessageEnvelope.ofFields_of_old hversion hread h
  oldForm e := by
    rw [decode_of_parse (text.parse_render _ (MessageEnvelope.toOldFields_fits e))]
    exact MessageEnvelope.ofFields_toOldFields e

end Hops

/-! ### Standard crates -/

/-- The mesh's stand-ins, with envelopes written as compact JSON. -/
def wireCrates : Crates :=
  { Mesh.localCrates with
    envelopeToJson e :=
      .ok ((JsonText.compact 127).encode (MessageEnvelope.json standardBase64) e)
    envelopeFromJson bytes :=
      match (JsonText.compact 127).decode (MessageEnvelope.json standardBase64) bytes with
      | some e => .ok e
      | none => .error "malformed input" }

lemma wireCrates_bp7 : Bp7Laws wireCrates where
  eid_dead_drop := Mesh.localCrates_framing.eid_dead_drop
  primary_build := Mesh.localCrates_framing.primary_build
  cbor_round_trip := Mesh.localCrates_framing.cbor_round_trip

lemma wireCrates_serde : EnvelopeSerde (JsonText.compact 127) standardBase64 wireCrates where
  to_json _ := rfl
  from_json bytes fields e hparse h := by
    have hdecode : (JsonText.compact 127).decode (MessageEnvelope.json standardBase64) bytes =
        some e := (decode_of_parse hparse).trans h
    unfold wireCrates
    dsimp only
    rw [hdecode]

theorem encodings_agree_compact : EncodingsAgree (JsonText.compact 127) standardBase64 wireCrates :=
  encodings_agree wireCrates_bp7 wireCrates_serde

end Parda.Server
