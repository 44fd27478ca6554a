import Parda.Lib.JsonText
import Parda.Protocol.Envelope

/-!
# Envelopes as JSON

What `serde` derives for `MessageEnvelope` and `EnvelopeType` of `protocol/src/envelope.rs`, on
JSON values.
-/

namespace Parda.Protocol

/-- The standard engine of the `base64` crate, which reads back what it writes. -/
structure Base64 where
  encode : Bytes → String
  decode : String → Option Bytes
  decode_encode : ∀ bytes, decode (encode bytes) = some bytes

namespace EnvelopeType

/-- `rename_all = "snake_case"`. -/
def name : EnvelopeType → String
  | .preKey => "pre_key"
  | .ratchet => "ratchet"
  | .sealedSender => "sealed_sender"

def ofName : String → Option EnvelopeType
  | "pre_key" => some .preKey
  | "ratchet" => some .ratchet
  | "sealed_sender" => some .sealedSender
  | _ => none

lemma ofName_name (t : EnvelopeType) : ofName t.name = some t := by
  cases t <;> rfl

/-- A unit variant is written as its name, and is read from an object of the name and null too. -/
def json : JsonCodec EnvelopeType where
  toJson t := .string t.name
  ofJson
    | .string s => ofName s
    | .object [(s, .null)] => ofName s
    | _ => none
  round_trip := ofName_name

end EnvelopeType

namespace MessageEnvelope

open Json

/-- `serde_bytes_base64`. -/
def ciphertextJson (b : Base64) : JsonCodec Bytes :=
  JsonCodec.string.via b.encode b.decode b.decode_encode

def bytesJson : JsonCodec Bytes := JsonCodec.uint8.list

def addressJson : JsonCodec Bytes32 := JsonCodec.uint8.vector 32

def toFields (b : Base64) (e : MessageEnvelope) : List (String × Json) :=
  ("sender_id", JsonCodec.string.toJson e.senderId) ::
  ("recipient_id", JsonCodec.string.toJson e.recipientId) ::
  ("ciphertext", (ciphertextJson b).toJson e.ciphertext) ::
  ("envelope_type", EnvelopeType.json.toJson e.envelopeType) ::
  ("timestamp_ms", JsonCodec.uint64.toJson e.timestampMs) ::
  ("version", JsonCodec.uint8.toJson e.version) ::
  ("sealed_sender", JsonCodec.bool.toJson e.sealedSender) ::
  (skipNone bytesJson "routing_hint" e.routingHint ++
    (skipNone JsonCodec.uint64 "self_destruct_at" e.selfDestructAt ++
      ("read_triggered_destruct", JsonCodec.bool.toJson e.readTriggeredDestruct) ::
        skipNone addressJson "dead_drop_address" e.deadDropAddress))

def ofFields (b : Base64) (fields : List (String × Json)) : Option MessageEnvelope := do
  let senderId ← required JsonCodec.string "sender_id" fields
  let recipientId ← required JsonCodec.string "recipient_id" fields
  let ciphertext ← required (ciphertextJson b) "ciphertext" fields
  let envelopeType ← required EnvelopeType.json "envelope_type" fields
  let timestampMs ← required JsonCodec.uint64 "timestamp_ms" fields
  let version ← withDefault JsonCodec.uint8 "version" envelopeVersionV1 fields
  let sealedSender ← required JsonCodec.bool "sealed_sender" fields
  let routingHint ← nullable bytesJson "routing_hint" fields
  let selfDestructAt ← nullable JsonCodec.uint64 "self_destruct_at" fields
  let readTriggeredDestruct ←
    withDefault JsonCodec.bool "read_triggered_destruct" false fields
  let deadDropAddress ← nullable addressJson "dead_drop_address" fields
  return { senderId, recipientId, ciphertext, envelopeType, timestampMs, version, sealedSender,
           routingHint, selfDestructAt, readTriggeredDestruct, deadDropAddress }

def fieldNames : List String :=
  ["sender_id", "recipient_id", "ciphertext", "envelope_type", "timestamp_ms", "version",
    "sealed_sender", "routing_hint", "self_destruct_at", "read_triggered_destruct",
    "dead_drop_address"]

/-- A struct is read from an array too, which has a value for every field in its place. -/
def ofItems (b : Base64) (items : List Json) : Option MessageEnvelope :=
  if items.length = fieldNames.length then ofFields b (fieldNames.zip items) else none

variable {b : Base64}

/-- Only what stands under the envelope's own names counts. -/
lemma ofFields_congr {fields fields' : List (String × Json)}
    (h : ∀ name ∈ fieldNames, lookup name fields = lookup name fields') :
    ofFields b fields = ofFields b fields' := by
  simp only [fieldNames, List.forall_mem_cons] at h
  obtain ⟨h1, h2, h3, h4, h5, h6, h7, h8, h9, h10, h11, -⟩ := h
  simp only [ofFields, required, withDefault, nullable, h1, h2, h3, h4, h5, h6, h7, h8, h9, h10,
    h11]

theorem ofFields_toFields (e : MessageEnvelope) : ofFields b (e.toFields b) = some e := by
  have hsender : required JsonCodec.string "sender_id" (e.toFields b) = some e.senderId :=
    required_of_lookup _ (by simp [toFields])
  have hrecipient : required JsonCodec.string "recipient_id" (e.toFields b) = some e.recipientId :=
    required_of_lookup _ (by simp [toFields])
  have hciphertext : required (ciphertextJson b) "ciphertext" (e.toFields b) = some e.ciphertext :=
    required_of_lookup _ (by simp [toFields])
  have htype : required EnvelopeType.json "envelope_type" (e.toFields b) = some e.envelopeType :=
    required_of_lookup _ (by simp [toFields])
  have htimestamp : required JsonCodec.uint64 "timestamp_ms" (e.toFields b) = some e.timestampMs :=
    required_of_lookup _ (by simp [toFields])
  have hversion : withDefault JsonCodec.uint8 "version" envelopeVersionV1 (e.toFields b) =
      some e.version := withDefault_of_lookup _ (by simp [toFields]) _
  have hsealed : required JsonCodec.bool "sealed_sender" (e.toFields b) = some e.sealedSender :=
    required_of_lookup _ (by simp [toFields])
  have hhint : nullable bytesJson "routing_hint" (e.toFields b) = some e.routingHint :=
    nullable_of_lookup _ (fun _ => nofun) (by simp [toFields])
  have hdeadline : nullable JsonCodec.uint64 "self_destruct_at" (e.toFields b) =
      some e.selfDestructAt := nullable_of_lookup _ (fun _ => nofun) (by simp [toFields])
  have hread : withDefault JsonCodec.bool "read_triggered_destruct" false (e.toFields b) =
      some e.readTriggeredDestruct := withDefault_of_lookup _ (by simp [toFields]) _
  have haddress : nullable addressJson "dead_drop_address" (e.toFields b) =
      some e.deadDropAddress := nullable_of_lookup _ (fun _ => nofun) (by simp [toFields])
  simp only [ofFields, hsender, hrecipient, hciphertext, htype, htimestamp, hversion, hsealed,
    hhint, hdeadline, hread, haddress, Option.bind_eq_bind, Option.bind_some, Option.pure_def]

def json (b : Base64) : JsonCodec MessageEnvelope where
  toJson e := .object (e.toFields b)
  ofJson
    | .object fields => ofFields b fields
    | .array items => ofItems b items
    | _ => none
  round_trip e := ofFields_toFields e

/-- An object of before `version` and `read_triggered_destruct` is read as one that has them with
their old meanings. -/
theorem ofFields_of_missing {fields : List (String × Json)}
    (hversion : lookup "version" fields = some none)
    (hread : lookup "read_triggered_destruct" fields = some none) :
    ofFields b fields =
      ofFields b (("version", JsonCodec.uint8.toJson envelopeVersionV1) ::
        ("read_triggered_destruct", JsonCodec.bool.toJson false) :: fields) := by
  have hversion' : lookup "version" (("read_triggered_destruct", JsonCodec.bool.toJson false) ::
      fields) = some none := by simpa using hversion
  simp only [ofFields, required, nullable, lookup_cons_of_ne, ne_eq, String.reduceEq,
    not_false_eq_true]
  rw [withDefault_of_missing _ hversion, withDefault_of_missing _ hread,
    withDefault_of_lookup _ (lookup_cons_self hversion' _),
    withDefault_of_lookup (a := false) _ (by simp [hread])]

lemma ofFields_defaults {fields : List (String × Json)}
    (hversion : lookup "version" fields = some none)
    (hread : lookup "read_triggered_destruct" fields = some none) {e : MessageEnvelope}
    (h : ofFields b fields = some e) :
    e.version = envelopeVersionV1 ∧ e.readTriggeredDestruct = false := by
  simp only [ofFields, Option.bind_eq_bind, Option.bind_eq_some_iff, Option.pure_def,
    Option.some.injEq, withDefault_of_missing _ hversion, withDefault_of_missing _ hread] at h
  obtain ⟨_, -, _, -, _, -, _, -, _, -, _, rfl, _, -, _, -, _, -, _, rfl, _, -, rfl⟩ := h
  exact ⟨rfl, rfl⟩

/-- An object of before `version` and `read_triggered_destruct` that has the other fields of an
envelope, in any order and among any others, is read as that envelope with the old meanings. -/
theorem ofFields_of_old {fields : List (String × Json)} {e : MessageEnvelope}
    (hversion : lookup "version" fields = some none)
    (hread : lookup "read_triggered_destruct" fields = some none)
    (h : ∀ name ∈ fieldNames, name ≠ "version" → name ≠ "read_triggered_destruct" →
      lookup name fields = lookup name (e.toFields b)) :
    ofFields b fields =
      some { e with version := envelopeVersionV1, readTriggeredDestruct := false } := by
  rw [ofFields_of_missing hversion hread, ← ofFields_toFields]
  apply ofFields_congr
  simp only [fieldNames, List.forall_mem_cons, List.not_mem_nil, IsEmpty.forall_iff,
    implies_true, and_true, ne_eq, String.reduceEq, not_false_eq_true, forall_const] at h ⊢
  obtain ⟨h1, h2, h3, h4, h5, -, h7, h8, h9, -, h11⟩ := h
  refine ⟨?_, ?_, ?_, ?_, ?_, ?_, ?_, ?_, ?_, ?_, ?_⟩ <;>
    simp [h1, h2, h3, h4, h5, h7, h8, h9, h11, hversion, hread, toFields]

/-- The fields of an envelope as they were before `version` and `read_triggered_destruct`. -/
def toOldFields (b : Base64) (e : MessageEnvelope) : List (String × Json) :=
  (e.toFields b).filter fun field =>
    field.1 ≠ "version" ∧ field.1 ≠ "read_triggered_destruct"

theorem ofFields_toOldFields (e : MessageEnvelope) :
    ofFields b (e.toOldFields b) =
      some { e with version := envelopeVersionV1, readTriggeredDestruct := false } := by
  apply ofFields_of_old
  · exact lookup_of_forall_ne fun field hf => by
      simpa using (of_decide_eq_true (List.mem_filter.mp hf).2).1
  · exact lookup_of_forall_ne fun field hf => by
      simpa using (of_decide_eq_true (List.mem_filter.mp hf).2).2
  · intro name _ hversion hread
    exact lookup_filter (p := fun name => name ≠ "version" ∧ name ≠ "read_triggered_destruct")
      (by simp [hversion, hread])

section Fits

variable {depth : ℕ}

/-- A hint's bytes are two levels down. -/
lemma toFields_fits (e : MessageEnvelope) :
    ∀ field ∈ e.toFields b, Json.Fits (depth + 1) field.2 := by
  have htype : EnvelopeType.json.Fits (depth + 1) := fun t => JsonCodec.string_fits t.name
  have hciphertext : (ciphertextJson b).Fits (depth + 1) := JsonCodec.string_fits.via _
  have hbytes : bytesJson.Fits (depth + 1) := JsonCodec.uint8_fits.list
  have haddress : addressJson.Fits (depth + 1) := JsonCodec.uint8_fits.vector 32
  simp only [toFields, List.forall_mem_cons, List.forall_mem_append]
  exact ⟨JsonCodec.string_fits _, JsonCodec.string_fits _, hciphertext _, htype _,
    JsonCodec.uint64_fits _, JsonCodec.uint8_fits _, JsonCodec.bool_fits _, hbytes.skipNone _ _,
    JsonCodec.uint64_fits.skipNone _ _, JsonCodec.bool_fits _, haddress.skipNone _ _⟩

lemma toOldFields_fits (e : MessageEnvelope) :
    Json.Fits (depth + 2) (.object (e.toOldFields b)) := by
  intro field hf
  exact toFields_fits e field (List.mem_of_mem_filter hf)

lemma json_fits : (json b).Fits (depth + 2) := toFields_fits

end Fits

end MessageEnvelope

end Parda.Protocol
