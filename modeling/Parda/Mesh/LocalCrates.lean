import Parda.Mesh.Bundle

/-!
# A concrete instance of the crates

Computable stand-ins for the third-party crates on which every law assumed of them is
proved, so that runs of the model can be evaluated. The codecs are prefix codecs, the
key derivation keeps the bytes that vary, and the hash is a checksum.
-/

namespace Parda.Mesh

open Protocol

namespace LocalCrates

def byteCodec : PrefixCodec UInt8 :=
  .word 1 UInt8.toNat UInt8.ofNat fun a => by
    rw [Nat.mod_eq_of_lt (by have := a.toNat_lt; omega), UInt8.ofNat_toNat]

def boolCodec : PrefixCodec Bool :=
  .word 1 Bool.toNat (fun n => n != 0) fun a => by cases a <;> rfl

def wordCodec : PrefixCodec UInt64 :=
  .word 8 UInt64.toNat UInt64.ofNat fun a => by
    rw [Nat.mod_eq_of_lt (by have := a.toNat_lt; omega), UInt64.ofNat_toNat]

def charCodec : PrefixCodec Char :=
  .word 4 Char.toNat Char.ofNat fun a => by
    have hlt : a.toNat < 256 ^ 4 := by
      have := a.val.toNat_lt
      change a.val.toNat < _
      omega
    rw [Nat.mod_eq_of_lt hlt, Char.ofNat_toNat]

def stringCodec : PrefixCodec String :=
  charCodec.list.comap String.toList String.ofList fun _ => String.ofList_toList

def typeCodec : PrefixCodec EnvelopeType :=
  .word 1 (fun | .preKey => 0 | .ratchet => 1 | .sealedSender => 2)
    (fun | 0 => .preKey | 1 => .ratchet | _ => .sealedSender) fun a => by cases a <;> rfl

def bytes32Codec : PrefixCodec Bytes32 :=
  byteCodec.list.comap List.Vector.toList
    (fun l => (toBytes32 l).getD (List.Vector.replicate 32 0)) fun a => by
      rw [toBytes32_toList, Option.getD_some]

def envelopeCodec : PrefixCodec MessageEnvelope :=
  (stringCodec.prod <| stringCodec.prod <| byteCodec.list.prod <| typeCodec.prod <|
    wordCodec.prod <| byteCodec.prod <| boolCodec.prod <| byteCodec.list.option.prod <|
    wordCodec.option.prod <| boolCodec.prod bytes32Codec.option).comap
    (fun e => (e.senderId, e.recipientId, e.ciphertext, e.envelopeType, e.timestampMs, e.version,
      e.sealedSender, e.routingHint, e.selfDestructAt, e.readTriggeredDestruct, e.deadDropAddress))
    (fun (a, b, c, d, e, f, g, h, i, j, k) => ⟨a, b, c, d, e, f, g, h, i, j, k⟩) fun _ => rfl

def bundleCodec : PrefixCodec Bundle :=
  (charCodec.list.prod <| wordCodec.prod <| wordCodec.prod byteCodec.list.option).comap
    (fun b => (b.primary.destination, b.primary.creationTimestamp, b.primary.lifetime, b.payload))
    (fun (d, t, l, p) => ⟨⟨d, t, l⟩, p⟩) fun _ => rfl

/-- The last 32 bytes, last first, padded with zeros. -/
def tail32 (bytes : Bytes) : Bytes32 :=
  List.Vector.ofFn (fun i => bytes.reverse.getD i 0)

/-- What stands last is read back from the front. -/
lemma take_tail32 (x y : Bytes) (h : y.length ≤ 32) :
    ((tail32 (x ++ y)).toList.take y.length).reverse = y := by
  rw [List.reverse_eq_iff]
  apply List.ext_getElem
  · rw [List.length_take, List.Vector.toList_length, List.length_reverse]
    omega
  · intro i hi hi'
    unfold tail32
    simp only [List.Vector.toList_ofFn, List.getElem_take, List.getElem_ofFn,
      List.reverse_append]
    rw [List.getD_eq_getElem?_getD, List.getElem?_append_left hi', List.getElem?_eq_getElem hi',
      Option.getD_some]

def checksum (bytes : Bytes) : ℕ :=
  bytes.foldl (fun acc b => (257 * acc + b.toNat + 1) % 2 ^ 64) 0

def decodeWhole {α : Type} (p : PrefixCodec α) (bytes : Bytes) : Except String α :=
  match p.decode bytes with
  | some (a, []) => .ok a
  | _ => .error "malformed input"

lemma decodeWhole_encode {α : Type} (p : PrefixCodec α) (a : α) :
    decodeWhole p (p.encode a) = .ok a := by
  have h := p.round_trip a []
  rw [List.append_nil] at h
  unfold decodeWhole
  rw [h]

end LocalCrates

open LocalCrates

def localCrates : Crates where
  x25519Public secret := secret
  x25519 a b := List.Vector.ofFn (fun i => a.get i + b.get i)
  hkdfSha256 ikm info := tail32 (ikm ++ info)
  sha256 bytes := tail32 (toBeBytes (checksum bytes))
  envelopeToJson e := .ok (envelopeCodec.encode e)
  envelopeFromJson := decodeWhole envelopeCodec
  eidWithDtn demux := .ok ("dtn://".toList ++ demux)
  primaryBuild p := .ok p
  bundleToCbor := bundleCodec.encode
  bundleFromCbor := decodeWhole bundleCodec

lemma localCrates_dhSymmetric : DhSymmetric localCrates := by
  intro a b
  have h : (fun i => a.get i + b.get i) = fun i => b.get i + a.get i := by
    funext i
    exact UInt8.add_comm _ _
  exact congrArg List.Vector.ofFn h

lemma localCrates_framing : FramingLaws localCrates where
  json_round_trip e := ⟨envelopeCodec.encode e, rfl, decodeWhole_encode envelopeCodec e⟩
  eid_dead_drop _ := rfl
  primary_build _ _ _ := rfl
  cbor_round_trip _ _ _ _ := decodeWhole_encode bundleCodec _

/-- The counter is read back from the bytes the stand-in derivation keeps. -/
lemma localCrates_distinct (t : TagKey) : DistinctAddresses localCrates t := by
  have hread : ∀ n, Codec.ofBeBytes (((t.addressFor localCrates n).toList.take 8).reverse) =
      n % 2 ^ 64 := by
    intro n
    have hbytes : ((t.addressFor localCrates n).toList.take 8).reverse = Codec.beBytes 8 n := by
      have h := take_tail32 (t.okm.toList ++ addressKdfContext) (toBeBytes n)
        (by rw [toBeBytes, Codec.length_beBytes]; omega)
      rw [List.append_assoc, toBeBytes, Codec.length_beBytes] at h
      exact h
    rw [hbytes, Codec.ofBeBytes_beBytes]
    rfl
  intro m n hm hn h
  have hmn := hread m
  rw [h, hread n, Nat.mod_eq_of_lt hm, Nat.mod_eq_of_lt hn] at hmn
  exact hmn.symm

/-- A sealed envelope as a mesh sender composes it, with one byte of ciphertext. -/
def sampleEnvelope (ciphertext : UInt8) : MessageEnvelope where
  senderId := ""
  recipientId := ""
  ciphertext := [ciphertext]
  envelopeType := .sealedSender
  timestampMs := 1000
  version := envelopeVersionV2
  sealedSender := true

/-- Decoys that hit no address of the stand-in derivation, and no shuffling. -/
def samplePollRng : PollRng := ⟨fun _ => List.Vector.replicate 32 255, id, fun _ => .refl _⟩

end Parda.Mesh
