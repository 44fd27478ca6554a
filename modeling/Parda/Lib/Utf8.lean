import Mathlib.Data.List.Basic

/-!
# UTF-8

The bytes of a string as a list, and the string that a list of bytes encodes.
-/

namespace Utf8

def encode (s : String) : List UInt8 := s.toByteArray.data.toList

/-- Nothing for bytes that are not UTF-8. -/
def decode (bytes : List UInt8) : Option String := String.fromUTF8? ⟨bytes.toArray⟩

lemma byteArray_encode (s : String) : (⟨(encode s).toArray⟩ : ByteArray) = s.toByteArray := by
  unfold encode
  rw [Array.toArray_toList]

@[simp] theorem decode_encode (s : String) : decode (encode s) = some s := by
  unfold decode String.fromUTF8?
  rw [byteArray_encode, dif_pos s.isValidUTF8]
  rfl

lemma encode_of_decode {bytes : List UInt8} {s : String} (h : decode bytes = some s) :
    encode s = bytes := by
  unfold decode String.fromUTF8? at h
  split at h
  · rw [Option.some.injEq] at h
    rw [← h]
    rfl
  · cases h

@[simp] theorem encode_inj {s t : String} : encode s = encode t ↔ s = t := by
  constructor
  · intro h
    have hs := decode_encode s
    rw [h, decode_encode] at hs
    exact (Option.some.inj hs).symm
  · exact congrArg encode

lemma encode_eq_flatMap (s : String) : encode s = s.toList.flatMap String.utf8EncodeChar := by
  unfold encode
  rw [← String.utf8Encode_toList, List.utf8Encode, List.data_toByteArray]

end Utf8
