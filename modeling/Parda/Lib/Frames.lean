import Parda.Lib.Codec

/-!
# Length-prefixed frames

A frame is the length of its body as a big-endian word of `width` bytes, then the body. A body
that is too long for the word is written whole, under its length modulo the size of the word, and
a reader takes as many bytes as the word says.
-/

namespace Frames

open Codec

def frame (width : ℕ) (body : List UInt8) : List UInt8 := beBytes width body.length ++ body

def frames (width : ℕ) (bodies : List (List UInt8)) : List UInt8 := bodies.flatMap (frame width)

/-- The body, once all of a frame has been read. -/
def body? (width : ℕ) (received : List UInt8) : Option (List UInt8) :=
  if width ≤ received.length ∧
      received.length = width + ofBeBytes (received.take width) then some (received.drop width)
  else none

/-- A reader has not come to the end of its frame. -/
def Partial (width : ℕ) (received : List UInt8) : Prop :=
  width ≤ received.length → received.length < width + ofBeBytes (received.take width)

variable {width : ℕ} {body received rest : List UInt8}

@[simp] lemma length_frame (width : ℕ) (body : List UInt8) :
    (frame width body).length = width + body.length := by
  rw [frame, List.length_append, length_beBytes]

@[simp] lemma frames_nil (width : ℕ) : frames width [] = [] := rfl

@[simp] lemma frames_cons (width : ℕ) (body : List UInt8) (bodies : List (List UInt8)) :
    frames width (body :: bodies) = frame width body ++ frames width bodies := rfl

lemma frames_append (width : ℕ) (bodies bodies' : List (List UInt8)) :
    frames width (bodies ++ bodies') = frames width bodies ++ frames width bodies' :=
  List.flatMap_append

lemma partial_nil (h : 0 < width) : Partial width [] := by
  intro hle
  rw [List.length_nil] at hle
  omega

/-- The word at the front of a frame. -/
lemma ofBeBytes_take (hpre : received <+: frame width body ++ rest) (h : width ≤ received.length) :
    ofBeBytes (received.take width) = body.length % 256 ^ width := by
  have htake : received.take width = beBytes width body.length := by
    obtain ⟨more, hmore⟩ := hpre
    have hwhole := congrArg (List.take width) hmore
    rw [List.take_append_of_le_length h, frame, List.append_assoc,
      List.take_left' (length_beBytes width body.length)] at hwhole
    exact hwhole
  rw [htake, ofBeBytes_beBytes]

lemma partial_iff (hpre : received <+: frame width body ++ rest) :
    Partial width received ↔ received.length < width + body.length % 256 ^ width := by
  by_cases h : width ≤ received.length
  · rw [Partial, ofBeBytes_take hpre h]
    exact ⟨fun hpart => hpart h, fun hlt _ => hlt⟩
  · exact iff_of_true (fun hle => absurd hle h) (by omega)

/-- A frame is complete after as many bytes as its word says, which are all of the body if that is
not too long. -/
lemma body?_eq (hpre : received <+: frame width body ++ rest) :
    body? width received =
      if received.length = width + body.length % 256 ^ width then
        some (body.take (body.length % 256 ^ width))
      else none := by
  by_cases h : width ≤ received.length
  · rw [body?, ofBeBytes_take hpre h]
    by_cases hlen : received.length = width + body.length % 256 ^ width
    · rw [if_pos ⟨h, hlen⟩, if_pos hlen]
      have htake : received = (frame width body ++ rest).take (width + body.length % 256 ^ width) := by
        rw [← hlen]
        exact List.prefix_iff_eq_take.mp hpre
      have hle : body.length % 256 ^ width ≤ body.length := Nat.mod_le _ _
      have hword := length_beBytes width body.length
      rw [htake, List.drop_take, Nat.add_sub_cancel_left, frame, List.append_assoc,
        List.drop_left' hword, List.take_append_of_le_length hle]
    · rw [if_neg fun hboth => hlen hboth.2, if_neg hlen]
  · rw [body?, if_neg fun hboth => h hboth.1, if_neg (by omega)]

/-- What one more byte brings: the frame is complete, or it still has to go on. -/
lemma read_byte {b : UInt8} (hpart : Partial width received)
    (hpre : received ++ [b] <+: frame width body ++ rest) :
    (body? width (received ++ [b]) = none ∧ Partial width (received ++ [b])) ∨
      (received.length + 1 = width + body.length % 256 ^ width ∧
        body? width (received ++ [b]) = some (body.take (body.length % 256 ^ width))) := by
  have hlt : received.length < width + body.length % 256 ^ width :=
    (partial_iff ((List.prefix_append _ _).trans hpre)).mp hpart
  have hlen : (received ++ [b]).length = received.length + 1 := by simp
  rw [partial_iff hpre, body?_eq hpre, hlen]
  by_cases hdone : received.length + 1 = width + body.length % 256 ^ width
  · exact Or.inr ⟨hdone, if_pos hdone⟩
  · exact Or.inl ⟨if_neg hdone, by omega⟩

/-- A reader that has not come to the end has read less than the frame. -/
lemma Partial.length_lt (hpart : Partial width received)
    (hpre : received <+: frame width body ++ rest) :
    received.length < (frame width body).length := by
  have hlt := (partial_iff hpre).mp hpart
  have hle : body.length % 256 ^ width ≤ body.length := Nat.mod_le _ _
  rw [length_frame]
  omega

/-- A frame that fits its word is read whole. -/
lemma eq_frame_of_length {b : UInt8} (hfits : body.length < 256 ^ width)
    (hpre : received ++ [b] <+: frame width body ++ rest)
    (hlen : received.length + 1 = width + body.length % 256 ^ width) :
    received ++ [b] = frame width body := by
  have hwhole : (received ++ [b]).length = (frame width body).length := by
    rw [length_frame, List.length_append, List.length_singleton, hlen, Nat.mod_eq_of_lt hfits]
  rw [List.prefix_iff_eq_take.mp hpre, hwhole, List.take_left]

end Frames
