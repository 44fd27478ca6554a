import Parda.Mixnode.Peel

/-!
# The address tokens as a codec

What the tokens of `protocol/src/mixnet.rs` carry, and what a node makes of any bytes that a
packet may name as one.
-/

namespace Parda.Mixnode.Mixnet

open Protocol

/-- Tokens of a capacity carry exactly the strings that leave room for the length byte, and any
bytes are read within their end, to what their first byte declares. -/
structure ExactCodec (n : NodeCrates) : Prop where
  encodes_iff : ∀ bytes capacity, 1 ≤ capacity → capacity ≤ 256 →
    ((∃ token, encodeFixed bytes capacity = .ok token) ↔ bytes.length ≤ capacity - 1)
  decodes : ∀ bytes capacity token, 1 ≤ capacity → capacity ≤ 256 →
    encodeFixed bytes capacity = .ok token → token.length = capacity ∧ decodeFixed token = .ok bytes
  distinct : ∀ bytes bytes' capacity token token', 1 ≤ capacity → capacity ≤ 256 →
    encodeFixed bytes capacity = .ok token → encodeFixed bytes' capacity = .ok token' →
      bytes ≠ bytes' → token ≠ token'
  reads_declared : ∀ len rest bytes, decodeFixed (len :: rest) = .ok bytes →
    1 + len.toNat ≤ (len :: rest).length ∧ bytes.length = len.toNat ∧ bytes <+: rest
  refuses_iff : ∀ len rest, (∃ e, decodeFixed (len :: rest) = .error e) ↔
    (len :: rest).length < 1 + len.toNat
  address_refuses_iff : ∀ len rest, (∃ e, decodeNodeAddress n (len :: rest) = .error e) ↔
    (len :: rest).length < 1 + len.toNat ∨ ∀ hostPort, Utf8.encode hostPort ≠ rest.take len.toNat

section Tokens

variable {len : UInt8} {rest : Bytes}

lemma decodeFixed_of_le (h : 1 + len.toNat ≤ (len :: rest).length) :
    decodeFixed (len :: rest) = .ok (rest.take len.toNat) := by
  unfold decodeFixed
  rw [List.headD_cons, List.drop_one, List.tail_cons]
  exact if_neg (not_lt.mpr h)

lemma decodeFixed_of_lt (h : (len :: rest).length < 1 + len.toNat) :
    ∃ e, decodeFixed (len :: rest) = .error e := by
  refine ⟨.mixRouting "corrupt Sphinx address token: declared length exceeds buffer", ?_⟩
  unfold decodeFixed
  rw [List.headD_cons]
  exact if_pos h

/-- A token that decodes to one string was encoded from no other. -/
lemma encodeFixed_inj {bytes bytes' token : Bytes} {capacity : ℕ} (hcapacity : capacity ≤ 256)
    (hpos : 0 < capacity) (h : encodeFixed bytes capacity = .ok token)
    (h' : encodeFixed bytes' capacity = .ok token) : bytes = bytes' := by
  have hdecode := decodeFixed_of_encodeFixed hcapacity hpos h
  rw [decodeFixed_of_encodeFixed hcapacity hpos h', Except.ok.injEq] at hdecode
  exact hdecode.symm

/-- A declared string is an address unless it is not UTF-8. -/
lemma decodeNodeAddress_of_le (n : NodeCrates) (h : 1 + len.toNat ≤ (len :: rest).length) :
    (∃ e, decodeNodeAddress n (len :: rest) = .error e) ↔
      ∀ hostPort, Utf8.encode hostPort ≠ rest.take len.toNat := by
  unfold decodeNodeAddress
  rw [decodeFixed_of_le h]
  dsimp only
  cases hutf8 : Utf8.decode (rest.take len.toNat) with
  | none =>
    refine iff_of_true ⟨_, rfl⟩ ?_
    intro hostPort heq
    rw [← heq, Utf8.decode_encode] at hutf8
    cases hutf8
  | some hostPort =>
    refine iff_of_false ?_ ?_
    · rintro ⟨e, he⟩
      cases he
    · intro hnone
      exact hnone hostPort (Utf8.encode_of_decode hutf8)

end Tokens

/-- The tokens are an exact codec. -/
theorem exactCodec (n : NodeCrates) : ExactCodec n where
  encodes_iff bytes capacity _ _ := encodeFixed_ok_iff
  decodes bytes capacity token hpos hcapacity h :=
    ⟨length_encodeFixed hpos h, decodeFixed_of_encodeFixed hcapacity hpos h⟩
  distinct bytes bytes' capacity token token' hpos hcapacity h h' hne heq := by
    subst heq
    exact hne (encodeFixed_inj hcapacity hpos h h')
  reads_declared len rest bytes h := by
    by_cases hle : 1 + len.toNat ≤ (len :: rest).length
    · rw [decodeFixed_of_le hle, Except.ok.injEq] at h
      rw [List.length_cons] at hle
      refine ⟨hle.trans_eq (List.length_cons).symm, ?_, ?_⟩
      · rw [← h, List.length_take]
        omega
      · rw [← h]
        exact List.take_prefix _ _
    · obtain ⟨e, he⟩ := decodeFixed_of_lt (not_le.mp hle)
      rw [he] at h
      cases h
  refuses_iff len rest := by
    refine ⟨?_, decodeFixed_of_lt⟩
    rintro ⟨e, he⟩
    by_contra hle
    rw [decodeFixed_of_le (not_lt.mp hle)] at he
    cases he
  address_refuses_iff len rest := by
    by_cases hle : 1 + len.toNat ≤ (len :: rest).length
    · rw [decodeNodeAddress_of_le n hle, or_iff_right (not_lt.mpr hle)]
    · obtain ⟨e, he⟩ := decodeFixed_of_lt (not_le.mp hle)
      refine iff_of_true ⟨e, ?_⟩ (Or.inl (not_le.mp hle))
      unfold decodeNodeAddress
      rw [he]

end Parda.Mixnode.Mixnet
