import Mathlib.Data.List.Range
import Parda.Lib.Codec
import Parda.Protocol.Envelope

/-!
# Anonymous dead-drop addressing

Model of `protocol/src/dead_drop.rs`. The random generator is an argument: a poll set
takes the decoys it draws and the order it is shuffled into.
-/

namespace Parda.Protocol

abbrev Address := Bytes32

def addressKdfContext : Bytes := asciiBytes "PARDA-Phase4-DeadDropAddress-V1"

/-- `u64::to_be_bytes`. Only the low 64 bits of the argument are read. -/
def toBeBytes (n : ℕ) : Bytes := Codec.beBytes 8 n

def addressInfo (n : ℕ) : Bytes := addressKdfContext ++ toBeBytes n

structure DeadDropKeyPair where
  secret : Bytes32
  publicKey : Bytes32
deriving DecidableEq

/-- Per-conversation address-derivation key. -/
structure TagKey where
  okm : Bytes32
deriving DecidableEq

def DeadDropKeyPair.generate (c : Crates) (secret : Bytes32) : DeadDropKeyPair :=
  ⟨secret, c.x25519Public secret⟩

def DeadDropKeyPair.deriveTagKey (c : Crates) (kp : DeadDropKeyPair) (remotePublic : Bytes32) :
    TagKey :=
  ⟨c.hkdfSha256 (c.x25519 kp.secret remotePublic).toList []⟩

def TagKey.addressFor (c : Crates) (t : TagKey) (n : ℕ) : Address :=
  c.hkdfSha256 t.okm.toList (addressInfo n)

/-- The end of a forward window, `start.saturating_add(window)`. -/
def windowEnd (start window : ℕ) : ℕ :=
  min (start + window) u64Max

def TagKey.addressWindow (c : Crates) (t : TagKey) (start window : ℕ) : List Address :=
  (List.range' start (windowEnd start window - start)).map (t.addressFor c)

/-- The random choices of one poll: the decoys `OsRng` draws and the shuffle. -/
structure PollRng where
  decoy : ℕ → Address
  shuffle : List Address → List Address
  shuffle_perm : ∀ l, (shuffle l).Perm l

def PollRng.decoys (rng : PollRng) (window decoysPerReal : ℕ) : List Address :=
  (List.range (window * decoysPerReal)).map rng.decoy

def buildPollSet (c : Crates) (t : TagKey) (start window decoysPerReal : ℕ) (rng : PollRng) :
    List Address :=
  rng.shuffle (t.addressWindow c start window ++ rng.decoys window decoysPerReal)

/-- Diffie-Hellman symmetry of X25519. -/
def DhSymmetric (c : Crates) : Prop :=
  ∀ a b, c.x25519 a (c.x25519Public b) = c.x25519 b (c.x25519Public a)

/-- HKDF gives distinct addresses for distinct 64-bit counters under the key `t`. -/
def DistinctAddresses (c : Crates) (t : TagKey) : Prop :=
  ∀ m n, m < 2 ^ 64 → n < 2 ^ 64 → t.addressFor c m = t.addressFor c n → m = n

/-- Both sides derive the same key. -/
theorem deriveTagKey_comm {c : Crates} (h : DhSymmetric c) (a b : Bytes32) :
    (DeadDropKeyPair.generate c a).deriveTagKey c (DeadDropKeyPair.generate c b).publicKey =
      (DeadDropKeyPair.generate c b).deriveTagKey c (DeadDropKeyPair.generate c a).publicKey := by
  simp only [DeadDropKeyPair.deriveTagKey, DeadDropKeyPair.generate, h a b]

variable {c : Crates} {t : TagKey}

/-- A counter past `u64::MAX` wraps. -/
lemma addressFor_mod (n : ℕ) : t.addressFor c (n % 2 ^ 64) = t.addressFor c n := by
  have h : toBeBytes (n % 2 ^ 64) = toBeBytes n := Codec.beBytes_mod 8 n
  unfold TagKey.addressFor addressInfo
  rw [h]

lemma windowEnd_le (start window : ℕ) : windowEnd start window ≤ start + window := min_le_left _ _

lemma windowEnd_lt (start window : ℕ) : windowEnd start window < 2 ^ 64 := by
  have := min_le_right (start + window) u64Max
  unfold windowEnd
  unfold u64Max at *
  omega

lemma mem_addressWindow {start window : ℕ} {a : Address} :
    a ∈ t.addressWindow c start window ↔
      ∃ n, start ≤ n ∧ n < windowEnd start window ∧ t.addressFor c n = a := by
  simp only [TagKey.addressWindow, List.mem_map, List.mem_range'_1]
  constructor
  · rintro ⟨n, ⟨hn, hlt⟩, rfl⟩
    exact ⟨n, hn, by omega, rfl⟩
  · rintro ⟨n, hn, hlt, rfl⟩
    exact ⟨n, ⟨hn, by omega⟩, rfl⟩

/-- Shuffling does not change what is polled for. -/
lemma mem_buildPollSet {start window decoys : ℕ} {rng : PollRng} {a : Address} :
    a ∈ buildPollSet c t start window decoys rng ↔
      a ∈ t.addressWindow c start window ∨ a ∈ rng.decoys window decoys := by
  rw [buildPollSet, (rng.shuffle_perm _).mem_iff, List.mem_append]

/-- Every real address of the window is polled for. -/
theorem addressWindow_subset_pollSet (c : Crates) (t : TagKey) (start window decoys : ℕ)
    (rng : PollRng) :
    t.addressWindow c start window ⊆ buildPollSet c t start window decoys rng :=
  fun _ ha => mem_buildPollSet.mpr (Or.inl ha)

/-- The offset at which an address of the window is found is its counter's offset. -/
lemma addressWindow_idxOf (h : DistinctAddresses c t) {start window n : ℕ} (hn : start ≤ n)
    (hlt : n < windowEnd start window) :
    (t.addressWindow c start window).findIdx? (fun a => a == t.addressFor c n) =
      some (n - start) := by
  have hend := windowEnd_lt start window
  rw [List.findIdx?_eq_some_iff_getElem]
  refine ⟨by simp only [TagKey.addressWindow, List.length_map, List.length_range']; omega, ?_, ?_⟩
  · simp only [TagKey.addressWindow, List.getElem_map, List.getElem_range', beq_iff_eq]
    congr 1
    omega
  · intro j hj
    simp only [TagKey.addressWindow, List.getElem_map, List.getElem_range', beq_iff_eq]
    intro heq
    have := h _ _ (by omega) (by omega) heq
    omega

end Parda.Protocol
