import Mathlib.Data.Vector.Basic

/-!
# HKDF

Extract and expand of RFC 5869 over any keyed hash, with the hash's output length as a
parameter. The block counter is one byte.
-/

namespace Hkdf

variable {hashLen : ℕ} (hmac : List UInt8 → List UInt8 → List.Vector UInt8 hashLen)

def extract (salt ikm : List UInt8) : List UInt8 := (hmac salt ikm).toList

/-- `T(i)`, with `T(0)` empty. -/
def block (prk info : List UInt8) : ℕ → List UInt8
  | 0 => []
  | i + 1 => (hmac prk (block prk info i ++ info ++ [UInt8.ofNat (i + 1)])).toList

/-- The blocks from `T(i + 1)` to `T(i + n)`. -/
def blocksFrom (prk info : List UInt8) (i n : ℕ) : List UInt8 :=
  (List.range n).flatMap (fun j => block hmac prk info (i + j + 1))

/-- The first `length` bytes of `T(1)` to `T(n)`, with `n` large enough. -/
def expand (prk info : List UInt8) (length : ℕ) : List UInt8 :=
  (blocksFrom hmac prk info 0 ((length + hashLen - 1) / hashLen)).take length

variable {hmac} {prk info : List UInt8}

@[simp] lemma length_block_succ (i : ℕ) : (block hmac prk info (i + 1)).length = hashLen :=
  (hmac _ _).toList_length

lemma blocksFrom_succ (i n : ℕ) : blocksFrom hmac prk info i (n + 1) =
    block hmac prk info (i + 1) ++ blocksFrom hmac prk info (i + 1) n := by
  unfold blocksFrom
  rw [List.range_succ_eq_map, List.flatMap_cons, List.flatMap_map]
  congr 2
  funext j
  congr 1
  omega

lemma length_blocksFrom (i n : ℕ) : (blocksFrom hmac prk info i n).length = n * hashLen := by
  induction n generalizing i with
  | zero => simp [blocksFrom]
  | succ n ih =>
    rw [blocksFrom_succ, List.length_append, length_block_succ, ih, Nat.succ_mul, Nat.add_comm]

/-- The last block is the first that reaches the length. -/
lemma le_blockCount (h : 0 < hashLen) (length : ℕ) :
    length ≤ (length + hashLen - 1) / hashLen * hashLen := by
  have hdiv := Nat.div_add_mod (length + hashLen - 1) hashLen
  have hmod := Nat.mod_lt (length + hashLen - 1) h
  rw [Nat.mul_comm]
  omega

lemma length_expand (h : 0 < hashLen) (length : ℕ) :
    (expand hmac prk info length).length = length := by
  unfold expand
  rw [List.length_take, length_blocksFrom]
  exact min_eq_left (le_blockCount h length)

end Hkdf
