import Mathlib.Data.Vector.Basic

/-!
# SHA-256 and HMAC

The compression function on words kept below `0x100000000`, the padded hash, and the keyed
hash over it.
-/

namespace Sha256

def rotr (x n : ℕ) : ℕ := (x >>> n) ||| (x <<< (32 - n)) % 0x100000000

def constants : List ℕ := [
  0x428a2f98, 0x71374491, 0xb5c0fbcf, 0xe9b5dba5, 0x3956c25b, 0x59f111f1, 0x923f82a4, 0xab1c5ed5,
  0xd807aa98, 0x12835b01, 0x243185be, 0x550c7dc3, 0x72be5d74, 0x80deb1fe, 0x9bdc06a7, 0xc19bf174,
  0xe49b69c1, 0xefbe4786, 0x0fc19dc6, 0x240ca1cc, 0x2de92c6f, 0x4a7484aa, 0x5cb0a9dc, 0x76f988da,
  0x983e5152, 0xa831c66d, 0xb00327c8, 0xbf597fc7, 0xc6e00bf3, 0xd5a79147, 0x06ca6351, 0x14292967,
  0x27b70a85, 0x2e1b2138, 0x4d2c6dfc, 0x53380d13, 0x650a7354, 0x766a0abb, 0x81c2c92e, 0x92722c85,
  0xa2bfe8a1, 0xa81a664b, 0xc24b8b70, 0xc76c51a3, 0xd192e819, 0xd6990624, 0xf40e3585, 0x106aa070,
  0x19a4c116, 0x1e376c08, 0x2748774c, 0x34b0bcb5, 0x391c0cb3, 0x4ed8aa4a, 0x5b9cca4f, 0x682e6ff3,
  0x748f82ee, 0x78a5636f, 0x84c87814, 0x8cc70208, 0x90befffa, 0xa4506ceb, 0xbef9a3f7, 0xc67178f2]

structure State where
  (a b c d e f g h : ℕ)

def initial : State where
  a := 0x6a09e667
  b := 0xbb67ae85
  c := 0x3c6ef372
  d := 0xa54ff53a
  e := 0x510e527f
  f := 0x9b05688c
  g := 0x1f83d9ab
  h := 0x5be0cd19

/-- The word sixteen places after the first of a window. -/
def nextWord (w : List ℕ) : ℕ :=
  let s0 := w.getD 1 0
  let s1 := w.getD 14 0
  (w.getD 0 0 + (rotr s0 7 ^^^ rotr s0 18 ^^^ s0 >>> 3) + w.getD 9 0 +
    (rotr s1 17 ^^^ rotr s1 19 ^^^ s1 >>> 10)) % 0x100000000

def round (s : State) (k w : ℕ) : State :=
  let t1 := s.h + (rotr s.e 6 ^^^ rotr s.e 11 ^^^ rotr s.e 25) +
    (s.e &&& s.f ^^^ (s.e ^^^ (0xffffffff)) &&& s.g) + k + w
  let t2 := (rotr s.a 2 ^^^ rotr s.a 13 ^^^ rotr s.a 22) +
    (s.a &&& s.b ^^^ s.a &&& s.c ^^^ s.b &&& s.c)
  ⟨(t1 + t2) % 0x100000000, s.a, s.b, s.c, (s.d + t1) % 0x100000000, s.e, s.f, s.g⟩

/-- The rounds over a window of sixteen words that moves on. -/
def rounds : List ℕ → List ℕ → State → State
  | [], _, s => s
  | k :: ks, w, s => rounds ks (w.tail ++ [nextWord w]) (round s k (w.headD 0))

def compress (s : State) (block : List ℕ) : State :=
  let t := rounds constants block s
  ⟨(s.a + t.a) % 0x100000000, (s.b + t.b) % 0x100000000, (s.c + t.c) % 0x100000000, (s.d + t.d) % 0x100000000,
    (s.e + t.e) % 0x100000000, (s.f + t.f) % 0x100000000, (s.g + t.g) % 0x100000000, (s.h + t.h) % 0x100000000⟩

def wordBytes (n : ℕ) : List UInt8 :=
  [UInt8.ofNat (n >>> 24), UInt8.ofNat (n >>> 16), UInt8.ofNat (n >>> 8), UInt8.ofNat n]

def digest (s : State) : List.Vector UInt8 32 :=
  ⟨[s.a, s.b, s.c, s.d, s.e, s.f, s.g, s.h].flatMap wordBytes, rfl⟩

/-- The big-endian words of a text of whole words. -/
def words : List UInt8 → List ℕ
  | a :: b :: c :: d :: rest =>
    (a.toNat <<< 24 ||| b.toNat <<< 16 ||| c.toNat <<< 8 ||| d.toNat) :: words rest
  | _ => []

/-- The padding that fills the last block and ends in the length in bits. -/
def padding (length : ℕ) : List UInt8 :=
  (0x80 : UInt8) :: List.replicate ((119 - length % 64) % 64) (0 : UInt8) ++
    wordBytes (length * 8 >>> 32) ++ wordBytes (length * 8)

/-- The state after `n` blocks. -/
def blocks : ℕ → List ℕ → State → State
  | 0, _, s => s
  | n + 1, w, s => blocks n (w.drop 16) (compress s (w.take 16))

def sha256 (message : List UInt8) : List.Vector UInt8 32 :=
  let w := words (message ++ padding message.length)
  digest (blocks (w.length / 16) w initial)

/-- A key that fits the block is padded with zeros, a longer one is hashed first. -/
def hmacKey (key : List UInt8) : List UInt8 :=
  let short := if 64 < key.length then (sha256 key).toList else key
  short ++ List.replicate (64 - short.length) 0

def hmac (key message : List UInt8) : List.Vector UInt8 32 :=
  sha256 ((hmacKey key).map (· ^^^ 0x5c) ++
    (sha256 ((hmacKey key).map (· ^^^ 0x36) ++ message)).toList)

end Sha256
