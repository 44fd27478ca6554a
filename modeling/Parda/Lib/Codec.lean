import Mathlib.Algebra.Ring.Nat
import Mathlib.Data.List.Basic

/-!
# Prefix codecs

Fixed-width big-endian words, and codecs whose decoder reads back an encoded value from
the front of any byte string and returns the rest. A codec carries its round trip, so
the combinators below build only codecs that have one.
-/

namespace Codec

/-- The low `width` bytes of a number, most significant first. -/
def beBytes : ℕ → ℕ → List UInt8
  | 0, _ => []
  | width + 1, n => beBytes width (n / 256) ++ [UInt8.ofNat n]

def ofBeBytes (bytes : List UInt8) : ℕ :=
  bytes.foldl (fun acc b => 256 * acc + b.toNat) 0

@[simp] lemma length_beBytes (width n : ℕ) : (beBytes width n).length = width := by
  induction width generalizing n with
  | zero => rfl
  | succ width ih => rw [beBytes, List.length_append, ih, List.length_singleton]

/-- Only the low bytes of the number are written. -/
lemma beBytes_mod (width n : ℕ) : beBytes width (n % 256 ^ width) = beBytes width n := by
  induction width generalizing n with
  | zero => rfl
  | succ width ih =>
    have hdiv : n % 256 ^ (width + 1) / 256 = n / 256 % 256 ^ width := by
      rw [Nat.pow_succ, Nat.mul_comm, Nat.mod_mul_right_div_self]
    have hmod : n % 256 ^ (width + 1) % 256 = n % 256 :=
      Nat.mod_mod_of_dvd n ⟨256 ^ width, Nat.pow_succ'⟩
    have hlast : UInt8.ofNat (n % 256 ^ (width + 1)) = UInt8.ofNat n := by
      apply UInt8.toNat_inj.mp
      rw [UInt8.toNat_ofNat', UInt8.toNat_ofNat']
      exact hmod
    rw [beBytes, beBytes, hdiv, ih, hlast]

theorem ofBeBytes_beBytes (width n : ℕ) : ofBeBytes (beBytes width n) = n % 256 ^ width := by
  induction width generalizing n with
  | zero => simp [beBytes, ofBeBytes, Nat.mod_one]
  | succ width ih =>
    have hstep : ofBeBytes (beBytes (width + 1) n) =
        256 * ofBeBytes (beBytes width (n / 256)) + n % 256 := by
      unfold ofBeBytes
      rw [beBytes, List.foldl_append]
      rfl
    rw [hstep, ih, Nat.pow_succ, Nat.mul_comm (256 ^ width), Nat.mod_mul]
    omega

end Codec

/-- An encoder and a decoder that reads one value from the front. -/
structure PrefixCodec (α : Type*) where
  encode : α → List UInt8
  decode : List UInt8 → Option (α × List UInt8)
  round_trip : ∀ a rest, decode (encode a ++ rest) = some (a, rest)

namespace PrefixCodec

variable {α β : Type*}

/-- No encoding goes on after another one. -/
lemma eq_nil_of_encode_append (p : PrefixCodec α) {a b : α} {rest : List UInt8}
    (h : p.encode a ++ rest = p.encode b) : rest = [] := by
  have hread := p.round_trip a rest
  have hwhole := p.round_trip b []
  rw [List.append_nil, ← h, hread] at hwhole
  cases hwhole
  rfl

/-- A value that a word of `width` bytes determines. -/
def word (width : ℕ) (toNat : α → ℕ) (ofNat : ℕ → α)
    (h : ∀ a, ofNat (toNat a % 256 ^ width) = a) : PrefixCodec α where
  encode a := Codec.beBytes width (toNat a)
  decode bytes :=
    if width ≤ bytes.length then
      some (ofNat (Codec.ofBeBytes (bytes.take width)), bytes.drop width)
    else none
  round_trip a rest := by
    have hlen := Codec.length_beBytes width (toNat a)
    rw [List.take_left' hlen, List.drop_left' hlen, Codec.ofBeBytes_beBytes, h, List.length_append,
      hlen, if_pos (Nat.le_add_right _ _)]

/-- A codec for a type that `f` maps losslessly. -/
def comap (p : PrefixCodec β) (f : α → β) (g : β → α) (h : ∀ a, g (f a) = a) : PrefixCodec α where
  encode a := p.encode (f a)
  decode bytes := (p.decode bytes).map (fun r => (g r.1, r.2))
  round_trip a rest := by rw [p.round_trip, Option.map_some, h]

def prod (p : PrefixCodec α) (q : PrefixCodec β) : PrefixCodec (α × β) where
  encode a := p.encode a.1 ++ q.encode a.2
  decode bytes :=
    match p.decode bytes with
    | none => none
    | some (a, rest) => (q.decode rest).map (fun r => ((a, r.1), r.2))
  round_trip a rest := by
    rw [List.append_assoc, p.round_trip]
    simp only [q.round_trip, Option.map_some]

def option (p : PrefixCodec α) : PrefixCodec (Option α) where
  encode
    | none => [0]
    | some a => 1 :: p.encode a
  decode
    | [] => none
    | tag :: bytes =>
      if tag = 0 then some (none, bytes) else (p.decode bytes).map (fun r => (some r.1, r.2))
  round_trip a rest := by
    cases a with
    | none => rfl
    | some a =>
      change (p.decode (p.encode a ++ rest)).map _ = _
      rw [p.round_trip, Option.map_some]

def encodeList (p : PrefixCodec α) : List α → List UInt8
  | [] => [0]
  | a :: l => 1 :: (p.encode a ++ encodeList p l)

/-- At most `fuel` elements. -/
def decodeList (p : PrefixCodec α) : ℕ → List UInt8 → Option (List α × List UInt8)
  | 0, _ => none
  | _, [] => none
  | fuel + 1, tag :: bytes =>
    if tag = 0 then some ([], bytes)
    else
      match p.decode bytes with
      | none => none
      | some (a, rest) => (decodeList p fuel rest).map (fun r => (a :: r.1, r.2))

lemma decodeList_encodeList (p : PrefixCodec α) (l : List α) (rest : List UInt8) (fuel : ℕ)
    (h : l.length < fuel) : p.decodeList fuel (p.encodeList l ++ rest) = some (l, rest) := by
  induction l generalizing fuel with
  | nil =>
    obtain ⟨fuel, rfl⟩ := Nat.exists_eq_succ_of_ne_zero (by omega : fuel ≠ 0)
    rfl
  | cons a l ih =>
    rw [List.length_cons] at h
    obtain ⟨fuel, rfl⟩ := Nat.exists_eq_succ_of_ne_zero (by omega : fuel ≠ 0)
    have hbytes : p.encodeList (a :: l) ++ rest =
        1 :: (p.encode a ++ (p.encodeList l ++ rest)) := by
      simp [encodeList]
    rw [hbytes, decodeList, if_neg (by decide), p.round_trip]
    simp only [ih fuel (by omega), Option.map_some]

lemma length_lt_encodeList (p : PrefixCodec α) (l : List α) : l.length < (p.encodeList l).length := by
  induction l with
  | nil => exact Nat.zero_lt_one
  | cons a l ih =>
    rw [encodeList, List.length_cons, List.length_cons, List.length_append]
    omega

/-- The elements one after another, each behind a tag; the input is fuel enough. -/
def list (p : PrefixCodec α) : PrefixCodec (List α) where
  encode := p.encodeList
  decode bytes := p.decodeList bytes.length bytes
  round_trip l rest := by
    apply p.decodeList_encodeList
    have := p.length_lt_encodeList l
    rw [List.length_append]
    omega

end PrefixCodec
