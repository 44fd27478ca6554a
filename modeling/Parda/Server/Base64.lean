import Parda.Protocol.EnvelopeJson
import Parda.Server.Prekeys

/-!
# Base64 read back

The decoder of the standard alphabet with padding, and its round trip with `base64`.
-/

namespace Parda.Server

open Directory

def base64Value (c : Char) : Option ℕ :=
  if 'A' ≤ c ∧ c ≤ 'Z' then some (c.toNat - 65)
  else if 'a' ≤ c ∧ c ≤ 'z' then some (c.toNat - 71)
  else if '0' ≤ c ∧ c ≤ '9' then some (c.toNat + 4)
  else if c = '+' then some 62
  else if c = '/' then some 63
  else none

/-- The bytes of one group, of which the padding leaves the first one or two. -/
def base64Group (w x y z : ℕ) : List UInt8 :=
  [UInt8.ofNat (w * 4 + x / 16), UInt8.ofNat (x % 16 * 16 + y / 4), UInt8.ofNat (y % 4 * 64 + z)]

def unbase64Chars : List Char → Option Bytes
  | [] => some []
  | [w, x, '=', '='] => do
    let w ← base64Value w
    let x ← base64Value x
    if x % 16 = 0 then some ((base64Group w x 0 0).take 1) else none
  | [w, x, y, '='] => do
    let w ← base64Value w
    let x ← base64Value x
    let y ← base64Value y
    if y % 4 = 0 then some ((base64Group w x y 0).take 2) else none
  | w :: x :: y :: z :: rest => do
    let w ← base64Value w
    let x ← base64Value x
    let y ← base64Value y
    let z ← base64Value z
    let bytes ← unbase64Chars rest
    some (base64Group w x y z ++ bytes)
  | _ => none

def unbase64 (s : String) : Option Bytes := unbase64Chars s.toList

lemma base64Value_base64Char {n : ℕ} (h : n < 64) : base64Value (base64Char n) = some n := by
  have hall : ∀ k : Fin 64, base64Value (base64Char k) = some k.val := by decide
  exact hall ⟨n, h⟩

lemma base64Char_ne {n : ℕ} (h : n < 64) : base64Char n ≠ '=' := by
  have hall : ∀ k : Fin 64, base64Char k ≠ '=' := by decide
  exact hall ⟨n, h⟩

/-- Three bytes are their four sextets. -/
lemma base64Group_sextets (a b c : UInt8) :
    base64Group (a.toNat / 4) (a.toNat % 4 * 16 + b.toNat / 16) (b.toNat % 16 * 4 + c.toNat / 64)
      (c.toNat % 64) = [a, b, c] := by
  have ha := a.toNat_lt
  have hb := b.toNat_lt
  have hc := c.toNat_lt
  have hfirst : a.toNat / 4 * 4 + (a.toNat % 4 * 16 + b.toNat / 16) / 16 = a.toNat := by omega
  have hsecond : (a.toNat % 4 * 16 + b.toNat / 16) % 16 * 16 +
      (b.toNat % 16 * 4 + c.toNat / 64) / 4 = b.toNat := by omega
  have hthird : (b.toNat % 16 * 4 + c.toNat / 64) % 4 * 64 + c.toNat % 64 = c.toNat := by omega
  unfold base64Group
  rw [hfirst, hsecond, hthird, UInt8.ofNat_toNat, UInt8.ofNat_toNat, UInt8.ofNat_toNat]

lemma unbase64Chars_padded (w x : Char) {y : Char} (hy : y ≠ '=') :
    unbase64Chars [w, x, y, '='] = (do
      let w ← base64Value w
      let x ← base64Value x
      let y ← base64Value y
      if y % 4 = 0 then some ((base64Group w x y 0).take 2) else none) := by
  simp [unbase64Chars]

lemma unbase64Chars_group (w x : Char) {y z : Char} (hy : y ≠ '=') (hz : z ≠ '=')
    (rest : List Char) : unbase64Chars (w :: x :: y :: z :: rest) = (do
      let w ← base64Value w
      let x ← base64Value x
      let y ← base64Value y
      let z ← base64Value z
      let bytes ← unbase64Chars rest
      some (base64Group w x y z ++ bytes)) := by
  simp [unbase64Chars, hy, hz]

theorem unbase64Chars_base64Chars (bytes : Bytes) :
    unbase64Chars (base64Chars bytes) = some bytes := by
  induction bytes using base64Chars.induct with
  | case1 => rfl
  | case2 a =>
    have ha := a.toNat_lt
    have hgroup := base64Group_sextets a 0 0
    simp only [base64Chars, unbase64Chars, base64Value_base64Char (show a.toNat / 4 < 64 by omega),
      base64Value_base64Char (show a.toNat % 4 * 16 < 64 by omega)]
    simp only [UInt8.toNat_zero, Nat.zero_div, Nat.zero_mod, Nat.add_zero, Nat.zero_mul] at hgroup
    simp [hgroup]
  | case3 a b =>
    have ha := a.toNat_lt
    have hb := b.toNat_lt
    have hgroup := base64Group_sextets a b 0
    have hne : base64Char (b.toNat % 16 * 4) ≠ '=' := base64Char_ne (by omega)
    simp only [base64Chars, unbase64Chars_padded _ _ hne,
      base64Value_base64Char (show a.toNat / 4 < 64 by omega),
      base64Value_base64Char (show a.toNat % 4 * 16 + b.toNat / 16 < 64 by omega),
      base64Value_base64Char (show b.toNat % 16 * 4 < 64 by omega)]
    simp only [UInt8.toNat_zero, Nat.zero_div, Nat.zero_mod, Nat.add_zero] at hgroup
    simp [hgroup]
  | case4 a b c rest ih =>
    have ha := a.toNat_lt
    have hb := b.toNat_lt
    have hc := c.toNat_lt
    have hne : base64Char (b.toNat % 16 * 4 + c.toNat / 64) ≠ '=' := base64Char_ne (by omega)
    have hne' : base64Char (c.toNat % 64) ≠ '=' := base64Char_ne (by omega)
    simp only [base64Chars, List.cons_append, List.nil_append, unbase64Chars_group _ _ hne hne',
      base64Value_base64Char (show a.toNat / 4 < 64 by omega),
      base64Value_base64Char (show a.toNat % 4 * 16 + b.toNat / 16 < 64 by omega),
      base64Value_base64Char (show b.toNat % 16 * 4 + c.toNat / 64 < 64 by omega),
      base64Value_base64Char (show c.toNat % 64 < 64 by omega), ih]
    simp [base64Group_sextets]

@[simp] theorem unbase64_base64 (bytes : Bytes) : unbase64 (base64 bytes) = some bytes := by
  unfold unbase64 base64
  rw [String.toList_ofList, unbase64Chars_base64Chars]

def standardBase64 : Protocol.Base64 := ⟨base64, unbase64, unbase64_base64⟩

end Parda.Server
