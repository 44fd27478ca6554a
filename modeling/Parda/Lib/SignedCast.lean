import Mathlib.Algebra.Order.Ring.Int
import Mathlib.Data.List.Basic

/-!
# Unsigned numbers in signed columns

The order of 64-bit numbers, and their order once a cast has made them signed.
-/

namespace SignedCast

/-- The numbers have the same sign when they are read as signed ones. -/
def SameHalf (a b : UInt64) : Prop := a.toNat < 2 ^ 63 ↔ b.toNat < 2 ^ 63

instance (a b : UInt64) : Decidable (SameHalf a b) := inferInstanceAs (Decidable (_ ↔ _))

variable {a b : UInt64}

lemma SameHalf.symm (h : SameHalf a b) : SameHalf b a := Iff.symm h

lemma toInt_toInt64 (a : UInt64) :
    a.toInt64.toInt = if a.toNat < 2 ^ 63 then (a.toNat : ℤ) else a.toNat - 2 ^ 64 := by
  change a.toBitVec.toInt = _
  rw [BitVec.toInt_eq_toNat_cond, UInt64.toNat_toBitVec]
  split
  · rw [if_pos (by omega)]
  · rw [if_neg (by omega)]
    rfl

/-- A cast keeps the order of two numbers exactly when they end up with the same sign. -/
theorem toInt64_le_iff_le : (a.toInt64 ≤ b.toInt64 ↔ a ≤ b) ↔ SameHalf a b := by
  have ha := a.toNat_lt
  have hb := b.toNat_lt
  rw [Int64.le_iff_toInt_le, UInt64.le_iff_toNat_le, toInt_toInt64, toInt_toInt64]
  unfold SameHalf
  split
  · split
    · omega
    · omega
  · split
    · omega
    · omega

/-- A list sorted by signed columns is sorted by the numbers exactly when all of these are in one
half. -/
theorem pairwise_le_iff {α : Type*} {f : α → UInt64} {l : List α}
    (h : l.Pairwise fun x y => (f x).toInt64 ≤ (f y).toInt64) :
    (l.Pairwise fun x y => f x ≤ f y) ↔ l.Pairwise fun x y => SameHalf (f x) (f y) := by
  constructor
  · intro hle
    refine (h.and hle).imp ?_
    rintro x y ⟨hsigned, hunsigned⟩
    exact toInt64_le_iff_le.mp (iff_of_true hsigned hunsigned)
  · intro hsame
    refine (h.and hsame).imp ?_
    rintro x y ⟨hsigned, hhalf⟩
    exact (toInt64_le_iff_le.mpr hhalf).mp hsigned

end SignedCast
