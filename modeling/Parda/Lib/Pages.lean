import Mathlib.Data.Nat.Basic
import Mathlib.Tactic.Lemma

/-!
# Page locks

Memory locked by the page. A lock or an unlock of a range of bytes sets or clears the one
bit of every page that the range touches, so locks do not nest.
-/

namespace Pages

structure Range where
  start : ℕ
  len : ℕ
deriving DecidableEq

/-- A byte of the range lies on the page. -/
def Range.Touches (pageSize : ℕ) (range : Range) (page : ℕ) : Prop :=
  range.len ≠ 0 ∧ range.start / pageSize ≤ page ∧
    page ≤ (range.start + range.len - 1) / pageSize

instance (pageSize : ℕ) (range : Range) (page : ℕ) : Decidable (range.Touches pageSize page) := by
  unfold Range.Touches
  infer_instance

/-- No byte lies in both ranges. -/
def Range.Disjoint (r r' : Range) : Prop := r.start + r.len ≤ r'.start ∨ r'.start + r'.len ≤ r.start

instance (r r' : Range) : Decidable (r.Disjoint r') := by
  unfold Range.Disjoint
  infer_instance

/-- The lock bit of each page. -/
abbrev Locks := ℕ → Bool

def lock (pageSize : ℕ) (range : Range) (locks : Locks) : Locks :=
  fun page => if range.Touches pageSize page then true else locks page

def unlock (pageSize : ℕ) (range : Range) (locks : Locks) : Locks :=
  fun page => if range.Touches pageSize page then false else locks page

/-- Every page the range touches is locked. -/
def Held (pageSize : ℕ) (locks : Locks) (range : Range) : Prop :=
  ∀ page, range.Touches pageSize page → locks page = true

/-- No page holds bytes of both ranges. -/
def Apart (pageSize : ℕ) (r r' : Range) : Prop :=
  ∀ page, r.Touches pageSize page → ¬r'.Touches pageSize page

variable {pageSize : ℕ} {r r' : Range} {locks : Locks}

lemma Range.touches_iff {page : ℕ} :
    r.Touches pageSize page ↔ ∃ i < r.len, (r.start + i) / pageSize = page := by
  constructor
  · rintro ⟨hlen, hstart, hend⟩
    by_cases heq : r.start / pageSize = page
    · exact ⟨0, by omega, heq⟩
    · have hlt : r.start / pageSize < page := by omega
      have hpos : 0 < pageSize := by
        by_contra h
        obtain rfl : pageSize = 0 := by omega
        rw [Nat.div_zero] at hend hlt
        omega
      have hfirst : r.start < page * pageSize := (Nat.div_lt_iff_lt_mul hpos).mp hlt
      have hlast : page * pageSize ≤ r.start + r.len - 1 := (Nat.le_div_iff_mul_le hpos).mp hend
      refine ⟨page * pageSize - r.start, by omega, ?_⟩
      rw [Nat.add_sub_cancel' (Nat.le_of_lt hfirst)]
      exact Nat.mul_div_cancel page hpos
  · rintro ⟨i, hi, rfl⟩
    refine ⟨by omega, ?_, ?_⟩
    · exact Nat.div_le_div_right (by omega)
    · exact Nat.div_le_div_right (by omega)

lemma held_iff : Held pageSize locks r ↔ ∀ i < r.len, locks ((r.start + i) / pageSize) = true := by
  constructor
  · intro h i hi
    exact h _ (Range.touches_iff.mpr ⟨i, hi, rfl⟩)
  · intro h page htouches
    obtain ⟨i, hi, rfl⟩ := Range.touches_iff.mp htouches
    exact h i hi

lemma apart_iff : Apart pageSize r r' ↔
    ∀ i < r.len, ∀ j < r'.len, (r.start + i) / pageSize ≠ (r'.start + j) / pageSize := by
  constructor
  · intro h i hi j hj heq
    exact h _ (Range.touches_iff.mpr ⟨i, hi, heq⟩) (Range.touches_iff.mpr ⟨j, hj, rfl⟩)
  · intro h page htouches htouches'
    obtain ⟨i, hi, rfl⟩ := Range.touches_iff.mp htouches
    obtain ⟨j, hj, heq⟩ := Range.touches_iff.mp htouches'
    exact h i hi j hj heq.symm

lemma held_lock_self : Held pageSize (lock pageSize r locks) r := by
  intro page htouches
  exact if_pos htouches

lemma Held.lock (h : Held pageSize locks r') : Held pageSize (lock pageSize r locks) r' := by
  intro page htouches
  unfold Pages.lock
  split
  · rfl
  · exact h page htouches

/-- An unlock leaves a held range held exactly when the two share no page. -/
lemma held_unlock_iff (h : Held pageSize locks r') :
    Held pageSize (unlock pageSize r locks) r' ↔ Apart pageSize r r' := by
  constructor
  · intro hheld page htouches htouches'
    have hlocked := hheld page htouches'
    unfold unlock at hlocked
    rw [if_pos htouches] at hlocked
    cases hlocked
  · intro hapart page htouches'
    unfold unlock
    rw [if_neg fun htouches => hapart page htouches htouches']
    exact h page htouches'

lemma lock_of_len_eq_zero (h : r.len = 0) : lock pageSize r locks = locks := by
  funext page
  exact if_neg fun htouches => htouches.1 h

lemma unlock_of_len_eq_zero (h : r.len = 0) : unlock pageSize r locks = locks := by
  funext page
  exact if_neg fun htouches => htouches.1 h

end Pages
