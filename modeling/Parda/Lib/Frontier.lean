import Mathlib.Data.Finset.Card
import Mathlib.Order.Lattice.Nat

/-!
# Contiguous frontiers

A receiver that accepts numbered items out of order can keep the accepted numbers as
a contiguous prefix `i < low` and a finite set of stragglers `ahead`. `catchUp` moves
the prefix over the stragglers that have become contiguous. The accepted set does not
change, and afterwards `low` is its frontier: the least number not accepted.
-/

namespace Frontier

/-- The least number outside a set. -/
noncomputable def frontier (s : Set ℕ) : ℕ :=
  sInf sᶜ

/-- The accepted numbers that a prefix and its stragglers stand for. -/
def claimed (low : ℕ) (ahead : Finset ℕ) : Set ℕ :=
  {i | i < low ∨ i ∈ ahead}

/-- At most `fuel` rounds of moving the prefix over a contiguous straggler. -/
def catchUpAux : ℕ → ℕ → Finset ℕ → ℕ × Finset ℕ
  | 0, low, ahead => (low, ahead)
  | fuel + 1, low, ahead =>
    if low ∈ ahead then catchUpAux fuel (low + 1) (ahead.erase low) else (low, ahead)

/-- Move the prefix over every contiguous straggler. Each round removes a straggler, so
their number is fuel enough. -/
def catchUp (low : ℕ) (ahead : Finset ℕ) : ℕ × Finset ℕ :=
  catchUpAux ahead.card low ahead

@[simp] lemma mem_claimed {low : ℕ} {ahead : Finset ℕ} {i : ℕ} :
    i ∈ claimed low ahead ↔ i < low ∨ i ∈ ahead := Iff.rfl

lemma claimed_union (low : ℕ) (ahead new : Finset ℕ) :
    claimed low (ahead ∪ new) = claimed low ahead ∪ new := by
  ext i
  simp [or_assoc]

lemma frontier_le {s : Set ℕ} {i : ℕ} (h : i ∉ s) : frontier s ≤ i :=
  Nat.sInf_le h

/-- A number outside the set with the set below it is the frontier. -/
lemma frontier_eq {s : Set ℕ} {i : ℕ} (h : i ∉ s) (hlt : ∀ j, j < i → j ∈ s) : frontier s = i := by
  have hne : sᶜ.Nonempty := ⟨i, h⟩
  have hmem : frontier s ∉ s := Nat.sInf_mem hne
  have hle := frontier_le h
  by_contra hi
  exact hmem (hlt _ (by omega))

lemma frontier_claimed {low : ℕ} {ahead : Finset ℕ} (h : low ∉ ahead) :
    frontier (claimed low ahead) = low :=
  frontier_eq (by simp [h]) (fun j hj => Or.inl hj)

lemma claimed_succ_erase {low : ℕ} {ahead : Finset ℕ} (h : low ∈ ahead) :
    claimed (low + 1) (ahead.erase low) = claimed low ahead := by
  ext i
  simp only [mem_claimed, Finset.mem_erase]
  by_cases hi : i = low
  · subst hi
    simp [h]
  · simp only [hi, ne_eq, not_false_eq_true, true_and]
    have : i < low + 1 ↔ i < low := by omega
    rw [this]

lemma catchUpAux_spec (fuel low : ℕ) (ahead : Finset ℕ) (h : ahead.card ≤ fuel) :
    let r := catchUpAux fuel low ahead
    low ≤ r.1 ∧ r.1 ∉ r.2 ∧ r.2 ⊆ ahead ∧ claimed r.1 r.2 = claimed low ahead ∧
      ((∀ i ∈ ahead, low ≤ i) → ∀ i ∈ r.2, r.1 ≤ i) := by
  induction fuel generalizing low ahead with
  | zero =>
    have hempty : ahead = ∅ := Finset.card_eq_zero.mp (by omega)
    subst hempty
    simp [catchUpAux]
  | succ fuel ih =>
    by_cases hlow : low ∈ ahead
    · have hcard : (ahead.erase low).card ≤ fuel := by
        rw [Finset.card_erase_of_mem hlow]
        omega
      obtain ⟨hle, hnot, hsub, hcl, habove⟩ := ih (low + 1) (ahead.erase low) hcard
      rw [catchUpAux, if_pos hlow]
      refine ⟨by omega, hnot, hsub.trans (Finset.erase_subset _ _),
        hcl.trans (claimed_succ_erase hlow), fun hall => habove ?_⟩
      intro i hi
      have hne := Finset.ne_of_mem_erase hi
      have := hall i (Finset.mem_of_mem_erase hi)
      omega
    · rw [catchUpAux, if_neg hlow]
      exact ⟨le_rfl, hlow, subset_rfl, rfl, fun hall => hall⟩

/-- A straggler below the prefix stays where it is. -/
lemma mem_catchUpAux_of_lt (fuel : ℕ) {low : ℕ} {ahead : Finset ℕ} {i : ℕ} (hlt : i < low)
    (hi : i ∈ ahead) : i ∈ (catchUpAux fuel low ahead).2 := by
  induction fuel generalizing low ahead with
  | zero => exact hi
  | succ fuel ih =>
    rw [catchUpAux]
    split
    · exact ih (by omega) (Finset.mem_erase.mpr ⟨by omega, hi⟩)
    · exact hi

variable (low : ℕ) (ahead : Finset ℕ)

variable {low ahead} in
lemma mem_catchUp_of_lt {i : ℕ} (hlt : i < low) (hi : i ∈ ahead) : i ∈ (catchUp low ahead).2 :=
  mem_catchUpAux_of_lt _ hlt hi

lemma le_catchUp : low ≤ (catchUp low ahead).1 :=
  (catchUpAux_spec _ low ahead le_rfl).1

lemma catchUp_notMem : (catchUp low ahead).1 ∉ (catchUp low ahead).2 :=
  (catchUpAux_spec _ low ahead le_rfl).2.1

lemma catchUp_subset : (catchUp low ahead).2 ⊆ ahead :=
  (catchUpAux_spec _ low ahead le_rfl).2.2.1

/-- Catching up changes the representation, not the accepted set. -/
theorem claimed_catchUp :
    claimed (catchUp low ahead).1 (catchUp low ahead).2 = claimed low ahead :=
  (catchUpAux_spec _ low ahead le_rfl).2.2.2.1

variable {low ahead} in
lemma catchUp_above (h : ∀ i ∈ ahead, low ≤ i) : ∀ i ∈ (catchUp low ahead).2,
    (catchUp low ahead).1 ≤ i :=
  (catchUpAux_spec _ low ahead le_rfl).2.2.2.2 h

/-- After catching up the prefix ends at the frontier of the accepted set. -/
theorem catchUp_fst_eq_frontier : (catchUp low ahead).1 = frontier (claimed low ahead) := by
  rw [← claimed_catchUp low ahead, frontier_claimed (catchUp_notMem low ahead)]

end Frontier
