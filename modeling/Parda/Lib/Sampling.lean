import Mathlib.Data.List.NodupEquivFin
import Mathlib.Data.List.Perm.Subperm

/-!
# Choice without replacement

A draw picks distinct positions of a list at random. What holds of every choice of `k`
items is a property of the list: the choices, up to order, are its sublists of length
`k`.
-/

namespace Sampling

/-- The positions picked when `k` of `n` items are wanted, in the order they are picked. -/
structure Draw where
  positions : ℕ → ℕ → List ℕ
  length_positions : ∀ n k, (positions n k).length = min k n
  nodup_positions : ∀ n k, (positions n k).Nodup
  lt_of_mem : ∀ n k, ∀ i ∈ positions n k, i < n

/-- The draw that picks the first items. -/
def Draw.first : Draw where
  positions n k := List.range (min k n)
  length_positions _ _ := List.length_range
  nodup_positions _ _ := List.nodup_range
  lt_of_mem n k _ hi := lt_of_lt_of_le (List.mem_range.mp hi) (min_le_right k n)

variable {α : Type*}

def choose (d : Draw) (l : List α) (k : ℕ) : List α :=
  (d.positions l.length k).filterMap (fun i => l[i]?)

lemma filterMap_range (l : List α) : (List.range l.length).filterMap (fun i => l[i]?) = l := by
  induction l with
  | nil => rfl
  | cons a l ih =>
    rw [List.length_cons, List.range_succ_eq_map, List.filterMap_cons, List.filterMap_map]
    simp only [List.getElem?_cons_zero, Function.comp_def, List.getElem?_cons_succ, ih]

lemma length_choose (d : Draw) (l : List α) (k : ℕ) :
    (choose d l k).length = min k l.length := by
  have hall : ∀ is : List ℕ, (∀ i ∈ is, i < l.length) →
      (is.filterMap (fun i => l[i]?)).length = is.length := by
    intro is his
    induction is with
    | nil => rfl
    | cons i is ih =>
      rw [List.forall_mem_cons] at his
      rw [List.filterMap_cons, List.getElem?_eq_getElem his.1]
      simp [ih his.2]
  unfold choose
  rw [hall _ (d.lt_of_mem _ _), d.length_positions]

lemma choose_subperm (d : Draw) (l : List α) (k : ℕ) : (choose d l k).Subperm l := by
  have hsub : (d.positions l.length k).Subperm (List.range l.length) := by
    apply List.subperm_of_subset (d.nodup_positions _ _)
    intro i hi
    rw [List.mem_range]
    exact d.lt_of_mem _ _ i hi
  obtain ⟨is, hperm, hle⟩ := hsub
  refine ⟨is.filterMap (fun i => l[i]?), hperm.filterMap _, ?_⟩
  have hfilter := hle.filterMap (fun i => l[i]?)
  rwa [filterMap_range] at hfilter

/-- Every sublist of length `k` is chosen by some draw. -/
lemma exists_choose_eq {s l : List α} (h : s.Sublist l) : ∃ d, choose d l s.length = s := by
  obtain ⟨f, hf⟩ := List.sublist_iff_exists_orderEmbedding_getElem?_eq.mp h
  have hlt : ∀ i, i < s.length → f i < l.length := by
    intro i hi
    have hsome := hf i
    rw [List.getElem?_eq_getElem hi, eq_comm, List.getElem?_eq_some_iff] at hsome
    exact hsome.choose
  have hle := h.length_le
  let d : Draw :=
    { positions := fun n k =>
        if n = l.length ∧ k = s.length then (List.range k).map f else List.range (min k n)
      length_positions := by
        intro n k
        by_cases hnk : n = l.length ∧ k = s.length
        · rw [if_pos hnk, List.length_map, List.length_range]
          omega
        · rw [if_neg hnk, List.length_range]
      nodup_positions := by
        intro n k
        by_cases hnk : n = l.length ∧ k = s.length
        · rw [if_pos hnk]
          exact List.nodup_range.map f.injective
        · rw [if_neg hnk]
          exact List.nodup_range
      lt_of_mem := by
        intro n k i hi
        by_cases hnk : n = l.length ∧ k = s.length
        · rw [if_pos hnk] at hi
          obtain ⟨j, hj, rfl⟩ := List.mem_map.mp hi
          rw [List.mem_range, hnk.2] at hj
          rw [hnk.1]
          exact hlt j hj
        · rw [if_neg hnk, List.mem_range] at hi
          omega }
  refine ⟨d, ?_⟩
  have hpositions : d.positions l.length s.length = (List.range s.length).map f :=
    if_pos ⟨rfl, rfl⟩
  unfold choose
  rw [hpositions, List.filterMap_map]
  simp only [Function.comp_def, ← hf]
  exact filterMap_range s

/-- A sublist extends to one of any greater length within the list. -/
lemma exists_sublist_between {s l : List α} (h : s.Sublist l) {k : ℕ} (hsk : s.length ≤ k)
    (hkl : k ≤ l.length) : ∃ t : List α, s.Sublist t ∧ t.Sublist l ∧ t.length = k := by
  induction h generalizing k with
  | slnil => exact ⟨[], List.Sublist.refl _, List.Sublist.refl _, (Nat.le_zero.mp hkl).symm⟩
  | @cons s l a h ih =>
    rw [List.length_cons] at hkl
    by_cases hk : k ≤ l.length
    · obtain ⟨t, hst, htl, hlen⟩ := ih hsk hk
      exact ⟨t, hst, htl.cons a, hlen⟩
    · refine ⟨a :: l, h.cons a, List.Sublist.refl _, ?_⟩
      rw [List.length_cons]
      omega
  | @cons_cons s l a h ih =>
    rw [List.length_cons] at hsk hkl
    obtain ⟨t, hst, htl, hlen⟩ := ih (k := k - 1) (by omega) (by omega)
    refine ⟨a :: t, hst.cons_cons a, htl.cons_cons a, ?_⟩
    rw [List.length_cons]
    omega

/-- All choices of `k` items of which each fits are pairwise related exactly when fewer
than `k` items fit or those that do are pairwise related. -/
theorem forall_choose_pairwise_iff (fits : α → Bool) {r : α → α → Prop}
    (hsymm : ∀ a b, r a b → r b a) {l : List α} {k : ℕ} (hk : 2 ≤ k) (hkl : k ≤ l.length) :
    (∀ d, (∀ a ∈ choose d l k, fits a = true) → (choose d l k).Pairwise r) ↔
      (l.filter fits).length < k ∨ (l.filter fits).Pairwise r := by
  constructor
  · intro h
    by_cases hfew : (l.filter fits).length < k
    · exact Or.inl hfew
    right
    rw [List.pairwise_iff_forall_sublist]
    intro a b hab
    obtain ⟨t, habt, htl, hlen⟩ := exists_sublist_between hab (k := k) (by simpa using hk) (by omega)
    obtain ⟨d, hd⟩ := exists_choose_eq (htl.trans List.filter_sublist)
    rw [hlen] at hd
    have hfits : ∀ a ∈ choose d l k, fits a = true := by
      intro a ha
      rw [hd] at ha
      exact (List.mem_filter.mp (htl.subset ha)).2
    have hpair := h d hfits
    rw [hd] at hpair
    exact hpair.forall_sublist habt
  · rintro h d hfits
    have hsub : (choose d l k).Subperm (l.filter fits) := by
      have hfilter := (choose_subperm d l k).filter fits
      rwa [List.filter_eq_self.mpr hfits] at hfilter
    have hlen := hsub.length_le
    rw [length_choose] at hlen
    rcases h with hfew | hpair
    · omega
    · obtain ⟨t, hperm, hle⟩ := hsub
      exact hperm.pairwise (hpair.sublist hle) fun hab => hsymm _ _ hab

end Sampling
