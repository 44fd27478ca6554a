import Mathlib.Combinatorics.SimpleGraph.Walk.Basic
import Mathlib.Data.Finset.Card

/-!
# Flooding a graph in rounds

Every vertex holds a set of items, and in every round it pulls from each neighbour
either everything that the neighbour held before the round, or as many new items as a
round may carry. Items then travel along walks.
-/

namespace Flooding

variable {V ι : Type*}

/-- In one round, `v` pulls what `u` held, or grows by `cap` items. -/
def Pulls (cap : ℕ) (before after : V → Finset ι) (v u : V) : Prop :=
  before u ⊆ after v ∨ (before v).card + cap ≤ (after v).card

/-- `N` rounds that lose nothing, hold only items of `all`, and pull along every edge. -/
structure Rounds (G : SimpleGraph V) (cap N : ℕ) (all : Finset ι) (held : ℕ → V → Finset ι) :
    Prop where
  keeps : ∀ n < N, ∀ v, held n v ⊆ held (n + 1) v
  within : ∀ n ≤ N, ∀ v, held n v ⊆ all
  pulls : ∀ n < N, ∀ v u, G.Adj v u → Pulls cap (held n) (held (n + 1)) v u

section Rounds

variable {G : SimpleGraph V} {cap N : ℕ} {all : Finset ι} {held : ℕ → V → Finset ι} {v u : V}

lemma Rounds.mono (h : Rounds G cap N all held) {n m : ℕ} (hnm : n ≤ m) (hm : m ≤ N) (v : V) :
    held n v ⊆ held m v := by
  induction m, hnm using Nat.le_induction with
  | base => exact Finset.Subset.refl _
  | succ m _ ih => exact (ih (by omega)).trans (h.keeps m hm v)

/-- After `k` rounds a neighbour's items are all there, or `k` full rounds are. -/
lemma Rounds.pulled_or_grown (h : Rounds G cap N all held) (hadj : G.Adj v u) (n k : ℕ)
    (hk : n + k ≤ N) : held n u ⊆ held (n + k) v ∨ k * cap ≤ (held (n + k) v).card := by
  induction k with
  | zero => exact Or.inr (by simp)
  | succ k ih =>
    rcases ih (by omega) with hpulled | hgrown
    · exact Or.inl (hpulled.trans (h.keeps _ (by omega) v))
    · rcases h.pulls (n + k) (by omega) v u hadj with hpulls | hgrows
      · exact Or.inl ((h.mono (Nat.le_add_right n k) (by omega) u).trans hpulls)
      · right
        rw [Nat.add_mul, Nat.one_mul]
        exact (Nat.add_le_add_right hgrown cap).trans hgrows

/-- As many rounds as carry all items carry a neighbour's items over the edge. -/
lemma Rounds.crosses (h : Rounds G cap N all held) {k : ℕ} (hk : all.card ≤ k * cap)
    (hadj : G.Adj v u) (n : ℕ) (hn : n + k ≤ N) : held n u ⊆ held (n + k) v := by
  rcases h.pulled_or_grown hadj n k hn with hpulled | hgrown
  · exact hpulled
  · have heq : held (n + k) v = all :=
      Finset.eq_of_subset_of_card_le (h.within _ hn v) (hk.trans hgrown)
    rw [heq]
    exact h.within n (by omega) u

/-- Items travel a walk of length `ℓ` in `k * ℓ` rounds. -/
theorem Rounds.reaches (h : Rounds G cap N all held) {k : ℕ} (hk : all.card ≤ k * cap)
    (walk : G.Walk v u) (n : ℕ) (hn : n + k * walk.length ≤ N) :
    held n u ⊆ held (n + k * walk.length) v := by
  induction walk generalizing n with
  | nil => simp
  | @cons v v' u hadj walk ih =>
    rw [SimpleGraph.Walk.length_cons, Nat.mul_add, Nat.mul_one, ← Nat.add_assoc] at hn ⊢
    have hrest : held n u ⊆ held (n + k * walk.length) v' := ih n (by omega)
    have hlast := h.crosses hk hadj (n + k * walk.length) hn
    exact hrest.trans hlast

end Rounds

end Flooding
