import Mathlib.Algebra.Order.BigOperators.Group.List
import Mathlib.Algebra.Ring.Nat
import Mathlib.Data.List.AList

/-!
# Weights of finite maps

The total weight of the values of a finite map, and what inserting and erasing one key
do to it. With every weight one it is the number of keys.
-/

namespace Weight

variable {κ β : Type*} (w : β → ℕ)

def total (m : AList (fun _ : κ => β)) : ℕ :=
  (m.entries.map (fun e => w e.2)).sum

variable {w} {m : AList (fun _ : κ => β)} {a : κ} {b : β}

lemma total_one : total (fun _ => 1) m = m.entries.length := by
  unfold total
  rw [List.map_const', List.sum_replicate_nat, Nat.mul_one]

variable [DecidableEq κ]

lemma total_insert (h : a ∉ m) : total w (m.insert a b) = total w m + w b := by
  unfold total
  rw [AList.entries_insert_of_notMem h, List.map_cons, List.sum_cons, Nat.add_comm]

lemma total_erase (h : m.lookup a = some b) : total w (m.erase a) + w b = total w m := by
  have hmem : a ∈ m := AList.lookup_isSome.mp (by rw [h]; rfl)
  obtain ⟨b', l₁, l₂, -, hentries, herase⟩ := List.exists_of_kerase (AList.mem_keys.mp hmem)
  have hb : b' = b := by
    have hin : (⟨a, b'⟩ : Sigma fun _ : κ => β) ∈ m.entries := by
      rw [hentries]
      simp
    have hlook := AList.mem_lookup_iff.mpr hin
    rw [h] at hlook
    exact (Option.some.inj hlook).symm
  subst hb
  have hm : (m.erase a).entries = l₁ ++ l₂ := herase
  unfold total
  rw [hm, hentries]
  simp only [List.map_append, List.map_cons, List.sum_append, List.sum_cons]
  omega

lemma le_total (h : m.lookup a = some b) : w b ≤ total w m := by
  have := total_erase (w := w) h
  omega

end Weight
