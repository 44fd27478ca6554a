import Mathlib.Algebra.Order.Group.Multiset
import Mathlib.Data.List.Sort
import Mathlib.Data.Multiset.Filter
import Mathlib.Tactic.Abel

/-!
# Keyed tables

A table is a list of rows with a primary key, in no particular order, and every row
holds a list of items. `items` collects the items of all rows as a multiset, so that
moving rows around is an equation.
-/

namespace Table

variable {ρ κ α : Type*} (key : ρ → κ) (content : ρ → List α)

def items (rows : List ρ) : Multiset α := (rows.flatMap content : List α)

/-- No two rows share a key. -/
def KeysDistinct (rows : List ρ) : Prop := (rows.map key).Nodup

section Items

variable {key content} {rows : List ρ} {r : ρ}

@[simp] lemma items_nil : items content [] = 0 := rfl

@[simp] lemma items_cons : items content (r :: rows) = content r + items content rows := by
  unfold items
  rw [List.flatMap_cons, Multiset.coe_add]

@[simp] lemma items_append (rows' : List ρ) :
    items content (rows ++ rows') = items content rows + items content rows' := by
  unfold items
  rw [List.flatMap_append, Multiset.coe_add]

lemma mem_items {a : α} : a ∈ items content rows ↔ ∃ r ∈ rows, a ∈ content r := by
  unfold items
  rw [Multiset.mem_coe, List.mem_flatMap]

lemma items_perm {rows' : List ρ} (h : rows.Perm rows') : items content rows = items content rows' :=
  Multiset.coe_eq_coe.mpr (h.flatMap_right content)

lemma coe_map_eraseIdx {β γ : Type*} {l : List β} {k : ℕ} {b : β} (h : l[k]? = some b) (f : β → γ) :
    (l.map f : Multiset γ) = f b ::ₘ ((l.eraseIdx k).map f : Multiset γ) := by
  obtain ⟨hk, rfl⟩ := List.getElem?_eq_some_iff.mp h
  rw [Multiset.cons_coe, ← List.map_cons]
  exact Multiset.coe_eq_coe.mpr ((List.getElem_cons_eraseIdx_perm hk).symm.map f)

/-- Splitting a table loses nothing. -/
lemma items_filter_add (p : ρ → Bool) (rows : List ρ) :
    items content (rows.filter p) + items content (rows.filter (fun r => !p r)) =
      items content rows := by
  rw [← items_append]
  exact items_perm (List.filter_append_perm p rows)

lemma KeysDistinct.filter (h : KeysDistinct key rows) (p : ρ → Bool) :
    KeysDistinct key (rows.filter p) :=
  List.Nodup.sublist (List.filter_sublist.map key) h

end Items

/-- `ORDER BY` a column, ascending: rows that have it equal come in any order. -/
structure OrderBy {β : Type*} [LE β] (column : ρ → β) where
  sort : List ρ → List ρ
  sort_perm : ∀ rows, (sort rows).Perm rows
  sort_sorted : ∀ rows, (sort rows).Pairwise fun r r' => column r ≤ column r'

/-- The order in which rows with one value come out as they went in. -/
def OrderBy.stable (column : ρ → Int64) : OrderBy column where
  sort rows := rows.insertionSort fun r r' => column r ≤ column r'
  sort_perm rows := List.perm_insertionSort _ rows
  sort_sorted rows := by
    have htotal : Std.Total (fun r r' : ρ => column r ≤ column r') :=
      ⟨fun r r' => Int64.le_total (column r) (column r')⟩
    have htrans : IsTrans ρ (fun r r' => column r ≤ column r') := ⟨fun _ _ _ => Int64.le_trans⟩
    exact List.pairwise_insertionSort _ rows

variable [DecidableEq κ]

/-- The content of the row with key `k`, empty when there is none. -/
def contentAt (rows : List ρ) (k : κ) : List α :=
  ((rows.find? (fun r => key r = k)).map content).getD []

def deleteKey (rows : List ρ) (k : κ) : List ρ :=
  rows.filter (fun r => key r ≠ k)

/-- Insert a row, or replace the one with its key. -/
def upsert (rows : List ρ) (r : ρ) : List ρ :=
  r :: deleteKey key rows (key r)

variable {key content} {rows : List ρ} {r : ρ} {k : κ}

lemma mem_deleteKey : r ∈ deleteKey key rows k ↔ r ∈ rows ∧ key r ≠ k := by
  simp [deleteKey]

lemma deleteKey_eq_self (h : ∀ r ∈ rows, key r ≠ k) : deleteKey key rows k = rows := by
  apply List.filter_eq_self.mpr
  intro r hr
  exact decide_eq_true (h r hr)

/-- An upsert replaces the row of its key and leaves the others. -/
lemma find?_upsert (rows : List ρ) (r : ρ) (k : κ) :
    (upsert key rows r).find? (fun r => key r = k) =
      if key r = k then some r else rows.find? (fun r => key r = k) := by
  unfold upsert deleteKey
  rw [List.find?_cons, List.find?_filter]
  by_cases h : key r = k
  · simp [h]
  · simp only [h, decide_false, if_false]
    congr 1
    funext r'
    by_cases h' : key r' = k
    · have hne : k ≠ key r := fun heq => h heq.symm
      simp [h', hne]
    · simp [h']

lemma find?_deleteKey_of_ne {k' : κ} (h : k' ≠ k) (rows : List ρ) :
    (deleteKey key rows k).find? (fun r => key r = k') = rows.find? (fun r => key r = k') := by
  unfold deleteKey
  rw [List.find?_filter]
  congr 1
  funext r
  by_cases hr : key r = k'
  · simp [hr, h]
  · simp [hr]

/-- The one row of its key. -/
lemma KeysDistinct.find?_of_mem (h : KeysDistinct key rows) (hr : r ∈ rows) :
    rows.find? (fun r' => key r' = key r) = some r := by
  induction rows with
  | nil => cases hr
  | cons r' rows ih =>
    obtain ⟨hfresh, hrows⟩ := List.nodup_cons.mp h
    rw [List.find?_cons]
    rcases List.mem_cons.mp hr with rfl | hmem
    · simp
    · have hne : key r' ≠ key r := fun heq => hfresh (heq ▸ List.mem_map_of_mem hmem)
      simp only [hne, decide_false]
      exact ih hrows hmem

/-- Deleting rows by any condition leaves the row of a key when it does not meet it. -/
lemma KeysDistinct.find?_filter (h : KeysDistinct key rows) (p : ρ → Bool) (k : κ) :
    (rows.filter p).find? (fun r => key r = k) =
      (rows.find? (fun r => key r = k)).filter p := by
  induction rows with
  | nil => rfl
  | cons r rows ih =>
    obtain ⟨hfresh, hrows⟩ := List.nodup_cons.mp h
    by_cases hk : key r = k
    · have hnone : (rows.filter p).find? (fun r => key r = k) = none := by
        rw [List.find?_eq_none]
        intro r' hr' heq
        have hmem := List.mem_map_of_mem (f := key) (List.mem_filter.mp hr').1
        rw [of_decide_eq_true heq, ← hk] at hmem
        exact hfresh hmem
      by_cases hp : p r = true
      · simp [hp, hk, Option.filter]
      · simp [hp, hk, hnone, Option.filter]
    · by_cases hp : p r = true
      · simpa [hp, hk] using ih hrows
      · simpa [hp, hk] using ih hrows

section DeleteMany

variable (keys : List κ)

lemma mem_foldl_deleteKey : r ∈ keys.foldl (deleteKey key) rows ↔ r ∈ rows ∧ key r ∉ keys := by
  induction keys generalizing rows with
  | nil => simp
  | cons k keys ih => rw [List.foldl_cons, ih, mem_deleteKey, List.mem_cons, not_or, and_assoc]

lemma KeysDistinct.foldl_deleteKey (h : KeysDistinct key rows) :
    KeysDistinct key (keys.foldl (deleteKey key) rows) := by
  induction keys generalizing rows with
  | nil => exact h
  | cons k keys ih => exact ih (h.filter _)

lemma find?_foldl_deleteKey {k : κ} (h : k ∉ keys) :
    (keys.foldl (deleteKey key) rows).find? (fun r => key r = k) =
      rows.find? (fun r => key r = k) := by
  induction keys generalizing rows with
  | nil => rfl
  | cons k' keys ih =>
    rw [List.mem_cons, not_or] at h
    rw [List.foldl_cons, ih h.2, find?_deleteKey_of_ne h.1]

end DeleteMany

lemma contentAt_of_notMem (h : k ∉ rows.map key) : contentAt key content rows k = [] := by
  have hnone : rows.find? (fun r => key r = k) = none := by
    rw [List.find?_eq_none]
    intro r hr hk
    exact h (List.mem_map.mpr ⟨r, hr, of_decide_eq_true hk⟩)
  unfold contentAt
  rw [hnone]
  rfl

lemma KeysDistinct.upsert (h : KeysDistinct key rows) (r : ρ) :
    KeysDistinct key (upsert key rows r) := by
  refine List.nodup_cons.mpr ⟨?_, h.filter _⟩
  intro hmem
  obtain ⟨r', hr', heq⟩ := List.mem_map.mp hmem
  exact (mem_deleteKey.mp hr').2 heq

/-- Deleting a key removes the content of its one row. -/
lemma items_deleteKey (h : KeysDistinct key rows) (k : κ) :
    items content rows = contentAt key content rows k + items content (deleteKey key rows k) := by
  induction rows with
  | nil => simp [contentAt, deleteKey]
  | cons r rows ih =>
    obtain ⟨hr, hrows⟩ := List.nodup_cons.mp h
    by_cases hk : key r = k
    · subst hk
      have hnone : deleteKey key rows (key r) = rows := by
        apply deleteKey_eq_self
        intro r' hr' heq
        exact hr (heq ▸ List.mem_map_of_mem hr')
      have hdel : deleteKey key (r :: rows) (key r) = deleteKey key rows (key r) := by
        simp [deleteKey]
      have hfind : contentAt key content (r :: rows) (key r) = content r := by
        simp [contentAt]
      rw [items_cons, hdel, hnone, hfind]
    · have hdel : deleteKey key (r :: rows) k = r :: deleteKey key rows k := by
        simp [deleteKey, hk]
      have hfind : contentAt key content (r :: rows) k = contentAt key content rows k := by
        simp [contentAt, hk]
      rw [items_cons, hdel, hfind, items_cons, ih hrows, add_left_comm]

/-- An upsert adds the new content and drops what its key held before. -/
lemma items_upsert (h : KeysDistinct key rows) (r : ρ) :
    items content (upsert key rows r) + contentAt key content rows (key r) =
      items content rows + content r := by
  unfold upsert
  rw [items_cons, items_deleteKey h (key r)]
  abel

end Table
