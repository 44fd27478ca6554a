import Mathlib.Data.List.Basic

/-!
# Ledgers

A ledger lists the events that happened to a keyed table, the latest first. An event may
put values under keys, and it may clear values from keys. A value remains under a key
when some event put it there and no later one cleared it.
-/

namespace Ledger

variable {ε κ β : Type*} (puts clears : ε → κ → β → Prop)

/-- What a ledger says the table holds. -/
def Remains (k : κ) (v : β) : List ε → Prop
  | [] => False
  | e :: ledger => puts e k v ∨ (¬clears e k v ∧ Remains k v ledger)

variable {puts clears} {k : κ} {v : β}

lemma remains_cons {e : ε} {ledger : List ε} : Remains puts clears k v (e :: ledger) ↔
    puts e k v ∨ (¬clears e k v ∧ Remains puts clears k v ledger) := Iff.rfl

/-- Events that clear nothing only add to what remains. -/
lemma remains_append {events : List ε} (ledger : List ε) (h : ∀ e ∈ events, ¬clears e k v) :
    Remains puts clears k v (events ++ ledger) ↔
      (∃ e ∈ events, puts e k v) ∨ Remains puts clears k v ledger := by
  induction events with
  | nil => simp
  | cons e events ih =>
    rw [List.forall_mem_cons] at h
    rw [List.cons_append, remains_cons, ih h.2, List.exists_mem_cons_iff]
    simp [h.1, or_assoc]

/-- A value remains exactly when it was put at some point and not cleared since. -/
theorem remains_iff {ledger : List ε} : Remains puts clears k v ledger ↔
    ∃ since e older, ledger = since ++ e :: older ∧ puts e k v ∧ ∀ e' ∈ since, ¬clears e' k v := by
  induction ledger with
  | nil => simp [Remains]
  | cons e ledger ih =>
    rw [remains_cons, ih]
    constructor
    · rintro (hput | ⟨hkeep, since, e', older, rfl, hput, hsince⟩)
      · exact ⟨[], e, ledger, rfl, hput, by simp⟩
      · refine ⟨e :: since, e', older, rfl, hput, ?_⟩
        rw [List.forall_mem_cons]
        exact ⟨hkeep, hsince⟩
    · rintro ⟨since, e', older, heq, hput, hsince⟩
      cases since with
      | nil =>
        simp only [List.nil_append, List.cons.injEq] at heq
        rw [heq.1]
        exact Or.inl hput
      | cons e'' since =>
        simp only [List.cons_append, List.cons.injEq] at heq
        rw [List.forall_mem_cons] at hsince
        rw [heq.1]
        exact Or.inr ⟨hsince.1, since, e', older, heq.2, hput, hsince.2⟩

/-- Some event of a ledger satisfies `p`, given the events before it. -/
def Happened (p : ε → List ε → Prop) : List ε → Prop
  | [] => False
  | e :: ledger => p e ledger ∨ Happened p ledger

lemma happened_cons {p : ε → List ε → Prop} {e : ε} {ledger : List ε} :
    Happened p (e :: ledger) ↔ p e ledger ∨ Happened p ledger := Iff.rfl

end Ledger
