import Mathlib.Data.List.Basic
import Mathlib.Data.Option.Basic

/-!
# Message grammars

A grammar says which messages may come next on a stream: each message takes the stream
from one phase to the next. `Carries next p queue q` says that a queue takes it from the
phase `p` that its reader has reached to the phase `q` that its writer has reached.
-/

namespace Grammar

variable {φ μ : Type*} (next : φ → μ → Option φ)

def Carries (p : φ) (queue : List μ) (q : φ) : Prop :=
  queue.foldlM next p = some q

variable {next} {p q r : φ} {m : μ} {queue : List μ}

@[simp] lemma carries_nil : Carries next p [] q ↔ p = q := by
  simp [Carries]

@[simp] lemma carries_cons :
    Carries next p (m :: queue) q ↔ ∃ r, next p m = some r ∧ Carries next r queue q := by
  simp [Carries, Option.bind_eq_some_iff]

/-- Writing a message that the grammar allows. -/
lemma Carries.concat (h : Carries next p queue q) (hm : next q m = some r) :
    Carries next p (queue ++ [m]) r := by
  unfold Carries at *
  rw [List.foldlM_append, h]
  simpa using hm

/-- Nothing is in flight behind the last message. -/
lemma Carries.eq_nil (h : Carries next p queue q) (hlast : ∀ m, next p m = none) :
    queue = [] ∧ q = p := by
  cases queue with
  | nil => exact ⟨rfl, (carries_nil.mp h).symm⟩
  | cons m queue =>
    obtain ⟨r, hr, -⟩ := carries_cons.mp h
    rw [hlast m] at hr
    cases hr

/-- Two programs that each have written more than they have read are not both waiting on
an empty queue. -/
lemma not_both_starved {depth : φ → ℕ} {read write read' write' : φ}
    (hahead : depth read < depth write) (hahead' : depth read' < depth write')
    (h : Carries next read [] write') (h' : Carries next read' [] write) : False := by
  rw [carries_nil] at h h'
  subst h h'
  omega

end Grammar
