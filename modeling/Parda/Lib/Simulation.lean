import Parda.Lib.Machine

/-!
# Observed runs and simulations

A machine that puts out at most one value a step, and the simulation rule: when each step
of one machine is no step or one step of another with the same output, its runs put out
what the runs of the other do.
-/

namespace Machine

variable {σ α τ β ω : Type*}

/-- The outputs of a run, in order. -/
def outputs (step : σ → α → σ) (out : σ → α → Option ω) : σ → List α → List ω
  | _, [] => []
  | s, a :: labels => (out s a).toList ++ outputs step out (step s a) labels

section Outputs

variable {step : σ → α → σ} {out : σ → α → Option ω}

@[simp] lemma outputs_nil (s : σ) : outputs step out s [] = [] := rfl

lemma outputs_cons (s : σ) (a : α) (labels : List α) :
    outputs step out s (a :: labels) =
      (out s a).toList ++ outputs step out (step s a) labels := rfl

lemma outputs_append (s : σ) (labels labels' : List α) :
    outputs step out s (labels ++ labels') =
      outputs step out s labels ++ outputs step out (run step s labels) labels' := by
  induction labels generalizing s with
  | nil => rfl
  | cons a labels ih =>
    rw [List.cons_append, outputs_cons, outputs_cons, ih, run_cons, List.append_assoc]

/-- What holds of every output of a step under the invariant holds of the outputs of a
run. -/
theorem forall_mem_outputs {inv : σ → Prop} {p : ω → Prop}
    (hstep : ∀ s a, inv s → inv (step s a)) (hout : ∀ s a, inv s → ∀ o ∈ out s a, p o) {s : σ}
    (hs : inv s) (labels : List α) : ∀ o ∈ outputs step out s labels, p o := by
  induction labels generalizing s with
  | nil => simp
  | cons a labels ih =>
    intro o ho
    rw [outputs_cons, List.mem_append] at ho
    rcases ho with ho | ho
    · exact hout s a hs o (Option.mem_toList.mp ho)
    · exact ih (hstep s a hs) o ho

end Outputs

/-- A step of the concrete machine is matched by the step of the abstract machine that
`event` names, or by none when it puts out nothing. -/
structure Simulates (rel : σ → τ → Prop) (event : σ → α → Option β) (step : σ → α → σ)
    (out : σ → α → Option ω) (step' : τ → β → τ) (out' : τ → β → Option ω) : Prop where
  stutter : ∀ s t a, rel s t → event s a = none → rel (step s a) t ∧ out s a = none
  forward : ∀ s t a b, rel s t → event s a = some b →
    rel (step s a) (step' t b) ∧ out s a = out' t b

/-- The simulation rule. -/
theorem Simulates.run {rel : σ → τ → Prop} {event : σ → α → Option β} {step : σ → α → σ}
    {out : σ → α → Option ω} {step' : τ → β → τ} {out' : τ → β → Option ω}
    (h : Simulates rel event step out step' out') {s : σ} {t : τ} (hst : rel s t)
    (labels : List α) :
    rel (run step s labels) (Machine.run step' t (outputs step event s labels)) ∧
      outputs step out s labels = outputs step' out' t (outputs step event s labels) := by
  induction labels generalizing s t with
  | nil => exact ⟨hst, rfl⟩
  | cons a labels ih =>
    cases hevent : event s a with
    | none =>
      obtain ⟨hrel, hout⟩ := h.stutter s t a hst hevent
      simpa [outputs_cons, hevent, hout] using ih hrel
    | some b =>
      obtain ⟨hrel, hout⟩ := h.forward s t a b hst hevent
      simpa [outputs_cons, hevent, hout] using ih hrel

end Machine
