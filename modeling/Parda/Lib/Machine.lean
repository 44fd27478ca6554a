import Mathlib.Data.List.Basic
import Mathlib.Data.List.Count
import Mathlib.Order.Monotone.Basic
import Mathlib.Order.WellFounded

/-!
# Machines

A machine is a total step function on states and labels. A label that its guard
disables is a step that changes nothing, so every list of labels is a run and a
statement about every list of labels is a statement about every run.
-/

namespace Machine

variable {σ α : Type*} (step : σ → α → σ)

/-- The state after a run. -/
def run (s : σ) (labels : List α) : σ :=
  labels.foldl step s

@[simp] lemma run_nil (s : σ) : run step s [] = s := rfl

@[simp] lemma run_cons (s : σ) (a : α) (labels : List α) :
    run step s (a :: labels) = run step (step s a) labels := rfl

@[simp] lemma run_append (s : σ) (l l' : List α) :
    run step s (l ++ l') = run step (run step s l) l' :=
  List.foldl_append

/-- Every step of the run is taken from a state and with a label satisfying `p`. -/
def EveryStep (p : σ → α → Prop) : σ → List α → Prop
  | _, [] => True
  | s, a :: labels => p s a ∧ EveryStep p (step s a) labels

/-- Every state of the run, the first and the last included, satisfies `p`. -/
def EveryState (p : σ → Prop) : σ → List α → Prop
  | s, [] => p s
  | s, a :: labels => p s ∧ EveryState p (step s a) labels

instance decidableEveryStep (p : σ → α → Prop) [∀ s a, Decidable (p s a)] :
    ∀ s labels, Decidable (EveryStep step p s labels)
  | _, [] => inferInstanceAs (Decidable True)
  | s, a :: labels =>
    have := decidableEveryStep p (step s a) labels
    inferInstanceAs (Decidable (p s a ∧ EveryStep step p (step s a) labels))

instance decidableEveryState (p : σ → Prop) [∀ s, Decidable (p s)] :
    ∀ s labels, Decidable (EveryState step p s labels)
  | s, [] => inferInstanceAs (Decidable (p s))
  | s, a :: labels =>
    have := decidableEveryState p (step s a) labels
    inferInstanceAs (Decidable (p s ∧ EveryState step p (step s a) labels))

variable {step}

lemma everyStep_append {p : σ → α → Prop} {s : σ} {l l' : List α} :
    EveryStep step p s (l ++ l') ↔ EveryStep step p s l ∧ EveryStep step p (run step s l) l' := by
  induction l generalizing s with
  | nil => simp [EveryStep]
  | cons a l ih => simp [EveryStep, ih, and_assoc]

lemma everyStep_of_forall_mem {p : α → Prop} (s : σ) {labels : List α}
    (h : ∀ a ∈ labels, p a) : EveryStep step (fun _ a => p a) s labels := by
  induction labels generalizing s with
  | nil => trivial
  | cons a labels ih =>
    rw [List.forall_mem_cons] at h
    exact ⟨h.1, ih _ h.2⟩

lemma EveryState.head {p : σ → Prop} {s : σ} {labels : List α} (h : EveryState step p s labels) :
    p s := by
  cases labels with
  | nil => exact h
  | cons a labels => exact h.1

lemma EveryState.last {p : σ → Prop} {s : σ} {labels : List α} (h : EveryState step p s labels) :
    p (run step s labels) := by
  induction labels generalizing s with
  | nil => exact h
  | cons a labels ih => exact ih h.2

/-- A property of all states of a run is a property of the state before each step. -/
lemma EveryState.everyStep {p : σ → Prop} {s : σ} {labels : List α}
    (h : EveryState step p s labels) : EveryStep step (fun t _ => p t) s labels := by
  induction labels generalizing s with
  | nil => trivial
  | cons a labels ih => exact ⟨h.1, ih h.2⟩

lemma EveryStep.and {p q : σ → α → Prop} {s : σ} {labels : List α}
    (hp : EveryStep step p s labels) (hq : EveryStep step q s labels) :
    EveryStep step (fun t a => p t a ∧ q t a) s labels := by
  induction labels generalizing s with
  | nil => trivial
  | cons a labels ih => exact ⟨⟨hp.1, hq.1⟩, ih hp.2 hq.2⟩

lemma EveryStep.mono {p q : σ → α → Prop} {s : σ} {labels : List α}
    (h : EveryStep step p s labels) (hpq : ∀ t a, p t a → q t a) : EveryStep step q s labels := by
  induction labels generalizing s with
  | nil => trivial
  | cons a labels ih => exact ⟨hpq _ _ h.1, ih h.2⟩

lemma EveryState.and {p q : σ → Prop} {s : σ} {labels : List α} (hp : EveryState step p s labels)
    (hq : EveryState step q s labels) : EveryState step (fun t => p t ∧ q t) s labels := by
  induction labels generalizing s with
  | nil => exact ⟨hp, hq⟩
  | cons a labels ih => exact ⟨⟨hp.1, hq.1⟩, ih hp.2 hq.2⟩

lemma EveryState.mono {p q : σ → Prop} {s : σ} {labels : List α} (h : EveryState step p s labels)
    (hpq : ∀ t, p t → q t) : EveryState step q s labels := by
  induction labels generalizing s with
  | nil => exact hpq _ h
  | cons a labels ih => exact ⟨hpq _ h.1, ih h.2⟩

section Invariants

variable {inv : σ → Prop}

/-- The invariant rule, for steps that all satisfy a condition. -/
theorem everyState_of_everyStep {p : σ → α → Prop} (hstep : ∀ s a, inv s → p s a → inv (step s a))
    {s : σ} {labels : List α} (hs : inv s) (h : EveryStep step p s labels) :
    EveryState step inv s labels := by
  induction labels generalizing s with
  | nil => exact hs
  | cons a labels ih => exact ⟨hs, ih (hstep s a hs h.1) h.2⟩

/-- The invariant rule. -/
theorem everyState_of_step (hstep : ∀ s a, inv s → inv (step s a)) {s : σ} (hs : inv s)
    (labels : List α) : EveryState step inv s labels := by
  induction labels generalizing s with
  | nil => exact hs
  | cons a labels ih => exact ⟨hs, ih (hstep s a hs)⟩

theorem run_invariant (hstep : ∀ s a, inv s → inv (step s a)) {s : σ} (hs : inv s)
    (labels : List α) : inv (run step s labels) :=
  (everyState_of_step hstep hs labels).last

/-- Two conditions that agree on the states of an invariant agree on runs. -/
theorem everyStep_congr (hstep : ∀ s a, inv s → inv (step s a)) {p q : σ → α → Prop}
    (hpq : ∀ s a, inv s → (p s a ↔ q s a)) {s : σ} (hs : inv s) (labels : List α) :
    EveryStep step p s labels ↔ EveryStep step q s labels := by
  induction labels generalizing s with
  | nil => exact Iff.rfl
  | cons a labels ih => exact and_congr (hpq s a hs) (ih (hstep s a hs))

/-- Two conditions that agree as long as they hold agree on runs. -/
theorem everyStep_congr_of_invariant {p q : σ → α → Prop}
    (hstep : ∀ s a, inv s → p s a → inv (step s a)) (hpq : ∀ s a, inv s → (p s a ↔ q s a)) {s : σ}
    (hs : inv s) (labels : List α) : EveryStep step p s labels ↔ EveryStep step q s labels := by
  induction labels generalizing s with
  | nil => exact Iff.rfl
  | cons a labels ih =>
    constructor
    · intro h
      exact ⟨(hpq s a hs).mp h.1, (ih (hstep s a hs h.1)).mp h.2⟩
    · intro h
      have hp : p s a := (hpq s a hs).mpr h.1
      exact ⟨hp, (ih (hstep s a hs hp)).mpr h.2⟩

/-- The monitor rule: a property of the state that each step keeps exactly when it meets
a condition holds at the end of a run exactly when every step met the condition. -/
theorem run_iff_everyStep (hstep : ∀ s a, inv s → inv (step s a)) {good : σ → Prop}
    {p : σ → α → Prop} (hgood : ∀ s a, inv s → (good (step s a) ↔ good s ∧ p s a)) {s : σ}
    (hs : inv s) (labels : List α) :
    good (run step s labels) ↔ good s ∧ EveryStep step p s labels := by
  induction labels generalizing s with
  | nil => simp [EveryStep]
  | cons a labels ih =>
    rw [run_cons, ih (hstep s a hs), hgood s a hs, EveryStep, and_assoc]

/-- The guard rule: a property of the start that each step keeps exactly when it meets a
condition holds in every state of a run exactly when every step met the condition. -/
theorem everyState_iff_everyStep (hstep : ∀ s a, inv s → inv (step s a)) {good : σ → Prop}
    {p : σ → α → Prop} (hgood : ∀ s a, inv s → good s → (good (step s a) ↔ p s a)) {s : σ}
    (hs : inv s) (hstart : good s) (labels : List α) :
    EveryState step good s labels ↔ EveryStep step p s labels := by
  induction labels generalizing s with
  | nil => exact iff_of_true hstart trivial
  | cons a labels ih =>
    constructor
    · intro h
      have hp : p s a := (hgood s a hs hstart).mp h.2.head
      exact ⟨hp, (ih (hstep s a hs) h.2.head).mp h.2⟩
    · intro h
      have hnext : good (step s a) := (hgood s a hs hstart).mpr h.1
      exact ⟨hstart, (ih (hstep s a hs) hnext).mpr h.2⟩

end Invariants

/-- A property that steps cannot create held from the start of a run that ends in it. -/
lemma everyState_of_last {q : σ → Prop} (hback : ∀ s a, q (step s a) → q s) {s : σ}
    {labels : List α} (h : q (run step s labels)) : EveryState step q s labels := by
  induction labels generalizing s with
  | nil => exact h
  | cons a labels ih =>
    have htail := ih h
    exact ⟨hback s a htail.head, htail⟩

section Budgets

/-- The total cost of the steps of a run. -/
def total (step : σ → α → σ) (cost : σ → α → ℕ) : σ → List α → ℕ
  | _, [] => 0
  | s, a :: labels => cost s a + total step cost (step s a) labels

variable {inv : σ → Prop} {cost : σ → α → ℕ} (budget : σ → ℕ)

/-- The budget rule: steps that pay what they cost out of a budget in the state cost no
more than the budget at the start. -/
theorem total_add_le (hstep : ∀ s a, inv s → inv (step s a))
    (hcost : ∀ s a, inv s → cost s a + budget (step s a) ≤ budget s) {s : σ} (hs : inv s)
    (labels : List α) :
    total step cost s labels + budget (run step s labels) ≤ budget s := by
  induction labels generalizing s with
  | nil => simp [total]
  | cons a labels ih =>
    have hhead := hcost s a hs
    have htail := ih (hstep s a hs)
    rw [run_cons]
    simp only [total]
    omega

/-- The budget rule, without what is left of the budget. -/
theorem total_le (hstep : ∀ s a, inv s → inv (step s a))
    (hcost : ∀ s a, inv s → cost s a + budget (step s a) ≤ budget s) {s : σ} (hs : inv s)
    (labels : List α) : total step cost s labels ≤ budget s :=
  (Nat.le_add_right _ _).trans (total_add_le budget hstep hcost hs labels)

/-- The counter rule: a count that each step raises by its cost, a run raises by its total. -/
theorem count_run {count : ℕ → σ → Prop}
    (hstep : ∀ n s a, count n s → count (n + cost s a) (step s a)) {n : ℕ} {s : σ} (hs : count n s)
    (labels : List α) : count (n + total step cost s labels) (run step s labels) := by
  induction labels generalizing n s with
  | nil => exact hs
  | cons a labels ih =>
    have htail := ih (hstep n s a hs)
    rw [Nat.add_assoc] at htail
    exact htail

lemma total_add (cost' : σ → α → ℕ) (s : σ) (labels : List α) :
    total step (fun t a => cost t a + cost' t a) s labels =
      total step cost s labels + total step cost' s labels := by
  induction labels generalizing s with
  | nil => rfl
  | cons a labels ih =>
    simp only [total, ih]
    omega

lemma total_eq_zero_iff {s : σ} {labels : List α} :
    total step cost s labels = 0 ↔ EveryStep step (fun t a => cost t a = 0) s labels := by
  induction labels generalizing s with
  | nil => exact iff_of_true rfl trivial
  | cons a labels ih =>
    simp only [total, EveryStep]
    rw [Nat.add_eq_zero_iff, ih]

/-- The total of a cost that only some labels have. -/
lemma total_eq_countP (p : α → Bool) (s : σ) (labels : List α) :
    total step (fun _ a => (p a).toNat) s labels = labels.countP p := by
  induction labels generalizing s with
  | nil => rfl
  | cons a labels ih =>
    simp only [total, ih, List.countP_cons]
    cases p a
    · simp
    · simp [Nat.add_comm]

/-- The states along an infinite schedule. -/
def trace (step : σ → α → σ) (s : σ) (schedule : ℕ → α) : ℕ → σ
  | 0 => s
  | n + 1 => step (trace step s schedule n) (schedule n)

/-- The states of a schedule are those of runs. -/
lemma trace_eq_run (step : σ → α → σ) (s : σ) (schedule : ℕ → α) (n : ℕ) :
    trace step s schedule n = run step s ((List.range n).map schedule) := by
  induction n with
  | zero => rfl
  | succ n ih =>
    rw [List.range_succ, List.map_append, run_append, ← ih]
    rfl

lemma trace_invariant (hstep : ∀ s a, inv s → inv (step s a)) {s : σ} (hs : inv s)
    (schedule : ℕ → α) (n : ℕ) : inv (trace step s schedule n) := by
  induction n with
  | zero => exact hs
  | succ n ih => exact hstep _ _ ih

/-- The budget rule for infinite schedules: from some point on no step costs anything. -/
theorem exists_forall_cost_eq_zero (hstep : ∀ s a, inv s → inv (step s a))
    (hcost : ∀ s a, inv s → cost s a + budget (step s a) ≤ budget s) {s : σ} (hs : inv s)
    (schedule : ℕ → α) :
    ∃ n, ∀ m, n ≤ m → cost (trace step s schedule m) (schedule m) = 0 := by
  let left : ℕ → ℕ := fun n => budget (trace step s schedule n)
  have hpay : ∀ n, cost (trace step s schedule n) (schedule n) + left (n + 1) ≤ left n :=
    fun n => hcost _ _ (trace_invariant hstep hs schedule n)
  have hanti : Antitone left := antitone_nat_of_succ_le fun n => by
    have := hpay n
    omega
  -- the budget takes its least value at some point and stays there
  refine ⟨Function.argmin left, fun m hm => ?_⟩
  have hle := hanti hm
  have hmin := Function.argmin_le left (m + 1)
  have hpaid := hpay m
  omega

end Budgets

section Progress

variable {goal : σ → Prop} {rank : σ → ℕ} {tick : α → Bool} {p : σ → α → Prop} {bound : ℕ}

/-- The progress rule: a goal that is kept, a rank that no step lowers and each tick
raises while the goal is open, and a bound above which the goal holds. Enough ticks
reach the goal. -/
theorem goal_of_ticks (hkeep : ∀ s a, p s a → goal s → goal (step s a))
    (hidle : ∀ s a, p s a → rank s ≤ rank (step s a))
    (htick : ∀ s a, p s a → tick a = true → ¬goal s → goal (step s a) ∨ rank s < rank (step s a))
    {s : σ} {labels : List α} (h : EveryStep step p s labels)
    (hbound : ∀ t, bound < rank t → goal t) (henough : bound < rank s + labels.countP tick) :
    goal (run step s labels) := by
  have hkept : ∀ {s : σ} {labels : List α}, EveryStep step p s labels → goal s →
      goal (run step s labels) := by
    intro s labels h hg
    have hall : EveryState step goal s labels :=
      everyState_of_everyStep (fun t a ht hp => hkeep t a hp ht) hg h
    exact hall.last
  induction labels generalizing s with
  | nil => exact hbound s (by simpa using henough)
  | cons a labels ih =>
    rw [run_cons]
    by_cases hg : goal s
    · exact hkept h.2 (hkeep s a h.1 hg)
    · have hle := hidle s a h.1
      by_cases ha : tick a = true
      · rw [List.countP_cons_of_pos ha] at henough
        rcases htick s a h.1 ha hg with hdone | hlt
        · exact hkept h.2 hdone
        · exact ih h.2 (by omega)
      · rw [List.countP_cons_of_neg ha] at henough
        exact ih h.2 (by omega)

end Progress

end Machine
