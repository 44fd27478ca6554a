import Parda.Lib.Machine
import Parda.Protocol.SelfDestruct

/-!
# Concurrent clock checks

`check_clock_integrity` loads the watermark, compares and stores in separate steps, and
any number of calls share one watermark store. Each call carries the time it was given
and how many times had been accepted when it began and when it loaded.
-/

namespace Parda.Protocol

open Machine

/-- The loaded watermark, when it is above the time. -/
def rollbackAgainst (loaded : Option UInt64) (nowMs : UInt64) : Option UInt64 :=
  loaded.filter (fun watermarkMs => nowMs < watermarkMs)

inductive CheckPc where
  | idle
  | load (nowMs : UInt64) (begun : ℕ)
  | store (nowMs : UInt64) (begun loaded : ℕ)
  | returned (nowMs : UInt64) (begun : ℕ) (result : ClockCheck)
deriving DecidableEq

/-- A watermark store with the calls that share it. `accepted` are the times of the
checks that have stored theirs, in that order. -/
structure ClockStore where
  watermark : Option UInt64
  checks : ℕ → CheckPc := fun _ => .idle
  accepted : List UInt64 := []

inductive ClockLabel where
  | begin (i : ℕ) (nowMs : UInt64)
  | advance (i : ℕ)

namespace ClockStore

def setCheck (w : ClockStore) (i : ℕ) (pc : CheckPc) : ClockStore :=
  { w with checks := Function.update w.checks i pc }

def advance (w : ClockStore) (i : ℕ) : ClockStore :=
  match w.checks i with
  | .load nowMs begun =>
    match rollbackAgainst w.watermark nowMs with
    | some watermarkMs => w.setCheck i (.returned nowMs begun (.rollbackDetected watermarkMs nowMs))
    | none => w.setCheck i (.store nowMs begun w.accepted.length)
  | .store nowMs begun _ => { w.setCheck i (.returned nowMs begun .ok) with
      watermark := some nowMs
      accepted := w.accepted ++ [nowMs] }
  | _ => w

def step (w : ClockStore) : ClockLabel → ClockStore
  | .begin i nowMs =>
    match w.checks i with
    | .idle => w.setCheck i (.load nowMs w.accepted.length)
    | _ => w
  | .advance i => w.advance i

/-- The step leaves the watermark where it is or moves it up. -/
def NeverDecreases (w : ClockStore) (label : ClockLabel) : Prop :=
  ∀ u ∈ w.watermark, ∃ v ∈ (w.step label).watermark, u ≤ v

instance decidableNeverDecreases (w : ClockStore) (label : ClockLabel) :
    Decidable (w.NeverDecreases label) :=
  match hw : w.watermark, hstep : (w.step label).watermark with
  | none, _ => isTrue (by simp [NeverDecreases, hw])
  | some u, some v => decidable_of_iff (u ≤ v) (by simp [NeverDecreases, hw, hstep])
  | some u, none => isFalse (by simp [NeverDecreases, hw, hstep])

/-- A check below a time that was accepted before it began has reported a rollback. -/
def Detects (w : ClockStore) : Prop :=
  ∀ i nowMs begun result, w.checks i = .returned nowMs begun result →
    (∃ t ∈ w.accepted.take begun, nowMs < t) →
    ∃ watermarkMs, result = .rollbackDetected watermarkMs nowMs

/-- A check does not store a time below one that was accepted since it loaded. -/
def NotOvertaken (w : ClockStore) : ClockLabel → Prop
  | .advance i =>
    match w.checks i with
    | .store nowMs _ loaded => ∀ t ∈ w.accepted.drop loaded, t ≤ nowMs
    | _ => True
  | _ => True

/-- What holds of a call while no check was overtaken. -/
def CallOk (watermark : Option UInt64) (accepted : List UInt64) : CheckPc → Prop
  | .idle => True
  | .load _ begun => begun ≤ accepted.length
  | .store nowMs begun loaded => begun ≤ loaded ∧ loaded ≤ accepted.length ∧
      (∀ t ∈ accepted.take loaded, t ≤ nowMs) ∧
      ∀ u ∈ watermark, u ≤ nowMs ∨ u ∈ accepted.drop loaded
  | .returned nowMs begun result => begun ≤ accepted.length ∧
      ((∃ t ∈ accepted.take begun, nowMs < t) →
        ∃ watermarkMs, result = .rollbackDetected watermarkMs nowMs)

structure Inv (w : ClockStore) : Prop where
  below : ∀ t ∈ w.accepted, ∃ u ∈ w.watermark, t ≤ u
  calls : ∀ i, CallOk w.watermark w.accepted (w.checks i)

variable {w : ClockStore} {i : ℕ} {nowMs : UInt64} {begun loaded : ℕ} {pc : CheckPc}

lemma Inv.detects (h : w.Inv) : w.Detects := by
  intro i nowMs begun result hpc hlate
  have hcall := h.calls i
  rw [hpc] at hcall
  exact hcall.2 hlate

lemma rollbackAgainst_eq_none {loaded : Option UInt64} (h : rollbackAgainst loaded nowMs = none) :
    ∀ u ∈ loaded, u ≤ nowMs := by
  rintro u rfl
  simpa [rollbackAgainst, Option.filter] using h

lemma rollbackAgainst_eq_some {loaded : Option UInt64} {watermarkMs : UInt64}
    (h : rollbackAgainst loaded nowMs = some watermarkMs) :
    loaded = some watermarkMs ∧ nowMs < watermarkMs := by
  simpa [rollbackAgainst, Option.filter_eq_some_iff] using h

lemma Inv.setCheck (h : w.Inv) (hpc : CallOk w.watermark w.accepted pc) : (w.setCheck i pc).Inv := by
  refine ⟨h.below, fun j => ?_⟩
  change CallOk w.watermark w.accepted (Function.update w.checks i pc j)
  by_cases hj : j = i
  · subst hj
    rwa [Function.update_self]
  · rw [Function.update_of_ne hj]
    exact h.calls j

/-- The time that another check has stored does not disturb a call. -/
lemma CallOk.stored {watermark : Option UInt64} {accepted : List UInt64}
    (h : CallOk watermark accepted pc) (t : UInt64) : CallOk (some t) (accepted ++ [t]) pc := by
  cases pc with
  | idle => trivial
  | load nowMs begun =>
    change begun ≤ (accepted ++ [t]).length
    rw [List.length_append]
    exact Nat.le_add_right_of_le h
  | store nowMs begun loaded =>
    obtain ⟨hbegun, hloaded, hbefore, -⟩ := h
    refine ⟨hbegun, ?_, ?_, ?_⟩
    · rw [List.length_append]
      exact Nat.le_add_right_of_le hloaded
    · rwa [List.take_append_of_le_length hloaded]
    · rintro u ⟨⟩
      right
      rw [List.drop_append_of_le_length hloaded]
      exact List.mem_append_right _ List.mem_cons_self
  | returned nowMs begun result =>
    obtain ⟨hbegun, hresult⟩ := h
    refine ⟨?_, ?_⟩
    · rw [List.length_append]
      exact Nat.le_add_right_of_le hbegun
    · rwa [List.take_append_of_le_length hbegun]

/-- A check that is not overtaken stores a time that none of the accepted ones is above. -/
lemma Inv.stored (h : w.Inv) (hpc : w.checks i = .store nowMs begun loaded)
    (hafter : ∀ t ∈ w.accepted.drop loaded, t ≤ nowMs) :
    (∀ t ∈ w.accepted, t ≤ nowMs) ∧ (∀ u ∈ w.watermark, u ≤ nowMs) ∧
      begun ≤ w.accepted.length := by
  have hcall := h.calls i
  rw [hpc] at hcall
  obtain ⟨hbegun, hloaded, hbefore, hwatermark⟩ := hcall
  refine ⟨?_, ?_, hbegun.trans hloaded⟩
  · intro t ht
    rw [← List.take_append_drop loaded w.accepted] at ht
    rcases List.mem_append.mp ht with ht | ht
    · exact hbefore t ht
    · exact hafter t ht
  · intro u hu
    rcases hwatermark u hu with hle | hmem
    · exact hle
    · exact hafter u hmem

lemma inv_step (label : ClockLabel) (h : w.Inv) (hlabel : w.NotOvertaken label) :
    (w.step label).Inv := by
  cases label with
  | begin i nowMs =>
    simp only [step]
    cases hpc : w.checks i with
    | idle =>
      apply h.setCheck
      exact le_rfl
    | _ => exact h
  | advance i =>
    simp only [step, advance]
    cases hpc : w.checks i with
    | idle => exact h
    | returned nowMs begun result => exact h
    | load nowMs begun =>
      have hbegun : begun ≤ w.accepted.length := by
        have hcall := h.calls i
        rwa [hpc] at hcall
      dsimp only
      cases hroll : rollbackAgainst w.watermark nowMs with
      | some watermarkMs =>
        apply h.setCheck
        exact ⟨hbegun, fun _ => ⟨watermarkMs, rfl⟩⟩
      | none =>
        have hle := rollbackAgainst_eq_none hroll
        apply h.setCheck
        refine ⟨hbegun, le_rfl, ?_, fun u hu => Or.inl (hle u hu)⟩
        intro t ht
        obtain ⟨u, hu, htu⟩ := h.below t (List.mem_of_mem_take ht)
        exact UInt64.le_trans htu (hle u hu)
    | store nowMs begun loaded =>
      rw [NotOvertaken, hpc] at hlabel
      obtain ⟨haccepted, -, hbegun⟩ := h.stored hpc hlabel
      refine ⟨?_, fun j => ?_⟩
      · intro t ht
        refine ⟨nowMs, rfl, ?_⟩
        rcases List.mem_append.mp ht with ht | ht
        · exact haccepted t ht
        · rw [List.mem_singleton.mp ht]
          exact UInt64.le_refl nowMs
      · change CallOk (some nowMs) (w.accepted ++ [nowMs])
          (Function.update w.checks i (.returned nowMs begun .ok) j)
        by_cases hj : j = i
        · subst hj
          rw [Function.update_self]
          refine ⟨?_, ?_⟩
          · rw [List.length_append]
            exact Nat.le_add_right_of_le hbegun
          · rintro ⟨t, ht, hlt⟩
            rw [List.take_append_of_le_length hbegun] at ht
            exact absurd hlt (UInt64.not_lt.mpr (haccepted t (List.mem_of_mem_take ht)))
        · rw [Function.update_of_ne hj]
          exact (h.calls j).stored nowMs

/-- The watermark goes down exactly when a check that was overtaken stores. -/
lemma neverDecreases_iff (h : w.Inv) (label : ClockLabel) :
    w.NeverDecreases label ↔ w.NotOvertaken label := by
  have hsame : (w.step label).watermark = w.watermark → w.NeverDecreases label := by
    intro heq u hu
    rw [heq]
    exact ⟨u, hu, UInt64.le_refl u⟩
  cases label with
  | begin i nowMs =>
    refine iff_of_true (hsame ?_) trivial
    simp only [step]
    cases w.checks i <;> rfl
  | advance i =>
    cases hpc : w.checks i with
    | store nowMs begun loaded =>
      have hstep : (w.step (.advance i)).watermark = some nowMs := by
        simp only [step, advance, hpc]
      rw [NotOvertaken, hpc]
      constructor
      · intro hup t ht
        obtain ⟨u, hu, htu⟩ := h.below t (List.mem_of_mem_drop ht)
        obtain ⟨v, hv, huv⟩ := hup u hu
        rw [hstep] at hv
        cases hv
        exact UInt64.le_trans htu huv
      · intro hafter u hu
        rw [hstep]
        exact ⟨nowMs, rfl, (h.stored hpc hafter).2.1 u hu⟩
    | load nowMs begun =>
      refine iff_of_true (hsame ?_) (by rw [NotOvertaken, hpc]; trivial)
      simp only [step, advance, hpc]
      cases rollbackAgainst w.watermark nowMs <;> rfl
    | _ =>
      refine iff_of_true (hsame ?_) (by rw [NotOvertaken, hpc]; trivial)
      simp only [step, advance, hpc]

lemma inv_start (watermark : Option UInt64) : Inv { watermark } where
  below t ht := by simp at ht
  calls i := trivial

/-- The watermark never goes down and every check reports each rollback that it began
behind, exactly when no check stores a time below one accepted since it loaded. -/
theorem watermark_monotone_iff (watermark : Option UInt64) (labels : List ClockLabel) :
    EveryStep step NeverDecreases { watermark } labels ∧
        EveryState step Detects { watermark } labels ↔
      EveryStep step NotOvertaken { watermark } labels := by
  have hkeep : ∀ w label, Inv w → NotOvertaken w label → Inv (w.step label) :=
    fun w label h hlabel => inv_step label h hlabel
  have hcongr := everyStep_congr_of_invariant hkeep
    (fun w label h => (neverDecreases_iff h label).symm) (inv_start watermark) labels
  constructor
  · rintro ⟨hup, -⟩
    exact hcongr.mpr hup
  · intro h
    refine ⟨hcongr.mp h, ?_⟩
    exact (everyState_of_everyStep hkeep (inv_start watermark) h).mono fun _ hinv => hinv.detects

/-- A call that nothing interrupts is `check_clock_integrity`. -/
theorem check_alone (w : ClockStore) (i : ℕ) (nowMs : UInt64) (hidle : w.checks i = .idle) :
    let w' := run step w [.begin i nowMs, .advance i, .advance i]
    w'.watermark = (checkClockIntegrity w.watermark nowMs).2 ∧
      w'.checks i =
        .returned nowMs w.accepted.length (checkClockIntegrity w.watermark nowMs).1 := by
  cases hroll : rollbackAgainst w.watermark nowMs with
  | none =>
    have hcheck : checkClockIntegrity w.watermark nowMs = (.ok, some nowMs) := by
      have hle := rollbackAgainst_eq_none hroll
      cases hw : w.watermark with
      | none => rfl
      | some u => exact if_neg (UInt64.not_lt.mpr (hle u hw))
    simp [step, advance, setCheck, hidle, hroll, hcheck]
  | some watermarkMs =>
    obtain ⟨hw, hlt⟩ := rollbackAgainst_eq_some hroll
    have hcheck : checkClockIntegrity w.watermark nowMs =
        (.rollbackDetected watermarkMs nowMs, w.watermark) := by
      rw [hw]
      exact if_pos hlt
    simp [step, advance, setCheck, hidle, hroll, hcheck]

/-- Both checks load 1000 before either stores; the one with the older time stores last,
and then a third check accepts a time below one that was accepted before. -/
def overtakenRun : List ClockLabel :=
  [.begin 0 2000, .begin 1 3000, .advance 0, .advance 1, .advance 1, .advance 0,
    .begin 2 2500, .advance 2, .advance 2]

theorem not_watermark_monotone_overtaken :
    ¬(EveryStep step NeverDecreases ⟨some 1000, fun _ => .idle, []⟩ overtakenRun) ∧
      ¬(run step ⟨some 1000, fun _ => .idle, []⟩ overtakenRun).Detects := by
  refine ⟨by decide +kernel, ?_⟩
  intro h
  have hmem : 3000 ∈ (run step ⟨some 1000, fun _ => .idle, []⟩ overtakenRun).accepted.take 2 := by
    decide +kernel
  obtain ⟨watermarkMs, hresult⟩ := h 2 2500 2 .ok (by decide +kernel) ⟨3000, hmem, by decide⟩
  cases hresult

end ClockStore

end Parda.Protocol
