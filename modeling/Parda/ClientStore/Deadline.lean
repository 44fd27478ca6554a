import Parda.ClientStore.Lifecycle

/-!
# When the deadline is kept

`open` looks at the slot and never at a clock, so a deadline holds only through the events
that clear the slot.
-/

namespace Parda.ClientStore

open Machine Protocol

namespace World

/-- The deadline of the message's slot has passed. -/
def PastDeadline (w : World) (message : SelfDestructingMessage) : Prop :=
  ∃ deadline, (w.deadlines[message.key]?).join = some deadline ∧ deadline ≤ w.process.now

/-- An open past the deadline returns no plaintext. -/
def DeadlineKept (c : SealCrates) (w : World) : Label → Prop
  | .open handle => ∀ message, w.handles[handle]? = some message → w.PastDeadline message →
    ∀ plaintext, (message.openMessage c w.process).1 ≠ .ok plaintext
  | .openWithClockGuard handle store nowMs => ∀ message, w.handles[handle]? = some message →
    w.PastDeadline message →
    ∀ plaintext, (message.openWithClockGuard c w.process (w.watermarks store) nowMs).1 ≠ .ok plaintext
  | _ => True

/-- Before an open past the deadline the timer of the slot has fired, or another erasing
event has hit the slot. -/
def TimerRan (w : World) : Label → Prop
  | .open handle => ∀ message, w.handles[handle]? = some message → w.PastDeadline message →
    message.key ∈ w.erased
  | .openWithClockGuard handle store nowMs => ∀ message, w.handles[handle]? = some message →
    w.PastDeadline message → message.key ∈ w.erased ∨ rolledBack (w.watermarks store) nowMs
  | _ => True

variable {c : SealCrates} {k : Bytes32} {ct plaintext : Bytes} {mode : DestructMode} {w : World}
  {message : SelfDestructingMessage}

lemma openMessage_fails_iff (hopens : Opens c k ct plaintext) (h : w.Inv k ct mode)
    (hmem : message ∈ w.handles) :
    (∀ plaintext, (message.openMessage c w.process).1 ≠ .ok plaintext) ↔ message.key ∈ w.erased := by
  obtain ⟨hct, -, hslot⟩ := h.handles message hmem
  rw [← h.dead message.key hslot]
  cases hkey : w.process.key message.key with
  | none =>
    rw [openMessage_of_none hkey]
    exact iff_of_true (fun _ heq => by cases heq) rfl
  | some key =>
    rw [h.keys _ _ hkey] at hkey
    rw [openMessage_of_key (hct ▸ hopens) hkey]
    exact iff_of_false (fun hfails => hfails plaintext rfl) (by simp)

lemma openWithClockGuard_fails_iff (hopens : Opens c k ct plaintext) (h : w.Inv k ct mode)
    (hmem : message ∈ w.handles) (store : ℕ) (nowMs : UInt64) :
    (∀ plaintext, (message.openWithClockGuard c w.process (w.watermarks store) nowMs).1 ≠
      .ok plaintext) ↔ message.key ∈ w.erased ∨ rolledBack (w.watermarks store) nowMs := by
  unfold SelfDestructingMessage.openWithClockGuard
  by_cases hrolled : rolledBack (w.watermarks store) nowMs
  · obtain ⟨watermarkMs, hcheck⟩ := checkClockIntegrity_of_rolledBack hrolled
    rw [hcheck]
    exact iff_of_true (fun _ heq => by cases heq) (Or.inr hrolled)
  · rw [checkClockIntegrity_of_not_rolledBack hrolled, or_iff_left hrolled]
    exact openMessage_fails_iff hopens h hmem

lemma deadlineKept_iff_timerRan (hopens : Opens c k ct plaintext) (w : World) (label : Label)
    (h : w.Inv k ct mode) : w.DeadlineKept c label ↔ w.TimerRan label := by
  cases label with
  | «open» handle =>
    apply forall_congr'
    intro message
    apply forall_congr'
    intro hhandle
    apply forall_congr'
    intro _
    exact openMessage_fails_iff hopens h (List.mem_of_getElem? hhandle)
  | openWithClockGuard handle store nowMs =>
    apply forall_congr'
    intro message
    apply forall_congr'
    intro hhandle
    apply forall_congr'
    intro _
    exact openWithClockGuard_fails_iff hopens h (List.mem_of_getElem? hhandle) store nowMs
  | _ => exact Iff.rfl

/-- No open past its deadline returns the plaintext, exactly in the runs where each comes
after the slot's timer or another event that erased the slot. -/
theorem everyStep_deadlineKept_iff (hcorrect : c.Correct) {env : SealEnv} {now : ℕ}
    {call : SealCall} {process : Process}
    (hseal : call.run c env { now } = .ok (message, process)) (labels : List Label) :
    EveryStep (step c) (DeadlineKept c) (sealed call message process) labels ↔
      EveryStep (step c) TimerRan (sealed call message process) labels := by
  obtain ⟨k, hopens, hinv⟩ := inv_sealed hcorrect hseal
  exact everyStep_congr (inv_step hopens) (deadlineKept_iff_timerRan hopens) hinv labels

end World

/-- A window of one second. -/
def timeBoundCall : SealCall := .seal [104, 105] 1000 1000000000

/-- Two seconds pass, and the timer task has not run. -/
def lateTimer : List Label := [.advance 2000000000, .open 0]

namespace World

theorem everyStep_deadlineKept_iff_punctual :
    EveryStep (step localSealCrates) (DeadlineKept localSealCrates) (sampleWorld timeBoundCall)
        [.advance 1000000000, .fireTimer 0, .open 0] ↔
      EveryStep (step localSealCrates) TimerRan (sampleWorld timeBoundCall)
        [.advance 1000000000, .fireTimer 0, .open 0] :=
  everyStep_deadlineKept_iff localSealCrates_correct
    (show timeBoundCall.run localSealCrates sampleSealEnv {} =
      .ok ((sampleSealed timeBoundCall).1, (sampleSealed timeBoundCall).2) by decide +kernel)
    [.advance 1000000000, .fireTimer 0, .open 0]

theorem not_deadlineKept_lateTimer :
    ¬EveryStep (step localSealCrates) (DeadlineKept localSealCrates) (sampleWorld timeBoundCall)
      lateTimer := by
  intro h
  exact h.2.1 (sampleSealed timeBoundCall).1 rfl ⟨1000000000, rfl, by decide⟩ [104, 105] rfl

end World

end Parda.ClientStore
