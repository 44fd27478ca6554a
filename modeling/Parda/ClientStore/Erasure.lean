import Parda.ClientStore.Lifecycle

/-!
# When erasure is final

An erasing event clears one slot. It ends the message exactly when no handle is left on a copy
that holds the key in another slot and no copy is restored afterwards.
-/

namespace Parda.ClientStore

open Machine Protocol

namespace World

/-- The slot that the step clears. -/
def erases (w : World) : Label → Option ℕ
  | .open handle => (w.handles[handle]?).bind fun message =>
    if (w.process.key message.key).isSome ∧ message.mode.erasesOnRead then some message.key else none
  | .openWithClockGuard handle store nowMs => (w.handles[handle]?).bind fun message =>
    if rolledBack (w.watermarks store) nowMs ∨
      (w.process.key message.key).isSome ∧ message.mode.erasesOnRead then some message.key else none
  | .expireNow handle => (w.handles[handle]?).map SelfDestructingMessage.key
  | .fireTimer i => (w.process.dueTimer i).map Timer.key
  | _ => none

/-- The step restores a copy. -/
def Restores (w : World) : Label → Prop
  | .restore state store nowMs => ∃ s, w.states[state]? = some s ∧ w.Restorable s store nowMs
  | _ => False

/-- An erasing event meets the only live slot that there is a handle on, and nothing is restored
after one. -/
def OnlyCopy (w : World) (label : Label) : Prop :=
  (∀ slot, w.erases label = some slot →
    ∀ copy ∈ w.handles, copy.key ≠ slot → w.process.key copy.key = none) ∧
    (w.Restores label → w.erased = [])

instance (w : World) (state : PersistedSelfDestructState) (store : ℕ) (nowMs : UInt64) :
    Decidable (w.Restorable state store nowMs) :=
  @instDecidableAnd _ _ inferInstance (Option.decidableForallMem state.expiresAtMs)

instance decidableRestores (w : World) : ∀ label, Decidable (w.Restores label)
  | .restore state store nowMs =>
    inferInstanceAs (Decidable (∃ s ∈ w.states[state]?, w.Restorable s store nowMs))
  | .clone _ | .drop _ | .open _ | .openWithClockGuard _ _ _ | .expireNow _ | .fireTimer _
  | .exportForPersistence _ | .stageSelfDestructing _ _ _ _ | .takeSelfDestructing _ | .advance _
  | .dropRuntime => inferInstanceAs (Decidable False)

instance (w : World) (label : Label) : Decidable (w.OnlyCopy label) :=
  inferInstanceAs (Decidable ((∀ slot ∈ w.erases label,
    ∀ copy ∈ w.handles, copy.key ≠ slot → w.process.key copy.key = none) ∧ _))

/-- After an erasing event no clone and no restored copy opens. -/
def ErasureFinal (c : SealCrates) (w : World) : Prop :=
  w.erased ≠ [] → ∀ message ∈ w.handles, ∀ plaintext,
    (message.openMessage c w.process).1 ≠ .ok plaintext

variable {c : SealCrates} {k : Bytes32} {ct plaintext : Bytes} {mode : DestructMode} {w : World}
  {message : SelfDestructingMessage}

/-- What a step does to the slots: it clears one, adds one with a handle on it by a restore, or
neither. Then it brings no handle on another slot. -/
inductive Effect (k : Bytes32) (w : World) (label : Label) (w' : World) : Prop where
  | clears (slot : ℕ) (herases : w.erases label = some slot) (hnot : ¬w.Restores label)
      (herased : w'.erased = slot :: w.erased)
      (hslots : w'.process.slots = (w.process.erase slot).slots) (hhandles : w'.handles = w.handles)
  | adds (hnone : w.erases label = none) (hrestores : w.Restores label)
      (herased : w'.erased = w.erased)
      (hslots : w'.process.slots = (w.process.alloc k).slots)
      (hcopy : ∃ copy ∈ w'.handles, copy.key = w.process.slots.length)
  | keeps (hnone : w.erases label = none) (hnot : ¬w.Restores label)
      (herased : w'.erased = w.erased) (hslots : w'.process.slots = w.process.slots)
      (hhandles : w'.handles ⊆ w.handles)

lemma effect_openStep (hopens : Opens c k ct plaintext) (h : w.Inv k ct mode)
    (hmem : message ∈ w.handles) {label : Label} (hnot : ¬w.Restores label)
    (herases : w.erases label =
      if (w.process.key message.key).isSome ∧ message.mode.erasesOnRead then some message.key
      else none) : Effect k w label (w.openStep c message) := by
  obtain ⟨hct, -, -⟩ := h.handles message hmem
  cases hkey : w.process.key message.key with
  | none =>
    rw [openStep_of_none hkey]
    exact .keeps (by simp [herases, hkey]) hnot rfl rfl (List.Subset.refl _)
  | some key =>
    have hlive : (w.process.key message.key).isSome := by simp [hkey]
    rw [h.keys _ _ hkey] at hkey
    rw [← hct] at hopens
    rw [openStep_of_key hopens hkey]
    by_cases hmode : message.mode.erasesOnRead = true
    · rw [if_pos hmode]
      exact .clears message.key (herases.trans (if_pos ⟨hlive, hmode⟩)) hnot rfl rfl rfl
    · rw [if_neg hmode]
      exact .keeps (herases.trans (if_neg (fun hand => hmode hand.2))) hnot rfl rfl
        (List.Subset.refl _)

lemma effect_guardStep (hopens : Opens c k ct plaintext) (h : w.Inv k ct mode) {handle : ℕ}
    (hhandle : w.handles[handle]? = some message) (store : ℕ) (nowMs : UInt64) :
    Effect k w (.openWithClockGuard handle store nowMs) (w.guardStep c message store nowMs) := by
  have hmem := List.mem_of_getElem? hhandle
  by_cases hrolled : rolledBack (w.watermarks store) nowMs
  · rw [guardStep_of_rolledBack hrolled]
    exact .clears message.key (by simp [erases, hhandle, hrolled]) id rfl rfl rfl
  · rw [guardStep_of_not_rolledBack hrolled]
    have hopen : Effect k w (.openWithClockGuard handle store nowMs) (w.openStep c message) :=
      effect_openStep hopens h hmem id (by simp [erases, hhandle, hrolled])
    cases hopen with
    | clears slot herases hnot herased hslots hhandles =>
      exact .clears slot herases hnot herased hslots hhandles
    | adds hnone hrestores herased hslots hcopy => exact .adds hnone hrestores herased hslots hcopy
    | keeps hnone hnot herased hslots hhandles => exact .keeps hnone hnot herased hslots hhandles

lemma effect_fireTimer (w : World) (i : ℕ) : Effect k w (.fireTimer i) (w.fireTimer i) := by
  by_cases hdue : ∃ timer, w.process.timers[i]? = some timer ∧ timer.deadline ≤ w.process.now
  · obtain ⟨timer, htimer, hdue⟩ := hdue
    rw [fireTimer_of_due htimer hdue]
    have hsome := Process.dueTimer_eq_some.mpr ⟨htimer, hdue⟩
    exact .clears timer.key (by simp [erases, hsome]) id rfl rfl rfl
  · have hnot : ∀ timer, w.process.timers[i]? = some timer → ¬timer.deadline ≤ w.process.now :=
      fun timer htimer hle => hdue ⟨timer, htimer, hle⟩
    rw [fireTimer_of_not_due hnot]
    exact .keeps (by simp [erases, Process.dueTimer_eq_none hnot]) id rfl rfl (List.Subset.refl _)

lemma effect_restore (h : w.Inv k ct mode) {i : ℕ} {state : PersistedSelfDestructState}
    (hstate : w.states[i]? = some state) (store : ℕ) (nowMs : UInt64) :
    Effect k w (.restore i store nowMs) (w.restore state store nowMs) := by
  obtain ⟨-, hkey, -⟩ := h.states state (List.mem_of_getElem? hstate)
  by_cases hok : w.Restorable state store nowMs
  · obtain ⟨copy, process, deadlines, heq, -, -, hcopy, hslots, -⟩ := restore_of_restorable hok
    rw [heq]
    exact .adds rfl ⟨state, hstate, hok⟩ rfl (hkey ▸ hslots) ⟨copy, List.mem_cons_self, hcopy⟩
  · obtain ⟨watermark, heq⟩ := restore_of_not_restorable hok
    rw [heq]
    refine .keeps rfl ?_ rfl rfl (List.Subset.refl _)
    rintro ⟨state', hstate', hok'⟩
    rw [hstate] at hstate'
    cases hstate'
    exact hok hok'

lemma effect_step (hopens : Opens c k ct plaintext) (h : w.Inv k ct mode) (label : Label) :
    Effect k w label (w.step c label) := by
  cases label with
  | clone handle =>
    unfold World.step
    dsimp only
    cases hhandle : w.handles[handle]? with
    | none => exact .keeps rfl id rfl rfl (List.Subset.refl _)
    | some message =>
      exact .keeps rfl id rfl rfl
        (List.cons_subset.mpr ⟨List.mem_of_getElem? hhandle, List.Subset.refl _⟩)
  | drop handle => exact .keeps rfl id rfl rfl (List.eraseIdx_subset)
  | «open» handle =>
    unfold World.step
    dsimp only
    cases hhandle : w.handles[handle]? with
    | none => exact .keeps (by simp [erases, hhandle]) id rfl rfl (List.Subset.refl _)
    | some message =>
      exact effect_openStep hopens h (List.mem_of_getElem? hhandle) id (by simp [erases, hhandle])
  | openWithClockGuard handle store nowMs =>
    unfold World.step
    dsimp only
    cases hhandle : w.handles[handle]? with
    | none => exact .keeps (by simp [erases, hhandle]) id rfl rfl (List.Subset.refl _)
    | some message => exact effect_guardStep hopens h hhandle store nowMs
  | expireNow handle =>
    unfold World.step
    dsimp only
    cases hhandle : w.handles[handle]? with
    | none => exact .keeps (by simp [erases, hhandle]) id rfl rfl (List.Subset.refl _)
    | some message => exact .clears message.key (by simp [erases, hhandle]) id rfl rfl rfl
  | fireTimer i => exact effect_fireTimer w i
  | exportForPersistence handle =>
    unfold World.step
    dsimp only
    cases w.handles[handle]? with
    | none => exact .keeps rfl id rfl rfl (List.Subset.refl _)
    | some message =>
      dsimp only
      cases message.exportForPersistence w.process <;>
        exact .keeps rfl id rfl rfl (List.Subset.refl _)
  | stageSelfDestructing i id peerAddress stagedAtMs =>
    unfold World.step
    dsimp only
    cases w.states[i]? with
    | none => exact .keeps rfl (fun hno => hno) rfl rfl (List.Subset.refl _)
    | some state =>
      dsimp only
      cases stageSelfDestructing w.rows id peerAddress state stagedAtMs <;>
        exact .keeps rfl (fun hno => hno) rfl rfl (List.Subset.refl _)
  | takeSelfDestructing id =>
    unfold World.step
    dsimp only
    split <;> exact .keeps rfl (fun hno => hno) rfl rfl (List.Subset.refl _)
  | restore i store nowMs =>
    unfold World.step
    dsimp only
    cases hstate : w.states[i]? with
    | none =>
      refine .keeps rfl ?_ rfl rfl (List.Subset.refl _)
      rintro ⟨state, hsome, -⟩
      rw [hstate] at hsome
      cases hsome
    | some state => exact effect_restore h hstate store nowMs
  | advance duration => exact .keeps rfl id rfl rfl (List.Subset.refl _)
  | dropRuntime => exact .keeps rfl id rfl rfl (List.Subset.refl _)

/-- Every handle on a live slot opens. -/
lemma erasureFinal_iff (hopens : Opens c k ct plaintext) (h : w.Inv k ct mode) :
    ErasureFinal c w ↔
      (w.erased ≠ [] → ∀ message ∈ w.handles, w.process.key message.key = none) := by
  constructor
  · intro hfinal herased message hmem
    by_contra hlive
    obtain ⟨key, hkey⟩ := Option.ne_none_iff_exists'.mp hlive
    rw [h.keys _ _ hkey] at hkey
    have hct := (h.handles message hmem).1
    have hopen := openMessage_of_key (hct ▸ hopens) hkey
    exact hfinal herased message hmem plaintext (by rw [hopen])
  · intro hdark herased message hmem plaintext'
    rw [openMessage_of_none (hdark herased message hmem)]
    exact fun heq => by cases heq

lemma erasureFinal_step (hopens : Opens c k ct plaintext) (w : World) (label : Label)
    (h : w.Inv k ct mode) (hfinal : w.ErasureFinal c) :
    (w.step c label).ErasureFinal c ↔ w.OnlyCopy label := by
  rw [erasureFinal_iff hopens h] at hfinal
  rw [erasureFinal_iff hopens (inv_step hopens w label h)]
  cases effect_step hopens h label with
  | clears slot herases hnot herased hslots hhandles =>
    have hkeys := Process.key_congr hslots
    rw [hhandles]
    constructor
    · intro hdark
      refine ⟨?_, fun hrestores => absurd hrestores hnot⟩
      intro slot' heq copy hmem hne
      rw [herases] at heq
      cases heq
      have hnone := hdark (by rw [herased]; simp) copy hmem
      rwa [hkeys, Process.key_erase_of_ne (Ne.symm hne)] at hnone
    · intro honly _ copy hmem
      rw [hkeys]
      by_cases heq : slot = copy.key
      · rw [← heq, Process.key_erase_self]
      · rw [Process.key_erase_of_ne heq]
        exact honly.1 slot herases copy hmem (Ne.symm heq)
  | adds hnone hrestores herased hslots hcopy =>
    have hkeys := Process.key_congr hslots
    rw [herased]
    constructor
    · intro hdark
      refine ⟨fun slot heq => ?_, fun _ => ?_⟩
      · rw [hnone] at heq
        cases heq
      · by_contra herased
        obtain ⟨copy, hmem, hslot⟩ := hcopy
        have hlive := hdark herased copy hmem
        rw [hkeys, hslot, Process.key_alloc_self] at hlive
        cases hlive
    · intro honly herased
      exact absurd (honly.2 hrestores) herased
  | keeps hnone hnot herased hslots hhandles =>
    have hkeys := Process.key_congr hslots
    rw [herased]
    refine iff_of_true ?_ ⟨?_, fun hrestores => absurd hrestores hnot⟩
    · intro herased copy hmem
      rw [hkeys]
      exact hfinal herased copy (hhandles hmem)
    · intro slot heq
      rw [hnone] at heq
      cases heq

/-- An open that returns the plaintext found a live slot, and cleared it if it should. -/
def Reads (mode : DestructMode) (w w' : World) : Prop :=
  w'.reads = w.reads ∨
    w'.reads = w.reads + 1 ∧ (∃ message ∈ w.handles, w.process.key message.key ≠ none) ∧
      (mode.erasesOnRead = true → w'.erased ≠ [])

lemma reads_openStep (hopens : Opens c k ct plaintext) (h : w.Inv k ct mode)
    (hmem : message ∈ w.handles) : Reads mode w (w.openStep c message) := by
  obtain ⟨hct, hmode, -⟩ := h.handles message hmem
  cases hkey : w.process.key message.key with
  | none =>
    rw [openStep_of_none hkey]
    exact Or.inl rfl
  | some key =>
    have hlive : ∃ message ∈ w.handles, w.process.key message.key ≠ none :=
      ⟨message, hmem, by simp [hkey]⟩
    rw [h.keys _ _ hkey] at hkey
    rw [← hct] at hopens
    rw [openStep_of_key hopens hkey]
    refine Or.inr ⟨rfl, hlive, ?_⟩
    intro herases
    rw [hmode, if_pos herases]
    exact List.cons_ne_nil _ _

lemma reads_step (hopens : Opens c k ct plaintext) (h : w.Inv k ct mode) (label : Label) :
    Reads mode w (w.step c label) := by
  cases label with
  | «open» handle =>
    unfold World.step
    dsimp only
    cases hhandle : w.handles[handle]? with
    | none => exact Or.inl rfl
    | some message => exact reads_openStep hopens h (List.mem_of_getElem? hhandle)
  | openWithClockGuard handle store nowMs =>
    unfold World.step
    dsimp only
    cases hhandle : w.handles[handle]? with
    | none => exact Or.inl rfl
    | some message =>
      dsimp only
      by_cases hrolled : rolledBack (w.watermarks store) nowMs
      · rw [guardStep_of_rolledBack hrolled]
        exact Or.inl rfl
      · rw [guardStep_of_not_rolledBack hrolled]
        exact reads_openStep hopens h (List.mem_of_getElem? hhandle)
  | restore i store nowMs =>
    unfold World.step
    dsimp only
    cases hstate : w.states[i]? with
    | none => exact Or.inl rfl
    | some state =>
      dsimp only
      by_cases hok : w.Restorable state store nowMs
      · obtain ⟨copy, process, deadlines, heq, -⟩ := restore_of_restorable hok
        rw [heq]
        exact Or.inl rfl
      · obtain ⟨watermark, heq⟩ := restore_of_not_restorable hok
        rw [heq]
        exact Or.inl rfl
  | fireTimer i =>
    left
    change (w.fireTimer i).reads = w.reads
    unfold World.fireTimer
    split <;> rfl
  | drop handle | advance duration | dropRuntime => exact Or.inl rfl
  | clone handle | expireNow handle | takeSelfDestructing id =>
    left
    unfold World.step
    dsimp only
    split <;> rfl
  | exportForPersistence handle | stageSelfDestructing i id peerAddress stagedAtMs =>
    left
    unfold World.step
    dsimp only
    split
    · rfl
    · split <;> rfl

/-- At most one read, which erased the key. -/
def ReadOnce (w : World) : Prop := w.reads ≤ 1 ∧ (w.reads ≠ 0 → w.erased ≠ [])

lemma readOnce_step (hopens : Opens c k ct plaintext) (h : w.Inv k ct mode)
    (hmode : mode.erasesOnRead = true) (hfinal : w.ErasureFinal c) (honce : w.ReadOnce)
    (label : Label) : (w.step c label).ReadOnce := by
  have hgrows : w.erased ≠ [] → (w.step c label).erased ≠ [] := by
    intro herased
    cases effect_step hopens h label with
    | clears slot _ _ heq _ _ =>
      rw [heq]
      exact List.cons_ne_nil _ _
    | adds _ _ heq _ _ => rwa [heq]
    | keeps _ _ heq _ _ => rwa [heq]
  rcases reads_step hopens h label with hsame | ⟨hone, ⟨message, hmem, hlive⟩, herases⟩
  · unfold ReadOnce
    rw [hsame]
    exact ⟨honce.1, fun hreads => hgrows (honce.2 hreads)⟩
  · have hzero : w.reads = 0 := by
      by_contra hreads
      exact hlive ((erasureFinal_iff hopens h).mp hfinal (honce.2 hreads) message hmem)
    refine ⟨by omega, fun _ => herases hmode⟩

/-- Erasure is final in every state of a run exactly when the run erases and restores only
as `OnlyCopy` says. Then a plaintext that a read erases is returned at most once. -/
theorem everyState_erasureFinal_iff (hcorrect : c.Correct) {env : SealEnv} {now : ℕ}
    {call : SealCall} {process : Process}
    (hseal : call.run c env { now } = .ok (message, process)) (labels : List Label) :
    (EveryState (step c) (ErasureFinal c) (sealed call message process) labels ↔
      EveryStep (step c) OnlyCopy (sealed call message process) labels) ∧
    (EveryStep (step c) OnlyCopy (sealed call message process) labels →
      message.mode.erasesOnRead = true →
      (run (step c) (sealed call message process) labels).reads ≤ 1) := by
  obtain ⟨k, hopens, hinv⟩ := inv_sealed hcorrect hseal
  have hstart : (sealed call message process).ErasureFinal c := fun herased => absurd rfl herased
  have hiff := everyState_iff_everyStep (inv_step hopens) (erasureFinal_step hopens) hinv hstart labels
  refine ⟨hiff, ?_⟩
  intro honly hmode
  have hstep : ∀ (w : World) (label : Label),
      (w.Inv k message.ciphertext message.mode ∧ w.ErasureFinal c ∧ w.ReadOnce) → w.OnlyCopy label →
      (w.step c label).Inv k message.ciphertext message.mode ∧ (w.step c label).ErasureFinal c ∧
        (w.step c label).ReadOnce := by
    rintro w label ⟨h, hfinal, honce⟩ hlabel
    exact ⟨inv_step hopens w label h, (erasureFinal_step hopens w label h hfinal).mpr hlabel,
      readOnce_step hopens h hmode hfinal honce label⟩
  have honce : (sealed call message process).ReadOnce := ⟨Nat.zero_le 1, fun hreads => absurd rfl hreads⟩
  have hall := everyState_of_everyStep hstep ⟨hinv, hstart, honce⟩ honly
  exact hall.last.2.2.1

end World

def readTriggeredCall : SealCall := .sealReadTriggered [104, 105] 1000

/-- Export, read, restore the export. -/
def restoredAfterRead : List Label := [.exportForPersistence 0, .open 0, .restore 0 0 2000]

/-- Export, drop the message, restore the export and read that twice. -/
def restoredAlone : List Label :=
  [.exportForPersistence 0, .drop 0, .restore 0 0 2000, .open 0, .open 0]

namespace World

theorem everyState_erasureFinal_iff_restoredAlone :
    (EveryState (step localSealCrates) (ErasureFinal localSealCrates)
        (sampleWorld readTriggeredCall) restoredAlone ↔
      EveryStep (step localSealCrates) OnlyCopy (sampleWorld readTriggeredCall) restoredAlone) ∧
    (EveryStep (step localSealCrates) OnlyCopy (sampleWorld readTriggeredCall) restoredAlone →
      (sampleSealed readTriggeredCall).1.mode.erasesOnRead = true →
      (run (step localSealCrates) (sampleWorld readTriggeredCall) restoredAlone).reads ≤ 1) ∧
    EveryStep (step localSealCrates) OnlyCopy (sampleWorld readTriggeredCall) restoredAlone := by
  obtain ⟨hiff, hreads⟩ := everyState_erasureFinal_iff localSealCrates_correct
    (show readTriggeredCall.run localSealCrates sampleSealEnv {} =
      .ok ((sampleSealed readTriggeredCall).1, (sampleSealed readTriggeredCall).2) from rfl)
    restoredAlone
  exact ⟨hiff, hreads, by decide +kernel⟩

theorem not_erasureFinal_restoredAfterRead :
    ¬EveryState (step localSealCrates) (ErasureFinal localSealCrates)
        (sampleWorld readTriggeredCall) restoredAfterRead ∧
      (run (step localSealCrates) (sampleWorld readTriggeredCall)
        (restoredAfterRead ++ [.open 0])).reads = 2 := by
  refine ⟨?_, by decide +kernel⟩
  intro h
  have hfinal := h.last
  have herased : (run (step localSealCrates) (sampleWorld readTriggeredCall)
      restoredAfterRead).erased ≠ [] := by
    decide +kernel
  have hcopy : ⟨(sampleSealed readTriggeredCall).1.ciphertext, 1, .readTriggered, none⟩ ∈
      (run (step localSealCrates) (sampleWorld readTriggeredCall) restoredAfterRead).handles := by
    decide +kernel
  exact hfinal herased _ hcopy [104, 105] (by rfl)

end World

end Parda.ClientStore
