import Parda.Lib.Machine
import Parda.Lib.Pages
import Parda.Protocol.Envelope

/-!
# Locked memory

Model of `protocol/src/secure_memory.rs` and of its two users, `DerivedKey` of
`protocol/src/self_destruct.rs` and `PlaintextHandle` of `protocol/src/plaintext_ffi.rs`.
Where the allocator puts a box is part of the label. Lock calls succeed.
-/

namespace Parda.Protocol

open Machine Pages

inductive Owner where
  | derivedKey
  | plaintextHandle
deriving DecidableEq

/-- A heap box that holds a secret. -/
structure SecretBox where
  owner : Owner
  start : ℕ
  bytes : Bytes
deriving DecidableEq

def SecretBox.range (box : SecretBox) : Range := ⟨box.start, box.bytes.length⟩

def SecretBox.zeroize (box : SecretBox) : SecretBox :=
  { box with bytes := List.replicate box.bytes.length 0 }

@[simp] lemma SecretBox.range_zeroize (box : SecretBox) : box.zeroize.range = box.range := by
  simp [range, zeroize]

/-- The lock bits, and the slots of all keys and handles made so far. A slot that was
erased or released is empty. -/
structure SecretMemory where
  locks : Locks := fun _ => false
  slots : List (Option SecretBox) := []

inductive SecretLabel where
  | newKey (start : ℕ) (bytes : Bytes32)
  | newHandle (start : ℕ) (bytes : Bytes)
  | eraseKey (id : ℕ)
  | dropKey (id : ℕ)
  | releaseHandle (id : ℕ)
  | dropHandle (id : ℕ)

namespace SecretMemory

/-- The box in a slot. -/
def slot (m : SecretMemory) (id : ℕ) : Option SecretBox := m.slots[id]?.join

def setSlot (m : SecretMemory) (id : ℕ) (box : Option SecretBox) : SecretMemory :=
  { m with slots := m.slots.set id box }

/-- The allocator returns a range that no box in use overlaps. -/
def Free (m : SecretMemory) (range : Range) : Prop :=
  ∀ box ∈ m.slots.reduceOption, range.Disjoint box.range

instance (m : SecretMemory) (range : Range) : Decidable (m.Free range) := by
  unfold Free
  infer_instance

section Operations

variable (pageSize : ℕ)

def lock (m : SecretMemory) (range : Range) : SecretMemory :=
  if range.len = 0 then m else { m with locks := Pages.lock pageSize range m.locks }

def unlock (m : SecretMemory) (range : Range) : SecretMemory :=
  if range.len = 0 then m else { m with locks := Pages.unlock pageSize range m.locks }

/-- A new slot, at index `m.slots.length`. -/
def alloc (m : SecretMemory) (box : SecretBox) : SecretMemory :=
  { m with slots := m.slots ++ [some box] }

/-- `DerivedKey::new`. -/
def newKey (m : SecretMemory) (start : ℕ) (bytes : Bytes32) : SecretMemory :=
  let box : SecretBox := ⟨.derivedKey, start, bytes.toList⟩
  (m.lock pageSize box.range).alloc box

/-- `PlaintextHandle::new`. -/
def newHandle (m : SecretMemory) (start : ℕ) (bytes : Bytes) : SecretMemory :=
  let box : SecretBox := ⟨.plaintextHandle, start, bytes⟩
  (m.lock pageSize box.range).alloc box

/-- `drop` of a `DerivedKey`, in the slot that held it. -/
def dropKey (m : SecretMemory) (id : ℕ) : SecretMemory :=
  match m.slot id with
  | some box => ((m.setSlot id (some box.zeroize)).unlock pageSize box.zeroize.range).setSlot id none
  | none => m

/-- `erase`. The key is zeroized in its slot and then dropped. -/
def eraseKey (m : SecretMemory) (id : ℕ) : SecretMemory :=
  match m.slot id with
  | some box => (m.setSlot id (some box.zeroize)).dropKey pageSize id
  | none => m

def releaseHandle (m : SecretMemory) (id : ℕ) : SecretMemory :=
  match m.slot id with
  | some box => ((m.setSlot id (some box.zeroize)).unlock pageSize box.range).setSlot id none
  | none => m

/-- `drop` of a `PlaintextHandle`. -/
def dropHandle (m : SecretMemory) (id : ℕ) : SecretMemory := m.releaseHandle pageSize id

/-- The owner and the slot that an operation ends. -/
def ends : SecretLabel → Option (Owner × ℕ)
  | .newKey _ _ | .newHandle _ _ => none
  | .eraseKey id | .dropKey id => some (.derivedKey, id)
  | .releaseHandle id | .dropHandle id => some (.plaintextHandle, id)

/-- The box in use that an operation unlocks. -/
def ending (m : SecretMemory) (label : SecretLabel) : Option SecretBox :=
  match ends label with
  | some (owner, id) => (m.slot id).filter (fun box => box.owner = owner)
  | none => none

def step (m : SecretMemory) (label : SecretLabel) : SecretMemory :=
  match label with
  | .newKey start bytes =>
    if m.Free ⟨start, bytes.toList.length⟩ then m.newKey pageSize start bytes else m
  | .newHandle start bytes =>
    if m.Free ⟨start, bytes.length⟩ then m.newHandle pageSize start bytes else m
  | .eraseKey id => if (m.ending label).isSome then m.eraseKey pageSize id else m
  | .dropKey id => if (m.ending label).isSome then m.dropKey pageSize id else m
  | .releaseHandle id => if (m.ending label).isSome then m.releaseHandle pageSize id else m
  | .dropHandle id => if (m.ending label).isSome then m.dropHandle pageSize id else m

/-- Every page that holds a byte of a live buffer is locked. -/
def LiveLocked (m : SecretMemory) : Prop :=
  ∀ id box, m.slot id = some box →
    ∀ i < box.bytes.length, m.locks ((box.start + i) / pageSize) = true

/-- What is unlocked shares no page with a buffer that stays live. -/
def UnlocksApart (m : SecretMemory) (label : SecretLabel) : Prop :=
  ∀ owner id box, ends label = some (owner, id) → m.slot id = some box → box.owner = owner →
    ∀ id' box', id' ≠ id → m.slot id' = some box' →
      ∀ i < box.bytes.length, ∀ j < box'.bytes.length,
        (box.start + i) / pageSize ≠ (box'.start + j) / pageSize

end Operations

section Runs

variable {pageSize : ℕ} {m : SecretMemory}

@[simp] lemma slots_lock (range : Range) : (m.lock pageSize range).slots = m.slots := by
  unfold lock
  split <;> rfl

@[simp] lemma slots_unlock (range : Range) : (m.unlock pageSize range).slots = m.slots := by
  unfold unlock
  split <;> rfl

@[simp] lemma locks_lock (range : Range) :
    (m.lock pageSize range).locks = Pages.lock pageSize range m.locks := by
  unfold lock
  split
  · rename_i hlen
    exact (lock_of_len_eq_zero hlen).symm
  · rfl

@[simp] lemma locks_unlock (range : Range) :
    (m.unlock pageSize range).locks = Pages.unlock pageSize range m.locks := by
  unfold unlock
  split
  · rename_i hlen
    exact (unlock_of_len_eq_zero hlen).symm
  · rfl

lemma lt_length_of_slot {id : ℕ} {box : SecretBox} (h : m.slot id = some box) :
    id < m.slots.length := by
  by_contra hid
  unfold slot at h
  rw [List.getElem?_eq_none (not_lt.mp hid)] at h
  cases h

lemma slot_setSlot_self {id : ℕ} (hid : id < m.slots.length) (box : Option SecretBox) :
    (m.setSlot id box).slot id = box := by
  unfold setSlot slot
  rw [List.getElem?_set_self hid]
  rfl

lemma slot_setSlot_of_ne {id id' : ℕ} (h : id' ≠ id) (box : Option SecretBox) :
    (m.setSlot id box).slot id' = m.slot id' := by
  unfold setSlot slot
  rw [List.getElem?_set_ne h.symm]

lemma slot_alloc (box : SecretBox) (id : ℕ) :
    (m.alloc box).slot id = if id = m.slots.length then some box else m.slot id := by
  unfold alloc slot
  by_cases hid : id = m.slots.length
  · subst hid
    simp
  · rw [if_neg hid]
    by_cases hlt : id < m.slots.length
    · rw [List.getElem?_append_left hlt]
    · rw [List.getElem?_eq_none (not_lt.mp hlt), List.getElem?_eq_none]
      rw [List.length_append, List.length_singleton]
      omega

/-- The end of a buffer's life. -/
def free (pageSize : ℕ) (m : SecretMemory) (id : ℕ) (box : SecretBox) : SecretMemory :=
  { locks := Pages.unlock pageSize box.range m.locks, slots := m.slots.set id none }

lemma dropKey_eq_free {id : ℕ} {box : SecretBox} (h : m.slot id = some box) :
    m.dropKey pageSize id = m.free pageSize id box := by
  unfold dropKey free
  rw [h]
  simp [setSlot]

lemma eraseKey_eq_free {id : ℕ} {box : SecretBox} (h : m.slot id = some box) :
    m.eraseKey pageSize id = m.free pageSize id box := by
  have hzeroized : (m.setSlot id (some box.zeroize)).slot id = some box.zeroize :=
    slot_setSlot_self (lt_length_of_slot h) _
  unfold eraseKey
  rw [h]
  change (m.setSlot id (some box.zeroize)).dropKey pageSize id = _
  rw [dropKey_eq_free hzeroized]
  simp [free, setSlot]

lemma releaseHandle_eq_free {id : ℕ} {box : SecretBox} (h : m.slot id = some box) :
    m.releaseHandle pageSize id = m.free pageSize id box := by
  unfold releaseHandle free
  rw [h]
  simp [setSlot]

lemma ending_eq_some {owner : Owner} {id : ℕ} {label : SecretLabel} {box : SecretBox}
    (hends : ends label = some (owner, id)) :
    m.ending label = some box ↔ m.slot id = some box ∧ box.owner = owner := by
  unfold ending
  rw [hends]
  simp [Option.filter_eq_some_iff]

/-- An operation that ends a live buffer frees it, under whatever name. -/
lemma step_of_ending {owner : Owner} {id : ℕ} {label : SecretLabel} {box : SecretBox}
    (hends : ends label = some (owner, id)) (hending : m.ending label = some box) :
    m.step pageSize label = m.free pageSize id box := by
  have hslot : m.slot id = some box := ((ending_eq_some hends).mp hending).1
  cases label with
  | newKey start bytes => cases hends
  | newHandle start bytes => cases hends
  | eraseKey id' =>
    obtain ⟨-, rfl⟩ : _ ∧ id' = id := by simpa [ends] using hends
    simp only [step, hending, Option.isSome_some, if_true]
    exact eraseKey_eq_free hslot
  | dropKey id' =>
    obtain ⟨-, rfl⟩ : _ ∧ id' = id := by simpa [ends] using hends
    simp only [step, hending, Option.isSome_some, if_true]
    exact dropKey_eq_free hslot
  | releaseHandle id' =>
    obtain ⟨-, rfl⟩ : _ ∧ id' = id := by simpa [ends] using hends
    simp only [step, hending, Option.isSome_some, if_true]
    exact releaseHandle_eq_free hslot
  | dropHandle id' =>
    obtain ⟨-, rfl⟩ : _ ∧ id' = id := by simpa [ends] using hends
    simp only [step, hending, Option.isSome_some, if_true]
    exact releaseHandle_eq_free hslot

/-- An operation that ends nothing changes nothing or makes a new locked box. -/
lemma step_of_ending_eq_none {label : SecretLabel} (hending : m.ending label = none) :
    m.step pageSize label = m ∨
      ∃ box, m.step pageSize label = (m.lock pageSize box.range).alloc box := by
  cases label with
  | newKey start bytes =>
    simp only [step]
    split
    · exact Or.inr ⟨⟨.derivedKey, start, bytes.toList⟩, rfl⟩
    · exact Or.inl rfl
  | newHandle start bytes =>
    simp only [step]
    split
    · exact Or.inr ⟨⟨.plaintextHandle, start, bytes⟩, rfl⟩
    · exact Or.inl rfl
  | eraseKey id => exact Or.inl (by simp [step, hending])
  | dropKey id => exact Or.inl (by simp [step, hending])
  | releaseHandle id => exact Or.inl (by simp [step, hending])
  | dropHandle id => exact Or.inl (by simp [step, hending])

lemma liveLocked_iff :
    m.LiveLocked pageSize ↔ ∀ id box, m.slot id = some box → Held pageSize m.locks box.range := by
  refine forall₂_congr fun id box => ?_
  rw [held_iff]
  rfl

lemma LiveLocked.alloc (h : m.LiveLocked pageSize) (box : SecretBox) :
    ((m.lock pageSize box.range).alloc box).LiveLocked pageSize := by
  rw [liveLocked_iff] at h ⊢
  intro id box' hslot
  change Held pageSize (m.lock pageSize box.range).locks box'.range
  rw [locks_lock]
  rw [slot_alloc] at hslot
  split at hslot
  · obtain rfl : box = box' := by simpa using hslot
    exact held_lock_self
  · apply Held.lock
    apply h id
    simpa [slot] using hslot

/-- The end of a buffer's life leaves the others locked exactly when they are apart from it. -/
lemma liveLocked_free_iff (h : m.LiveLocked pageSize) (id : ℕ) (box : SecretBox) :
    (m.free pageSize id box).LiveLocked pageSize ↔
      ∀ id' box', id' ≠ id → m.slot id' = some box' → Apart pageSize box.range box'.range := by
  rw [liveLocked_iff] at h ⊢
  constructor
  · intro hfree id' box' hne hslot
    rw [← held_unlock_iff (h id' box' hslot)]
    apply hfree id' box'
    exact (slot_setSlot_of_ne hne none).trans hslot
  · intro hapart id' box' hslot
    have hne : id' ≠ id := by
      rintro rfl
      have hempty : (m.setSlot id' none).slot id' = some box' := hslot
      unfold setSlot slot at hempty
      rw [List.getElem?_set_self'] at hempty
      cases hold : m.slots[id']? <;> simp [hold] at hempty
    have hslot' : m.slot id' = some box' := (slot_setSlot_of_ne hne none).symm.trans hslot
    exact (held_unlock_iff (h id' box' hslot')).mpr (hapart id' box' hne hslot')

lemma unlocksApart_iff {label : SecretLabel} :
    m.UnlocksApart pageSize label ↔ ∀ owner id box, ends label = some (owner, id) →
      m.ending label = some box → ∀ id' box', id' ≠ id → m.slot id' = some box' →
        Apart pageSize box.range box'.range := by
  constructor
  · intro h owner id box hends hending id' box' hne hslot'
    obtain ⟨hslot, howner⟩ := (ending_eq_some hends).mp hending
    rw [apart_iff]
    exact h owner id box hends hslot howner id' box' hne hslot'
  · intro h owner id box hends hslot howner id' box' hne hslot'
    have hending := (ending_eq_some hends).mpr ⟨hslot, howner⟩
    exact apart_iff.mp (h owner id box hends hending id' box' hne hslot')

lemma ends_of_ending {label : SecretLabel} {box : SecretBox} (h : m.ending label = some box) :
    ∃ owner id, ends label = some (owner, id) := by
  unfold ending at h
  split at h
  · rename_i owner id hends
    exact ⟨owner, id, hends⟩
  · cases h

lemma liveLocked_step_iff (h : m.LiveLocked pageSize) (label : SecretLabel) :
    (m.step pageSize label).LiveLocked pageSize ↔ m.UnlocksApart pageSize label := by
  rw [unlocksApart_iff]
  cases hending : m.ending label with
  | none =>
    refine iff_of_true ?_ fun owner id box hends hsome => by cases hsome
    obtain hsame | ⟨box, hnew⟩ := step_of_ending_eq_none hending
    · rw [hsame]
      exact h
    · rw [hnew]
      exact h.alloc box
  | some box =>
    obtain ⟨owner, id, hends⟩ := ends_of_ending hending
    rw [step_of_ending hends hending, liveLocked_free_iff h]
    constructor
    · intro hapart owner' id' box' hends' hsome
      obtain ⟨-, rfl⟩ : owner = owner' ∧ id = id' := by simpa using hends.symm.trans hends'
      obtain rfl : box = box' := by simpa using hsome
      exact hapart
    · intro hapart
      exact hapart owner id box hends rfl

/-- The live secrets are locked in every state of a run exactly when no page is unlocked
that a live secret shares. -/
theorem everyState_liveLocked_iff (pageSize : ℕ) (labels : List SecretLabel) :
    EveryState (step pageSize) (LiveLocked pageSize) {} labels ↔
      EveryStep (step pageSize) (UnlocksApart pageSize) {} labels := by
  have hstart : LiveLocked pageSize {} := by
    intro id box hslot
    cases hslot
  exact @everyState_iff_everyStep _ _ (step pageSize) (fun _ => True) (fun _ _ h => h)
    (LiveLocked pageSize) _ (fun m label _ h => liveLocked_step_iff h label) _ trivial hstart labels

/-- Two keys in boxes side by side, of which the first is erased. -/
def eraseNeighbour : List SecretLabel :=
  [.newKey 4112 (List.Vector.replicate 32 1), .newKey 4160 (List.Vector.replicate 32 2),
    .eraseKey 0]

theorem not_everyState_liveLocked_eraseNeighbour :
    ¬EveryState (step 4096) (LiveLocked 4096) {} eraseNeighbour := by
  intro h
  have hlocked := h.last 1 ⟨.derivedKey, 4160, List.replicate 32 2⟩ (by decide) 0 (by decide)
  exact absurd hlocked (by decide)

end Runs

end SecretMemory

end Parda.Protocol
