import Mathlib.Data.List.Infix
import Mathlib.Logic.Function.Basic
import Parda.Lib.Machine
import Parda.Protocol.Envelope

/-!
# The Android radio link

The receive path of one process: `AndroidMeshLink::recv` of `mobile-bridge/src/radio.rs`,
the one-shot registry of `mobile-bridge/src/pending.rs` and `recv`, `deliverRecv` and the
two callbacks of `MeshBridge.kt`. The two sides of the language boundary run on threads
of their own, so a call of `recv` is three steps: it registers a one-shot, it registers
its interest with the bridge, and it returns once the one-shot is resolved. Request ids are
naturals, where the counter of the source wraps after `2 ^ 64` draws. No call of `recv` fails
in the bridge, and none is dropped by its caller.
-/

namespace Parda.MobileBridge

open Machine

inductive OneshotResult where
  | bytes (b : Bytes)
  | error (message : String)
deriving DecidableEq

/-- The frame that a result carries, if any. -/
def OneshotResult.frames : OneshotResult → List Bytes
  | .bytes b => [b]
  | .error _ => []

inductive Oneshot where
  | absent
  | registered
  | resolved (result : OneshotResult)
deriving DecidableEq

/-- A `recv` that has not returned. `interested` once the bridge knows of it. -/
structure RecvCall where
  requestId : ℕ
  interested : Bool := false
deriving DecidableEq

/-- The state of both sides, by request id and by link handle, with what the callbacks
were given and what `recv` returned on each link. -/
structure Bridge where
  nextId : ℕ := 1
  oneshots : ℕ → Oneshot := fun _ => .absent
  pendingRecv : ℕ → Option ℕ := fun _ => none
  calls : ℕ → Option RecvCall := fun _ => none
  received : ℕ → List Bytes := fun _ => []
  returned : ℕ → List Bytes := fun _ => []

/-- `frame` is a callback with the value it carries. A write request always has one. -/
inductive LinkLabel where
  | recv (link : ℕ)
  | linkRecv (link : ℕ)
  | frame (link : ℕ) (value : Option Bytes)
  | wake (link : ℕ)
deriving DecidableEq

def LinkLabel.isFrame : LinkLabel → Bool
  | .frame _ _ => true
  | _ => false

namespace Bridge

/-- Nothing happens to an id that is not registered. -/
def resolveOneshot (w : Bridge) (id : ℕ) (result : OneshotResult) : Bridge :=
  match w.oneshots id with
  | .registered => { w with oneshots := Function.update w.oneshots id (.resolved result) }
  | _ => w

def deliverRecv (w : Bridge) (link : ℕ) (bytes : Option Bytes) : Bridge :=
  match w.pendingRecv link with
  | none => w
  | some requestId =>
    let w' := { w with pendingRecv := Function.update w.pendingRecv link none }
    match bytes with
    | none => w'.resolveOneshot requestId (.error "no data")
    | some b => w'.resolveOneshot requestId (.bytes b)

/-- The start of `recv`. It borrows the link, so there is one call at a time. -/
def recv (w : Bridge) (link : ℕ) : Bridge :=
  match w.calls link with
  | some _ => w
  | none => { w with
      nextId := w.nextId + 1
      oneshots := Function.update w.oneshots w.nextId .registered
      calls := Function.update w.calls link (some { requestId := w.nextId }) }

/-- `recv` of the bridge. -/
def linkRecv (w : Bridge) (link : ℕ) : Bridge :=
  match w.calls link with
  | some ⟨requestId, false⟩ => { w with
      pendingRecv := Function.update w.pendingRecv link (some requestId)
      calls := Function.update w.calls link (some ⟨requestId, true⟩) }
  | _ => w

/-- A callback on a link. -/
def frame (w : Bridge) (link : ℕ) (value : Option Bytes) : Bridge :=
  { w with
    received := Function.update w.received link (w.received link ++ value.toList)
  }.deliverRecv link value

/-- The end of `recv`. -/
def wake (w : Bridge) (link : ℕ) : Bridge :=
  match w.calls link with
  | some ⟨requestId, true⟩ =>
    match w.oneshots requestId with
    | .resolved result => { w with
        oneshots := Function.update w.oneshots requestId .absent
        calls := Function.update w.calls link none
        returned := Function.update w.returned link (w.returned link ++ result.frames) }
    | _ => w
  | _ => w

def step (w : Bridge) : LinkLabel → Bridge
  | .recv link => w.recv link
  | .linkRecv link => w.linkRecv link
  | .frame link value => w.frame link value
  | .wake link => w.wake link

/-- The frame a resolved call on the link is still to return. -/
def resolvedFrame (w : Bridge) (link : ℕ) : List Bytes :=
  match w.calls link with
  | none => []
  | some call =>
    match w.oneshots call.requestId with
    | .resolved result => result.frames
    | _ => []

/-- What `recv` has returned on a link, then what it will. -/
def flow (w : Bridge) (link : ℕ) : List Bytes := w.returned link ++ w.resolvedFrame link

/-- One call of `recv` from start to end. -/
def recvRound (link : ℕ) : List LinkLabel := [.recv link, .linkRecv link, .wake link]

/-- What `recv` returned is a prefix of what the link received, and once enough calls of
`recv` have been made, whatever else the receiving side does, it is all of it. -/
structure ReliableFifo (link : ℕ) (w : Bridge) : Prop where
  returned_prefix : w.returned link <+: w.received link
  returned_all : ∃ k, ∀ later : List LinkLabel, (∀ label ∈ later, label.isFrame = false) →
    (List.replicate k (recvRound link)).flatten.Sublist later →
    (run step w later).returned link = w.received link

/-- A frame comes when a `recv` of its link is pending. -/
def Awaited (link : ℕ) (w : Bridge) : LinkLabel → Prop
  | .frame l (some _) => l = link → w.pendingRecv link ≠ none
  | _ => True

structure Inv (w : Bridge) : Prop where
  fresh : ∀ link call, w.calls link = some call → call.requestId < w.nextId
  distinct : ∀ link link' call call', w.calls link = some call → w.calls link' = some call' →
    call.requestId = call'.requestId → link = link'
  pending : ∀ link id, w.pendingRecv link = some id →
    w.calls link = some ⟨id, true⟩ ∧ w.oneshots id = .registered
  registered : ∀ link id, w.calls link = some ⟨id, false⟩ → w.oneshots id = .registered
  interested : ∀ link id, w.calls link = some ⟨id, true⟩ →
    w.pendingRecv link = some id ∨ ∃ result, w.oneshots id = .resolved result

section Step

variable {w : Bridge} {link : ℕ}

/-- The result a callback's value gives. -/
def frameResult : Option Bytes → OneshotResult
  | none => .error "no data"
  | some b => .bytes b

lemma frame_of_none (h : w.pendingRecv link = none) (value : Option Bytes) :
    w.frame link value =
      { w with received := Function.update w.received link (w.received link ++ value.toList) } := by
  unfold frame deliverRecv
  simp only [h]

/-- A frame that is awaited resolves the call. -/
lemma frame_of_some (hw : w.Inv) {id : ℕ} (h : w.pendingRecv link = some id) (value : Option Bytes) :
    w.frame link value = { w with
      received := Function.update w.received link (w.received link ++ value.toList)
      pendingRecv := Function.update w.pendingRecv link none
      oneshots := Function.update w.oneshots id (.resolved (frameResult value)) } := by
  have hregistered := (hw.pending link id h).2
  unfold frame deliverRecv
  cases value with
  | none => simp only [h, resolveOneshot, hregistered, frameResult]
  | some b => simp only [h, resolveOneshot, hregistered, frameResult]

lemma wake_of_resolved {id : ℕ} {result : OneshotResult} (hcall : w.calls link = some ⟨id, true⟩)
    (hresolved : w.oneshots id = .resolved result) :
    w.wake link = { w with
      oneshots := Function.update w.oneshots id .absent
      calls := Function.update w.calls link none
      returned := Function.update w.returned link (w.returned link ++ result.frames) } := by
  unfold wake
  simp only [hcall, hresolved]

lemma wake_of_not_resolved
    (h : ∀ id result, w.calls link = some ⟨id, true⟩ → w.oneshots id ≠ .resolved result) :
    w.wake link = w := by
  unfold wake
  split
  · rename_i id hcall
    split
    · rename_i result hresolved
      exact absurd hresolved (h id result hcall)
    · rfl
  · rfl

lemma Inv.recv (hw : w.Inv) : (w.recv link).Inv := by
  unfold Bridge.recv
  cases hcall : w.calls link with
  | some call => exact hw
  | none =>
    have hne : ∀ l call, w.calls l = some call → call.requestId ≠ w.nextId := by
      intro l call hl
      exact (hw.fresh l call hl).ne
    have hlink : ∀ l call, w.calls l = some call → l ≠ link := by
      rintro l call hl rfl
      rw [hcall] at hl
      cases hl
    constructor
    · intro l call hl
      change call.requestId < w.nextId + 1
      by_cases heq : l = link
      · subst heq
        simp only [Function.update_self, Option.some.injEq] at hl
        rw [← hl]
        exact Nat.lt_succ_self _
      · simp only [Function.update_of_ne heq] at hl
        exact Nat.lt_succ_of_lt (hw.fresh l call hl)
    · intro l l' call call' hl hl' hid
      by_cases heq : l = link <;> by_cases heq' : l' = link
      · rw [heq, heq']
      · subst heq
        simp only [Function.update_self, Function.update_of_ne heq', Option.some.injEq] at hl hl'
        rw [← hl] at hid
        exact absurd hid.symm (hne l' call' hl')
      · subst heq'
        simp only [Function.update_self, Function.update_of_ne heq, Option.some.injEq] at hl hl'
        rw [← hl'] at hid
        exact absurd hid (hne l call hl)
      · simp only [Function.update_of_ne heq, Function.update_of_ne heq'] at hl hl'
        exact hw.distinct l l' call call' hl hl' hid
    · intro l id hl
      obtain ⟨hcall', hregistered⟩ := hw.pending l id hl
      refine ⟨?_, ?_⟩
      · simp only [Function.update_of_ne (hlink l _ hcall')]
        exact hcall'
      · simp only [Function.update_of_ne (hne l _ hcall')]
        exact hregistered
    · intro l id hl
      by_cases heq : l = link
      · subst heq
        simp only [Function.update_self, Option.some.injEq, RecvCall.mk.injEq] at hl
        rw [← hl.1]
        exact Function.update_self _ _ _
      · simp only [Function.update_of_ne heq] at hl
        simp only [Function.update_of_ne (hne l _ hl)]
        exact hw.registered l id hl
    · intro l id hl
      by_cases heq : l = link
      · subst heq
        simp at hl
      · simp only [Function.update_of_ne heq] at hl
        simp only [Function.update_of_ne (hne l _ hl)]
        exact hw.interested l id hl

lemma Inv.linkRecv (hw : w.Inv) : (w.linkRecv link).Inv := by
  unfold Bridge.linkRecv
  split
  · rename_i id hcall
    have hregistered := hw.registered link id hcall
    constructor
    · intro l call hl
      by_cases heq : l = link
      · subst heq
        simp only [Function.update_self, Option.some.injEq] at hl
        rw [← hl]
        exact hw.fresh l ⟨id, false⟩ hcall
      · simp only [Function.update_of_ne heq] at hl
        exact hw.fresh l call hl
    · intro l l' call call' hl hl' hid
      by_cases heq : l = link <;> by_cases heq' : l' = link
      · rw [heq, heq']
      · subst heq
        simp only [Function.update_self, Function.update_of_ne heq', Option.some.injEq] at hl hl'
        rw [← hl] at hid
        exact hw.distinct l l' _ _ hcall hl' hid
      · subst heq'
        simp only [Function.update_self, Function.update_of_ne heq, Option.some.injEq] at hl hl'
        rw [← hl'] at hid
        exact hw.distinct l l' _ _ hl hcall hid
      · simp only [Function.update_of_ne heq, Function.update_of_ne heq'] at hl hl'
        exact hw.distinct l l' call call' hl hl' hid
    · intro l id' hl
      by_cases heq : l = link
      · subst heq
        simp only [Function.update_self, Option.some.injEq] at hl ⊢
        subst hl
        exact ⟨rfl, hregistered⟩
      · simp only [Function.update_of_ne heq] at hl ⊢
        exact hw.pending l id' hl
    · intro l id' hl
      by_cases heq : l = link
      · subst heq
        simp at hl
      · simp only [Function.update_of_ne heq] at hl
        exact hw.registered l id' hl
    · intro l id' hl
      by_cases heq : l = link
      · subst heq
        simp only [Function.update_self, Option.some.injEq, RecvCall.mk.injEq] at hl ⊢
        exact Or.inl hl.1
      · simp only [Function.update_of_ne heq] at hl ⊢
        exact hw.interested l id' hl
  · exact hw

lemma Inv.frame (hw : w.Inv) (value : Option Bytes) : (w.frame link value).Inv := by
  cases hpending : w.pendingRecv link with
  | none =>
    rw [frame_of_none hpending]
    exact ⟨hw.fresh, hw.distinct, hw.pending, hw.registered, hw.interested⟩
  | some id =>
    obtain ⟨hcall, -⟩ := hw.pending link id hpending
    have hne : ∀ l call, w.calls l = some call → l ≠ link → call.requestId ≠ id := by
      intro l call hl hlink hid
      exact hlink (hw.distinct l link call _ hl hcall hid)
    rw [frame_of_some hw hpending]
    constructor
    · exact hw.fresh
    · exact hw.distinct
    · intro l id' hl
      by_cases heq : l = link
      · subst heq
        simp at hl
      · simp only [Function.update_of_ne heq] at hl
        obtain ⟨hcall', hregistered⟩ := hw.pending l id' hl
        refine ⟨hcall', ?_⟩
        simp only [Function.update_of_ne (hne l _ hcall' heq)]
        exact hregistered
    · intro l id' hl
      have heq : l ≠ link := by
        rintro rfl
        rw [hcall] at hl
        simp at hl
      simp only [Function.update_of_ne (hne l _ hl heq)]
      exact hw.registered l id' hl
    · intro l id' hl
      by_cases heq : l = link
      · subst heq
        obtain rfl : id = id' := by simpa using hcall.symm.trans hl
        exact Or.inr ⟨_, Function.update_self _ _ _⟩
      · simp only [Function.update_of_ne heq, Function.update_of_ne (hne l _ hl heq)]
        exact hw.interested l id' hl

lemma Inv.wake (hw : w.Inv) : (w.wake link).Inv := by
  by_cases hawake : ∃ id result, w.calls link = some ⟨id, true⟩ ∧ w.oneshots id = .resolved result
  · obtain ⟨id, result, hcall, hresolved⟩ := hawake
    have hlink : ∀ l call, Function.update w.calls link none l = some call →
        l ≠ link ∧ w.calls l = some call := by
      intro l call hl
      by_cases heq : l = link
      · subst heq
        simp at hl
      · exact ⟨heq, by simpa only [Function.update_of_ne heq] using hl⟩
    have hne : ∀ l call, w.calls l = some call → l ≠ link → call.requestId ≠ id := by
      intro l call hl heq hid
      exact heq (hw.distinct l link call _ hl hcall hid)
    have hpending : ∀ l id', w.pendingRecv l = some id' → l ≠ link := by
      rintro l id' hl rfl
      obtain ⟨hcall', hregistered⟩ := hw.pending l id' hl
      obtain rfl : id = id' := by simpa using hcall.symm.trans hcall'
      rw [hresolved] at hregistered
      cases hregistered
    rw [wake_of_resolved hcall hresolved]
    constructor
    · intro l call hl
      exact hw.fresh l call (hlink l call hl).2
    · intro l l' call call' hl hl' hid
      exact hw.distinct l l' call call' (hlink l call hl).2 (hlink l' call' hl').2 hid
    · intro l id' hl
      have heq := hpending l id' hl
      obtain ⟨hcall', hregistered⟩ := hw.pending l id' hl
      simp only [Function.update_of_ne heq, Function.update_of_ne (hne l _ hcall' heq)]
      exact ⟨hcall', hregistered⟩
    · intro l id' hl
      obtain ⟨heq, hcall'⟩ := hlink l _ hl
      simp only [Function.update_of_ne (hne l _ hcall' heq)]
      exact hw.registered l id' hcall'
    · intro l id' hl
      obtain ⟨heq, hcall'⟩ := hlink l _ hl
      simp only [Function.update_of_ne (hne l _ hcall' heq)]
      exact hw.interested l id' hcall'
  · rw [wake_of_not_resolved fun id result hcall hresolved => hawake ⟨id, result, hcall, hresolved⟩]
    exact hw

lemma inv_step (w : Bridge) (label : LinkLabel) (hw : w.Inv) : (w.step label).Inv := by
  cases label with
  | recv link => exact hw.recv
  | linkRecv link => exact hw.linkRecv
  | frame link value => exact hw.frame value
  | wake link => exact hw.wake

lemma inv_start : ({} : Bridge).Inv := by
  constructor <;> simp

lemma frames_frameResult (value : Option Bytes) : (frameResult value).frames = value.toList := by
  cases value <;> rfl

/-- A step of the receiving side moves frames along the flow of a link. -/
lemma flow_step (hw : w.Inv) (link : ℕ) (label : LinkLabel) (hlabel : label.isFrame = false) :
    (w.step label).flow link = w.flow link ∧ (w.step label).received link = w.received link := by
  cases label with
  | recv l =>
    simp only [step, Bridge.recv]
    cases hcall : w.calls l with
    | some call => exact ⟨rfl, rfl⟩
    | none =>
      refine ⟨?_, rfl⟩
      unfold flow resolvedFrame
      by_cases heq : link = l
      · subst heq
        simp [hcall]
      · simp only [Function.update_of_ne heq]
        cases hcall' : w.calls link with
        | none => rfl
        | some call =>
          have hne := (hw.fresh link call hcall').ne
          simp only [Function.update_of_ne hne]
  | linkRecv l =>
    simp only [step, Bridge.linkRecv]
    split
    · rename_i id hcall
      refine ⟨?_, rfl⟩
      unfold flow resolvedFrame
      by_cases heq : link = l
      · subst heq
        simp [hcall]
      · simp only [Function.update_of_ne heq]
    · exact ⟨rfl, rfl⟩
  | frame l value => cases hlabel
  | wake l =>
    simp only [step]
    by_cases hawake : ∃ id result, w.calls l = some ⟨id, true⟩ ∧ w.oneshots id = .resolved result
    · obtain ⟨id, result, hcall, hresolved⟩ := hawake
      rw [wake_of_resolved hcall hresolved]
      refine ⟨?_, rfl⟩
      unfold flow resolvedFrame
      by_cases heq : link = l
      · subst heq
        simp [hcall, hresolved]
      · simp only [Function.update_of_ne heq]
        cases hcall' : w.calls link with
        | none => rfl
        | some call =>
          have hne : call.requestId ≠ id := fun hid =>
            heq (hw.distinct link l call _ hcall' hcall hid)
          simp only [Function.update_of_ne hne]
    · rw [wake_of_not_resolved fun id result hcall hresolved => hawake ⟨id, result, hcall, hresolved⟩]
      exact ⟨rfl, rfl⟩

/-- A callback extends the flow exactly when a `recv` is pending. -/
lemma flow_frame (hw : w.Inv) (l : ℕ) (value : Option Bytes) :
    (w.frame l value).flow link = w.flow link ++
      (if l = link ∧ w.pendingRecv l ≠ none then value.toList else []) := by
  cases hpending : w.pendingRecv l with
  | none =>
    rw [frame_of_none hpending]
    simp [flow, resolvedFrame]
  | some id =>
    obtain ⟨hcall, hregistered⟩ := hw.pending l id hpending
    rw [frame_of_some hw hpending]
    unfold flow resolvedFrame
    by_cases heq : l = link
    · subst heq
      simp [hcall, hregistered, frames_frameResult]
    · cases hcall' : w.calls link with
      | none => simp [heq]
      | some call =>
        have hne : call.requestId ≠ id := fun hid =>
          heq (hw.distinct link l call _ hcall' hcall hid).symm
        simp [heq, Function.update_of_ne hne]

lemma received_frame (hw : w.Inv) (l : ℕ) (value : Option Bytes) :
    (w.frame l value).received link =
      w.received link ++ (if l = link then value.toList else []) := by
  have hreceived : (w.frame l value).received =
      Function.update w.received l (w.received l ++ value.toList) := by
    cases hpending : w.pendingRecv l with
    | none => rw [frame_of_none hpending]
    | some id => rw [frame_of_some hw hpending]
  rw [hreceived]
  by_cases heq : l = link
  · subst heq
    simp
  · simp [heq, Function.update_of_ne (Ne.symm heq)]

lemma returned_prefix_step (w : Bridge) (link : ℕ) (label : LinkLabel) (hw : w.Inv) :
    w.returned link <+: (w.step label).returned link := by
  cases label with
  | recv l =>
    simp only [step, Bridge.recv]
    cases w.calls l <;> exact List.prefix_rfl
  | linkRecv l =>
    simp only [step, Bridge.linkRecv]
    split <;> exact List.prefix_rfl
  | frame l value =>
    simp only [step]
    cases hpending : w.pendingRecv l with
    | none => rw [frame_of_none hpending]
    | some id => rw [frame_of_some hw hpending]
  | wake l =>
    simp only [step]
    by_cases hawake : ∃ id result, w.calls l = some ⟨id, true⟩ ∧ w.oneshots id = .resolved result
    · obtain ⟨id, result, hcall, hresolved⟩ := hawake
      rw [wake_of_resolved hcall hresolved]
      by_cases heq : link = l
      · subst heq
        simp
      · simp [Function.update_of_ne heq]
    · rw [wake_of_not_resolved fun id result hcall hresolved => hawake ⟨id, result, hcall, hresolved⟩]

/-- A call that could return has returned. -/
lemma resolvedFrame_wake (hw : w.Inv) : (w.wake link).resolvedFrame link = [] := by
  by_cases hawake : ∃ id result, w.calls link = some ⟨id, true⟩ ∧ w.oneshots id = .resolved result
  · obtain ⟨id, result, hcall, hresolved⟩ := hawake
    rw [wake_of_resolved hcall hresolved]
    simp [resolvedFrame]
  · rw [wake_of_not_resolved fun id result hcall hresolved => hawake ⟨id, result, hcall, hresolved⟩]
    unfold resolvedFrame
    cases hcall : w.calls link with
    | none => rfl
    | some call =>
      obtain ⟨id, interested⟩ := call
      cases interested with
      | false => simp [hw.registered link id hcall]
      | true =>
        cases hone : w.oneshots id with
        | resolved result => exact absurd ⟨id, result, hcall, hone⟩ hawake
        | _ => simp [hone]

/-- The receiving side by itself keeps the flow of every link. -/
lemma flow_run (hw : w.Inv) (link : ℕ) {later : List LinkLabel}
    (hlater : ∀ label ∈ later, label.isFrame = false) :
    (run step w later).Inv ∧ (run step w later).flow link = w.flow link ∧
      (run step w later).received link = w.received link := by
  induction later generalizing w with
  | nil => exact ⟨hw, rfl, rfl⟩
  | cons label later ih =>
    rw [List.forall_mem_cons] at hlater
    obtain ⟨hflow, hreceived⟩ := flow_step hw link label hlater.1
    obtain ⟨hinv, hflow', hreceived'⟩ := ih (inv_step w label hw) hlater.2
    exact ⟨hinv, hflow'.trans hflow, hreceived'.trans hreceived⟩

/-- Once a call has returned, no frame is left in the flow but the returned ones. -/
lemma resolvedFrame_run (hw : w.Inv) {later : List LinkLabel}
    (hlater : ∀ label ∈ later, label.isFrame = false) (hstart : w.resolvedFrame link = []) :
    (run step w later).resolvedFrame link = [] := by
  induction later generalizing w with
  | nil => exact hstart
  | cons label later ih =>
    rw [List.forall_mem_cons] at hlater
    refine ih (inv_step w label hw) hlater.2 ?_
    have hflow := congrArg List.length (flow_step hw link label hlater.1).1
    have hreturned := (returned_prefix_step w link label hw).length_le
    unfold flow at hflow
    rw [List.length_append, List.length_append, hstart, List.length_nil] at hflow
    rw [← List.length_eq_zero_iff]
    omega

lemma returned_run_of_wake (hw : w.Inv) {later : List LinkLabel}
    (hlater : ∀ label ∈ later, label.isFrame = false) (hwake : .wake link ∈ later) :
    (run step w later).returned link = w.flow link := by
  obtain ⟨before, after, rfl⟩ := List.append_of_mem hwake
  rw [List.forall_mem_append, List.forall_mem_cons] at hlater
  obtain ⟨hbefore, -, hafter⟩ := hlater
  obtain ⟨hinv, hflow, -⟩ := flow_run hw link hbefore
  have hempty : (run step w (before ++ .wake link :: after)).resolvedFrame link = [] := by
    rw [run_append, run_cons]
    exact resolvedFrame_run hinv.wake hafter (resolvedFrame_wake hinv)
  have hall : (run step w (before ++ .wake link :: after)).flow link = w.flow link := by
    rw [run_append, run_cons, (flow_run (inv_step _ (.wake link) hinv) link hafter).2.1]
    exact (flow_step hinv link (.wake link) rfl).1.trans hflow
  unfold flow at hall
  rwa [hempty, List.append_nil] at hall

end Step

section Runs

variable {link : ℕ}

/-- Nothing flows but what was received. -/
structure Sound (w : Bridge) : Prop extends w.Inv where
  flow_sublist : ∀ link, (w.flow link).Sublist (w.received link)

lemma flow_step_sublist {w : Bridge} (hw : w.Sound) (label : LinkLabel)
    (hlabel : label.isFrame = false) :
    ((w.step label).flow link).Sublist ((w.step label).received link) := by
  obtain ⟨hflow, hreceived⟩ := flow_step hw.toInv link label hlabel
  rw [hflow, hreceived]
  exact hw.flow_sublist link

lemma sound_step (w : Bridge) (label : LinkLabel) (hw : w.Sound) : (w.step label).Sound := by
  refine ⟨inv_step w label hw.toInv, fun link => ?_⟩
  cases label with
  | frame l value =>
    simp only [step]
    rw [flow_frame hw.toInv, received_frame hw.toInv]
    apply (hw.flow_sublist link).append
    by_cases heq : l = link
    · by_cases hpending : w.pendingRecv link = none <;> simp [heq, hpending]
    · simp [heq]
  | recv l => exact flow_step_sublist hw (.recv l) rfl
  | linkRecv l => exact flow_step_sublist hw (.linkRecv l) rfl
  | wake l => exact flow_step_sublist hw (.wake l) rfl

lemma sound_start : ({} : Bridge).Sound := ⟨inv_start, fun _ => by simp [flow, resolvedFrame]⟩

lemma isFrame_recvRounds (link k : ℕ) :
    ∀ label ∈ (List.replicate k (recvRound link)).flatten, label.isFrame = false := by
  intro label hlabel
  obtain ⟨round, hround, hmem⟩ := List.mem_flatten.mp hlabel
  rw [List.eq_of_mem_replicate hround] at hmem
  simp only [recvRound, List.mem_cons, List.not_mem_nil, or_false] at hmem
  obtain rfl | rfl | rfl := hmem <;> rfl

/-- A link is a reliable queue as long as nothing received has dropped out of the flow. -/
lemma reliableFifo_iff {w : Bridge} (hw : w.Sound) :
    ReliableFifo link w ↔ w.flow link = w.received link := by
  constructor
  · rintro ⟨-, k, hall⟩
    have hrounds := isFrame_recvRounds link k
    have hreturned := hall _ hrounds (List.Sublist.refl _)
    obtain ⟨-, hflow, -⟩ := flow_run hw.toInv link hrounds
    apply (hw.flow_sublist link).eq_of_length_le
    rw [← hreturned, ← hflow]
    exact (List.prefix_append _ _).length_le
  · intro h
    refine ⟨?_, 1, fun later hlater hrounds => ?_⟩
    · rw [← h]
      exact List.prefix_append _ _
    · rw [← h]
      apply returned_run_of_wake hw.toInv hlater
      apply hrounds.subset
      simp [recvRound]

lemma flow_step_eq {w : Bridge} (hw : w.Sound) (hflow : w.flow link = w.received link)
    (label : LinkLabel) (hlabel : label.isFrame = false) :
    (w.step label).flow link = (w.step label).received link := by
  obtain ⟨hflow', hreceived⟩ := flow_step hw.toInv link label hlabel
  exact hflow'.trans (hflow.trans hreceived.symm)

/-- The Android link is a reliable queue in every state of a run exactly when every frame
of the run comes while a `recv` of its link is pending. -/
theorem everyState_reliableFifo_iff (link : ℕ) (labels : List LinkLabel) :
    EveryState step (ReliableFifo link) {} labels ↔ EveryStep step (Awaited link) {} labels := by
  refine everyState_iff_everyStep sound_step ?_ sound_start ?_ labels
  · intro w label hw hgood
    rw [reliableFifo_iff (sound_step w label hw)]
    rw [reliableFifo_iff hw] at hgood
    cases label with
    | frame l value =>
      simp only [step]
      rw [flow_frame hw.toInv, received_frame hw.toInv, hgood]
      cases value with
      | none => simp [Awaited]
      | some b =>
        by_cases heq : l = link
        · simp [Awaited, heq]
        · simp [Awaited, heq]
    | recv l => exact iff_of_true (flow_step_eq hw hgood (.recv l) rfl) trivial
    | linkRecv l => exact iff_of_true (flow_step_eq hw hgood (.linkRecv l) rfl) trivial
    | wake l => exact iff_of_true (flow_step_eq hw hgood (.wake l) rfl) trivial
  · rw [reliableFifo_iff sound_start]
    rfl

/-- The peer's first frame comes before the first `recv`. -/
def frameFirst : List LinkLabel := .frame 1 (some [7]) :: recvRound 1

theorem not_everyState_reliableFifo_frameFirst :
    ¬EveryState step (ReliableFifo 1) {} frameFirst := by
  intro h
  have hsound := run_invariant sound_step sound_start frameFirst
  have hflow := (reliableFifo_iff hsound).mp h.last
  exact absurd hflow (by decide)

end Runs

end Bridge

end Parda.MobileBridge
