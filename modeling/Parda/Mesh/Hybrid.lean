import Mathlib.Data.List.Basic
import Parda.Lib.Machine
import Parda.Protocol.Envelope

/-!
# The hybrid transport

Model of `mesh/src/hybrid.rs` over two arbitrary transports, and of runs of it over two carriers
that share nothing: each stores any number of copies of what it is sent, hands out some of them and
keeps what it likes of these, and reports what it likes.
-/

namespace Parda

namespace Protocol

/-- `TransportLayer` of `protocol/src/transport.rs`, as calls on a state. -/
structure TransportLayer (σ : Type) where
  send : MessageEnvelope → σ → Except PardaError Unit × σ
  receive : String → σ → Except PardaError (List MessageEnvelope) × σ

end Protocol

namespace Mesh

open Protocol

namespace HybridTransport

variable {α β : Type} (primary : TransportLayer α) (fallback : TransportLayer β)

/-- `send` up to the primary's answer: the clone that the fallback is to send, if there is one. -/
def trySend (envelope : MessageEnvelope) (s : α) : Option MessageEnvelope × α :=
  match primary.send envelope s with
  | (.ok (), s') => (none, s')
  | (.error _, s') => (some { envelope with recipientId := "" }, s')

def send (envelope : MessageEnvelope) (s : α × β) : Except PardaError Unit × (α × β) :=
  match trySend primary envelope s.1 with
  | (none, p) => (.ok (), (p, s.2))
  | (some meshEnvelope, p) =>
    let sent := fallback.send meshEnvelope s.2
    (sent.1, (p, sent.2))

/-- An error counts as nothing received. -/
def received : Except PardaError (List MessageEnvelope) → List MessageEnvelope
  | .ok envelopes => envelopes
  | .error _ => []

def receive (recipientId : String) (s : α × β) :
    Except PardaError (List MessageEnvelope) × (α × β) :=
  let combined := primary.receive recipientId s.1
  let fromMesh := fallback.receive recipientId s.2
  (.ok (received combined.1 ++ received fromMesh.1), (combined.2, fromMesh.2))

end HybridTransport

/-! ### Carriers -/

/-- What a receive does with one of the pending envelopes: it may hand it out and keep it. -/
inductive Pick where
  | leave
  | take
  | copy
deriving DecidableEq

/-- What is handed out of a list, and what is left. -/
def handOut {α : Type} (picks : ℕ → Pick) : List α → List α × List α
  | [] => ([], [])
  | a :: l =>
    let rest := handOut (fun i => picks (i + 1)) l
    match picks 0 with
    | .leave => (rest.1, a :: rest.2)
    | .take => (a :: rest.1, rest.2)
    | .copy => (a :: rest.1, a :: rest.2)

/-- What is handed out and left as well. -/
def copied {α : Type} (picks : ℕ → Pick) : List α → List α
  | [] => []
  | a :: l =>
    let rest := copied (fun i => picks (i + 1)) l
    if picks 0 = .copy then a :: rest else rest

section HandOut

variable {α : Type}

lemma handOut_perm (picks : ℕ → Pick) (l : List α) :
    ((handOut picks l).1 ++ (handOut picks l).2).Perm (copied picks l ++ l) := by
  induction l generalizing picks with
  | nil => exact List.Perm.refl _
  | cons a l ih =>
    have hrest := ih fun i => picks (i + 1)
    rw [handOut, copied]
    cases hpick : picks 0 with
    | leave => exact List.perm_middle.trans ((hrest.cons a).trans List.perm_middle.symm)
    | take => exact (hrest.cons a).trans List.perm_middle.symm
    | copy =>
      apply List.Perm.cons a
      exact List.perm_middle.trans ((hrest.cons a).trans List.perm_middle.symm)

lemma left_sublist (picks : ℕ → Pick) (l : List α) : (handOut picks l).2.Sublist l := by
  induction l generalizing picks with
  | nil => exact List.Sublist.refl _
  | cons a l ih =>
    rw [handOut]
    cases picks 0 with
    | leave => exact (ih _).cons_cons a
    | take => exact (ih _).cons a
    | copy => exact (ih _).cons_cons a

lemma copied_sublist (picks : ℕ → Pick) (l : List α) : (copied picks l).Sublist l := by
  induction l generalizing picks with
  | nil => exact List.Sublist.refl _
  | cons a l ih =>
    rw [copied]
    split_ifs
    · exact (ih _).cons_cons a
    · exact (ih _).cons a

lemma copied_eq_nil {picks : ℕ → Pick} (h : ∀ i, picks i ≠ .copy) (l : List α) :
    copied picks l = [] := by
  induction l generalizing picks with
  | nil => rfl
  | cons a l ih =>
    rw [copied, if_neg (h 0)]
    exact ih fun i => h (i + 1)

lemma handOut_all (l : List α) : handOut (fun _ => .take) l = (l, []) := by
  induction l with
  | nil => rfl
  | cons a l ih => rw [handOut, ih]

end HandOut

/-- How one call on a carrier goes: how many copies of a sent envelope are stored, what a receive
does with each of the pending ones, and what is reported. -/
structure Carriage where
  stores : ℕ
  picks : ℕ → Pick
  result : Except PardaError Unit

def carrier (call : Carriage) : TransportLayer (List MessageEnvelope) where
  send envelope pending := (call.result, List.replicate call.stores envelope ++ pending)
  receive _ pending :=
    (call.result.map fun _ => (handOut call.picks pending).1, (handOut call.picks pending).2)

/-- What a receive returns and the carrier keeps. -/
def Carriage.kept (call : Carriage) (pending : List MessageEnvelope) : List MessageEnvelope :=
  if call.result.isOk then copied call.picks pending else []

/-! ### Runs -/

/-- What two envelopes of one message have in common. -/
def message (envelope : MessageEnvelope) : MessageEnvelope := { envelope with recipientId := "" }

@[simp] lemma message_message (envelope : MessageEnvelope) :
    message (message envelope) = message envelope := rfl

/-- Two carriers, the calls under way on them, the messages whose send returned `Ok`, and all that
was returned to the recipient. -/
structure HybridRun where
  primary : List MessageEnvelope := []
  fallback : List MessageEnvelope := []
  falling : List MessageEnvelope := []
  gathered : List (List MessageEnvelope) := []
  accepted : List MessageEnvelope := []
  returned : List MessageEnvelope := []

/-- A send asks the primary, and may come back to the fallback any time later; a receive asks the
primary, and the fallback any time later. -/
inductive HybridLabel where
  | send (envelope : MessageEnvelope) (call : Carriage)
  | fallBack (index : ℕ) (call : Carriage)
  | receive (recipientId : String) (call : Carriage)
  | merge (index : ℕ) (recipientId : String) (call : Carriage)

/-- The label is a receive whose carrier keeps nothing of what it hands out. -/
def HybridLabel.Removes : HybridLabel → Prop
  | .send _ _ | .fallBack _ _ => False
  | .receive _ call | .merge _ _ call => ∀ i, call.picks i ≠ .copy

namespace HybridRun

open HybridTransport

def step (s : HybridRun) : HybridLabel → HybridRun
  | .send envelope call =>
    match trySend (carrier call) envelope s.primary with
    | (none, p) => { s with primary := p, accepted := message envelope :: s.accepted }
    | (some meshEnvelope, p) => { s with primary := p, falling := s.falling ++ [meshEnvelope] }
  | .fallBack index call =>
    match s.falling[index]? with
    | none => s
    | some meshEnvelope =>
      let sent := (carrier call).send meshEnvelope s.fallback
      { s with
        fallback := sent.2
        falling := s.falling.eraseIdx index
        accepted := if sent.1.isOk then message meshEnvelope :: s.accepted else s.accepted }
  | .receive recipientId call =>
    let combined := (carrier call).receive recipientId s.primary
    { s with primary := combined.2, gathered := s.gathered ++ [received combined.1] }
  | .merge index recipientId call =>
    match s.gathered[index]? with
    | none => s
    | some combined =>
      let fromMesh := (carrier call).receive recipientId s.fallback
      { s with
        fallback := fromMesh.2
        gathered := s.gathered.eraseIdx index
        returned := s.returned ++ (combined ++ received fromMesh.1).map message }

lemma trySend_carrier (call : Carriage) (envelope : MessageEnvelope)
    (pending : List MessageEnvelope) :
    trySend (carrier call) envelope pending =
      (if call.result.isOk then none else some (message envelope),
        List.replicate call.stores envelope ++ pending) := by
  unfold trySend carrier
  cases call.result with
  | ok _ => rfl
  | error e => rfl

/-- A send that nothing comes between is a call of `HybridTransport::send`. -/
theorem run_send (s : HybridRun) (h : s.falling = []) (envelope : MessageEnvelope)
    (call call' : Carriage) :
    let sent := HybridTransport.send (carrier call) (carrier call') envelope (s.primary, s.fallback)
    Machine.run step s [.send envelope call, .fallBack 0 call'] =
      { s with
        primary := sent.2.1
        fallback := sent.2.2
        accepted := if sent.1.isOk then message envelope :: s.accepted else s.accepted } := by
  simp only [Machine.run_cons, Machine.run_nil, HybridTransport.send, step, trySend_carrier]
  by_cases hok : call.result.isOk = true
  · simp only [hok, if_true, h, List.getElem?_nil]
    rfl
  · simp only [hok, if_false, h, List.nil_append, List.getElem?_cons_zero,
      List.eraseIdx_cons_zero, Bool.false_eq_true, message_message]

/-- A receive that nothing comes between is a call of `HybridTransport::receive`. -/
theorem run_receive (s : HybridRun) (h : s.gathered = []) (recipientId : String)
    (call call' : Carriage) :
    let combined :=
      HybridTransport.receive (carrier call) (carrier call') recipientId (s.primary, s.fallback)
    Machine.run step s [.receive recipientId call, .merge 0 recipientId call'] =
      { s with
        primary := combined.2.1
        fallback := combined.2.2
        returned := s.returned ++ (received combined.1).map message } := by
  simp only [Machine.run_cons, Machine.run_nil, HybridTransport.receive, step, h, List.nil_append,
    List.getElem?_cons_zero, List.eraseIdx_cons_zero, received]

/-- A message whose send returned `Ok` was returned at most once. -/
def AtMostOnce (s : HybridRun) : Prop := ∀ m ∈ s.accepted, s.returned.count m ≤ 1

instance (s : HybridRun) : Decidable s.AtMostOnce :=
  inferInstanceAs (Decidable (∀ m ∈ s.accepted, s.returned.count m ≤ 1))

/-- The copies of a message: pending on a carrier, in a receive under way, or returned. -/
def copies (s : HybridRun) (m : MessageEnvelope) : ℕ :=
  (s.primary.map message).count m + (s.fallback.map message).count m +
    (s.gathered.flatten.map message).count m + s.returned.count m

/-- What a call adds for a message. -/
def added (call : Carriage) (envelope m : MessageEnvelope) : ℕ :=
  if message envelope = m then call.stores else 0

lemma count_send (call : Carriage) (envelope m : MessageEnvelope) (pending : List MessageEnvelope) :
    (((carrier call).send envelope pending).2.map message).count m =
      (pending.map message).count m + added call envelope m := by
  unfold added carrier
  simp only [List.map_append, List.map_replicate, List.count_append, List.count_replicate,
    beq_iff_eq]
  exact Nat.add_comm _ _

/-- What a carrier hands out it holds no longer, unless it keeps it. -/
lemma count_receive_le (call : Carriage) (recipientId : String) (m : MessageEnvelope)
    (pending : List MessageEnvelope) :
    ((received ((carrier call).receive recipientId pending).1).map message).count m +
      (((carrier call).receive recipientId pending).2.map message).count m ≤
        (pending.map message).count m + ((call.kept pending).map message).count m := by
  have hperm := ((handOut_perm call.picks pending).map message).count_eq m
  have hleft := (((left_sublist call.picks pending).map message).count_le m)
  rw [List.map_append, List.map_append, List.count_append, List.count_append] at hperm
  unfold carrier Carriage.kept
  cases call.result with
  | error e =>
    simp only [received, Except.map, List.map_nil, List.count_nil]
    omega
  | ok _ =>
    simp only [received, Except.map, Except.isOk, Except.toBool, if_true]
    omega

/-- A message that is kept is handed out. -/
lemma le_count_receive (call : Carriage) (recipientId : String) {m : MessageEnvelope}
    {pending : List MessageEnvelope} (hm : m ∈ (call.kept pending).map message) :
    2 ≤ ((received ((carrier call).receive recipientId pending).1).map message).count m +
      (((carrier call).receive recipientId pending).2.map message).count m := by
  have hperm := ((handOut_perm call.picks pending).map message).count_eq m
  have hcopied := (((copied_sublist call.picks pending).map message).count_le m)
  rw [List.map_append, List.map_append, List.count_append, List.count_append] at hperm
  unfold Carriage.kept at hm
  unfold carrier
  cases hresult : call.result with
  | error e =>
    rw [hresult] at hm
    cases hm
  | ok _ =>
    rw [hresult] at hm
    have hpos := List.count_pos_iff.mpr hm
    simp only [Except.isOk, Except.toBool, if_true] at hpos
    simp only [received, Except.map]
    omega

lemma count_flatten_eraseIdx {gathered : List (List MessageEnvelope)} {index : ℕ}
    {combined : List MessageEnvelope} (h : gathered[index]? = some combined)
    (m : MessageEnvelope) :
    ((gathered.eraseIdx index).flatten.map message).count m + (combined.map message).count m =
      (gathered.flatten.map message).count m := by
  induction gathered generalizing index with
  | nil => cases h
  | cons g gathered ih =>
    match index with
    | 0 =>
      obtain rfl : g = combined := by simpa using h
      simp only [List.eraseIdx_cons_zero, List.flatten_cons, List.map_append, List.count_append]
      omega
    | index + 1 =>
      have := ih (by simpa using h)
      simp only [List.eraseIdx_cons_succ, List.flatten_cons, List.map_append, List.count_append]
      omega

lemma copies_send (s : HybridRun) (envelope : MessageEnvelope) (call : Carriage)
    (m : MessageEnvelope) :
    (s.step (.send envelope call)).copies m = s.copies m + added call envelope m := by
  have hcount := count_send call envelope m s.primary
  unfold copies
  rw [step, trySend_carrier]
  unfold carrier at hcount
  dsimp only at hcount
  by_cases hok : call.result.isOk = true
  · rw [if_pos hok]
    dsimp only
    omega
  · rw [if_neg hok]
    dsimp only
    omega

lemma copies_fallBack (s : HybridRun) {index : ℕ} {meshEnvelope : MessageEnvelope}
    (h : s.falling[index]? = some meshEnvelope) (call : Carriage) (m : MessageEnvelope) :
    (s.step (.fallBack index call)).copies m = s.copies m + added call meshEnvelope m := by
  have hcount := count_send call meshEnvelope m s.fallback
  unfold copies
  rw [step, h]
  dsimp only
  omega

lemma copies_receive_le (s : HybridRun) (recipientId : String) (call : Carriage)
    (m : MessageEnvelope) : (s.step (.receive recipientId call)).copies m ≤
      s.copies m + ((call.kept s.primary).map message).count m := by
  have hcount := count_receive_le call recipientId m s.primary
  unfold copies
  simp only [step, List.flatten_append, List.flatten_cons, List.flatten_nil, List.append_nil,
    List.map_append, List.count_append]
  omega

lemma le_copies_receive (s : HybridRun) (recipientId : String) (call : Carriage)
    {m : MessageEnvelope} (hm : m ∈ (call.kept s.primary).map message) :
    2 ≤ (s.step (.receive recipientId call)).copies m := by
  have hcount := le_count_receive call recipientId hm
  unfold copies
  simp only [step, List.flatten_append, List.flatten_cons, List.flatten_nil, List.append_nil,
    List.map_append, List.count_append]
  omega

lemma copies_merge_le (s : HybridRun) {index : ℕ} {combined : List MessageEnvelope}
    (h : s.gathered[index]? = some combined) (recipientId : String) (call : Carriage)
    (m : MessageEnvelope) : (s.step (.merge index recipientId call)).copies m ≤
      s.copies m + ((call.kept s.fallback).map message).count m := by
  have hcount := count_receive_le call recipientId m s.fallback
  have hgathered := count_flatten_eraseIdx h m
  unfold copies
  rw [step, h]
  simp only [List.map_append, List.count_append]
  omega

lemma le_copies_merge (s : HybridRun) {index : ℕ} {combined : List MessageEnvelope}
    (h : s.gathered[index]? = some combined) (recipientId : String) (call : Carriage)
    {m : MessageEnvelope} (hm : m ∈ (call.kept s.fallback).map message) :
    2 ≤ (s.step (.merge index recipientId call)).copies m := by
  have hcount := le_count_receive call recipientId hm
  unfold copies
  rw [step, h]
  simp only [List.map_append, List.count_append]
  omega

/-- A message whose send returned `Ok` has one copy at most. -/
def OneCopy (s : HybridRun) : Prop := ∀ m ∈ s.accepted, s.copies m ≤ 1

/-- A call that stores a message leaves one copy of it at most, if the send is reported or was
reported `Ok`, and a call that hands one out does not keep it. -/
def Keeps (s : HybridRun) : HybridLabel → Prop
  | .send envelope call =>
    call.result.isOk = true ∨ message envelope ∈ s.accepted →
      s.copies (message envelope) + added call envelope (message envelope) ≤ 1
  | .fallBack index call =>
    ∀ meshEnvelope ∈ s.falling[index]?,
      call.result.isOk = true ∨ message meshEnvelope ∈ s.accepted →
        s.copies (message meshEnvelope) + added call meshEnvelope (message meshEnvelope) ≤ 1
  | .receive _ call => ∀ m ∈ (call.kept s.primary).map message, m ∉ s.accepted
  | .merge index _ call =>
    s.gathered[index]?.isSome → ∀ m ∈ (call.kept s.fallback).map message, m ∉ s.accepted

lemma added_of_ne {call : Carriage} {envelope m : MessageEnvelope} (h : message envelope ≠ m) :
    added call envelope m = 0 := if_neg h

lemma accepted_send (s : HybridRun) (envelope : MessageEnvelope) (call : Carriage) :
    (s.step (.send envelope call)).accepted =
      if call.result.isOk then message envelope :: s.accepted else s.accepted := by
  rw [step, trySend_carrier]
  by_cases hok : call.result.isOk = true
  · rw [if_pos hok, if_pos hok]
  · rw [if_neg hok, if_neg hok]

/-- What a call of `send` does to the messages that have one copy at most: it matters only for
its own. -/
lemma oneCopy_of_added {s s' : HybridRun} {envelope : MessageEnvelope} {call : Carriage}
    (hcopies : ∀ m, s'.copies m = s.copies m + added call envelope m)
    (haccepted : s'.accepted =
      if call.result.isOk then message envelope :: s.accepted else s.accepted)
    (hs : s.OneCopy) :
    s'.OneCopy ↔ (call.result.isOk = true ∨ message envelope ∈ s.accepted →
      s.copies (message envelope) + added call envelope (message envelope) ≤ 1) := by
  have hmem : ∀ m, m ∈ s'.accepted ↔
      (call.result.isOk = true ∧ m = message envelope) ∨ m ∈ s.accepted := by
    intro m
    rw [haccepted]
    split
    · rename_i hok
      simp [hok]
    · rename_i hok
      simp [hok]
  constructor
  · intro h hm
    rw [← hcopies]
    apply h
    rw [hmem]
    exact hm.imp_left fun hok => ⟨hok, rfl⟩
  · intro h m hm
    rw [hcopies]
    rw [hmem] at hm
    by_cases heq : message envelope = m
    · rw [← heq]
      apply h
      rcases hm with ⟨hok, -⟩ | hm
      · exact Or.inl hok
      · exact Or.inr (heq ▸ hm)
    · rw [added_of_ne heq]
      rcases hm with ⟨-, hm⟩ | hm
      · exact absurd hm.symm heq
      · exact hs m hm

/-- What a call of `receive` does to them: it matters only for what it keeps. -/
lemma oneCopy_of_kept {s s' : HybridRun} {kept : List MessageEnvelope}
    (hle : ∀ m, s'.copies m ≤ s.copies m + kept.count m) (htwo : ∀ m ∈ kept, 2 ≤ s'.copies m)
    (haccepted : s'.accepted = s.accepted) (hs : s.OneCopy) :
    s'.OneCopy ↔ ∀ m ∈ kept, m ∉ s.accepted := by
  constructor
  · intro h m hm hmem
    have hone := h m (haccepted ▸ hmem)
    have := htwo m hm
    omega
  · intro h m hmem
    rw [haccepted] at hmem
    have hnone : kept.count m = 0 := List.count_eq_zero.mpr fun hm => h m hm hmem
    have hbefore := hs m hmem
    have := hle m
    omega

lemma oneCopy_step (s : HybridRun) (label : HybridLabel) (hs : s.OneCopy) :
    (s.step label).OneCopy ↔ s.Keeps label := by
  cases label with
  | send envelope call =>
    exact oneCopy_of_added (copies_send s envelope call) (accepted_send s envelope call) hs
  | fallBack index call =>
    cases h : s.falling[index]? with
    | none =>
      simp only [step, Keeps, h]
      exact iff_of_true hs (fun _ => nofun)
    | some meshEnvelope =>
      have haccepted : (s.step (.fallBack index call)).accepted =
          if call.result.isOk then message meshEnvelope :: s.accepted else s.accepted := by
        rw [step, h]
        rfl
      rw [oneCopy_of_added (copies_fallBack s h call) haccepted hs, Keeps, h]
      simp only [Option.mem_def, Option.some.injEq, forall_eq']
  | receive recipientId call =>
    exact oneCopy_of_kept (copies_receive_le s recipientId call)
      (fun _ => le_copies_receive s recipientId call) rfl hs
  | merge index recipientId call =>
    cases h : s.gathered[index]? with
    | none =>
      simp only [step, Keeps, h]
      exact iff_of_true hs nofun
    | some combined =>
      have haccepted : (s.step (.merge index recipientId call)).accepted = s.accepted := by
        rw [step, h]
      rw [oneCopy_of_kept (copies_merge_le s h recipientId call)
        (fun _ => le_copies_merge s h recipientId call) haccepted hs, Keeps, h]
      exact ⟨fun hkept _ => hkept, fun hkept => hkept rfl⟩

/-! ### What receives can still bring out -/

/-- Whatever receives follow that remove what they hand out, no message whose send returned `Ok`
is returned twice. -/
def NeverTwice (s : HybridRun) : Prop :=
  ∀ receives : List HybridLabel, (∀ label ∈ receives, label.Removes) →
    (Machine.run step s receives).AtMostOnce

lemma AtMostOnce.of_oneCopy {s : HybridRun} (hs : s.OneCopy) : s.AtMostOnce := by
  intro m hm
  have := hs m hm
  unfold copies at this
  omega

lemma kept_eq_nil {call : Carriage} (h : ∀ i, call.picks i ≠ .copy)
    (pending : List MessageEnvelope) : call.kept pending = [] := by
  unfold Carriage.kept
  rw [copied_eq_nil h, ite_self]

lemma keeps_of_removes (s : HybridRun) {label : HybridLabel} (h : label.Removes) :
    s.Keeps label := by
  cases label with
  | send envelope call => exact absurd h not_false
  | fallBack index call => exact absurd h not_false
  | receive recipientId call =>
    rw [Keeps, kept_eq_nil h]
    exact nofun
  | merge index recipientId call =>
    rw [Keeps, kept_eq_nil h]
    exact fun _ => nofun

lemma accepted_of_removes (s : HybridRun) {label : HybridLabel} (h : label.Removes) :
    (s.step label).accepted = s.accepted := by
  cases label with
  | send envelope call => exact absurd h not_false
  | fallBack index call => exact absurd h not_false
  | receive recipientId call => rfl
  | merge index recipientId call =>
    rw [step]
    split <;> rfl

lemma accepted_receives (s : HybridRun) {receives : List HybridLabel}
    (h : ∀ label ∈ receives, label.Removes) :
    (Machine.run step s receives).accepted = s.accepted := by
  induction receives generalizing s with
  | nil => rfl
  | cons label receives ih =>
    rw [List.forall_mem_cons] at h
    rw [Machine.run_cons, ih _ h.2, accepted_of_removes s h.1]

def everything : Carriage := ⟨0, fun _ => .take, .ok ()⟩

lemma step_receive_everything (s : HybridRun) :
    s.step (.receive "" everything) =
      { s with primary := [], gathered := s.gathered ++ [s.primary] } := by
  rw [step]
  simp only [carrier, everything, handOut_all, received, Except.map]

lemma step_merge_everything (s : HybridRun) {combined : List MessageEnvelope}
    {gathered : List (List MessageEnvelope)} (h : s.gathered = combined :: gathered) :
    s.step (.merge 0 "" everything) =
      { s with
        fallback := []
        gathered := gathered
        returned := s.returned ++ (combined ++ s.fallback).map message } := by
  rw [step, h]
  simp only [carrier, everything, handOut_all, received, Except.map, List.getElem?_cons_zero,
    List.eraseIdx_cons_zero]

/-- Ending every receive under way brings out all that they hold and all that the fallback holds. -/
lemma returned_merges (s : HybridRun) (m : MessageEnvelope) (hne : s.gathered ≠ []) :
    (Machine.run step s (List.replicate s.gathered.length (.merge 0 "" everything))).returned.count
        m = (s.fallback.map message).count m + (s.gathered.flatten.map message).count m +
      s.returned.count m := by
  obtain ⟨gathered, hgathered⟩ : ∃ gathered, s.gathered = gathered := ⟨_, rfl⟩
  rw [hgathered] at hne ⊢
  induction gathered generalizing s with
  | nil => exact absurd rfl hne
  | cons combined gathered ih =>
    rw [List.length_cons, List.replicate_succ, Machine.run_cons, step_merge_everything s hgathered]
    match gathered with
    | [] =>
      simp only [List.length_nil, List.replicate_zero, Machine.run_nil, List.count_append,
        List.map_append, List.flatten_cons, List.flatten_nil, List.append_nil]
      omega
    | next :: gathered =>
      rw [ih _ (by simp) rfl]
      simp only [List.count_append, List.map_append, List.map_nil, List.count_nil,
        List.flatten_cons]
      omega

theorem neverTwice_iff (s : HybridRun) : s.NeverTwice ↔ s.OneCopy := by
  constructor
  · intro h m hm
    let s' := s.step (.receive "" everything)
    have hs' : s' = { s with primary := [], gathered := s.gathered ++ [s.primary] } :=
      step_receive_everything s
    let receives : List HybridLabel :=
      .receive "" everything :: List.replicate s'.gathered.length (.merge 0 "" everything)
    have hreceives : ∀ label ∈ receives, label.Removes := by
      intro label hl
      rcases List.mem_cons.mp hl with rfl | hl
      · exact fun _ => Pick.noConfusion
      · rw [List.eq_of_mem_replicate hl]
        exact fun _ => Pick.noConfusion
    have hall := h receives hreceives m (by rwa [accepted_receives s hreceives])
    have hcount := returned_merges s' m (by rw [hs']; simp)
    change (Machine.run step s' _).returned.count m ≤ 1 at hall
    rw [hcount, hs'] at hall
    simp only [List.flatten_append, List.flatten_cons, List.flatten_nil, List.append_nil,
      List.map_append, List.count_append] at hall
    unfold copies
    omega
  · intro hs receives hreceives
    apply AtMostOnce.of_oneCopy
    have hstates := Machine.everyState_of_everyStep
      (fun t label ht hl => (oneCopy_step t label ht).mpr (keeps_of_removes t hl)) hs
      (Machine.everyStep_of_forall_mem s hreceives)
    exact hstates.last

/-- In every state of a run no message was returned twice, or will be by receives that remove what
they hand out, exactly when every call that stores a message keeps its copies down to one and every
call that hands one out removes it. -/
theorem everyState_neverTwice_iff (labels : List HybridLabel) :
    Machine.EveryState step NeverTwice {} labels ↔ Machine.EveryStep step Keeps {} labels := by
  have hstart : ({} : HybridRun).OneCopy := fun _ => nofun
  rw [← @Machine.everyState_iff_everyStep _ _ step (fun _ => True) (fun _ _ h => h) OneCopy _
    (fun s label _ hs => oneCopy_step s label hs) _ trivial hstart labels]
  constructor
  · exact fun h => h.mono fun s hs => (neverTwice_iff s).mp hs
  · exact fun h => h.mono fun s hs => (neverTwice_iff s).mpr hs

/-- A message of one byte. -/
def sampleEnvelope : MessageEnvelope where
  senderId := ""
  recipientId := "bob"
  ciphertext := [7]
  envelopeType := .sealedSender
  timestampMs := 0
  sealedSender := true

/-- The primary stores the envelope and its answer is lost, so the message goes over the fallback
too, and the next receive returns it twice. -/
theorem not_atMostOnce_lostAnswer :
    ¬(Machine.run step {}
      [.send sampleEnvelope ⟨1, fun _ => .leave, .error (.transport "connection reset")⟩,
        .fallBack 0 ⟨1, fun _ => .leave, .ok ()⟩, .receive "bob" everything,
        .merge 0 "bob" everything]).AtMostOnce := by
  decide

end HybridRun

end Mesh

end Parda
