import Mathlib.Data.List.Nodup
import Mathlib.Data.Multiset.Bind
import Mathlib.Logic.Function.Basic
import Parda.Lib.Table

/-!
# One-shot answers

Calls that are answered from elsewhere. A call draws an id that no call has had and leaves a sender
under it, and whoever holds the id may answer. The first answer uses the sender up and is kept for
the call until it is run again. A call that is abandoned leaves its sender behind.
-/

namespace Oneshots

/-- A call that has not returned, with the answer that is kept for it. -/
structure Waiting (κ ρ : Type*) where
  id : ℕ
  request : κ
  answer : Option ρ := none
deriving DecidableEq

/-- The calls and their senders, with the history of both: what each id was drawn for, the answers
that were given, and which of them a call took and which no call will. -/
structure Registry (κ ρ : Type*) where
  nextId : ℕ := 1
  senders : List ℕ := []
  waiting : List (Waiting κ ρ) := []
  request : ℕ → Option κ := fun _ => none
  answers : List (ℕ × ρ) := []
  taken : List (ℕ × κ × ρ) := []
  unclaimed : List (ℕ × ρ) := []

variable {κ ρ : Type*}

def Waiting.kept (w : Waiting κ ρ) : List (ℕ × ρ) := (w.answer.map fun r => (w.id, r)).toList

/-- What the answer that is kept brings, where an answer to a request brings `f`. -/
def Waiting.worth {β : Type*} (f : κ → ρ → List β) (w : Waiting κ ρ) : List β :=
  (w.answer.map fun r => f w.request r).getD []

/-- The first answer to an id. -/
def first (answers : List (ℕ × ρ)) (id : ℕ) : Option ρ :=
  (answers.find? fun e => e.1 = id).map Prod.snd

lemma first_append (answers : List (ℕ × ρ)) (e : ℕ × ρ) (id : ℕ) :
    first (answers ++ [e]) id = (first answers id).or (if e.1 = id then some e.2 else none) := by
  unfold first
  rw [List.find?_append]
  cases answers.find? fun e => e.1 = id with
  | some a => rfl
  | none =>
    by_cases h : e.1 = id
    · simp [h]
    · simp [h]

lemma mem_of_first {answers : List (ℕ × ρ)} {id : ℕ} {r : ρ} (h : first answers id = some r) :
    (id, r) ∈ answers := by
  obtain ⟨e, hfind, rfl⟩ := Option.map_eq_some_iff.mp h
  have hid : e.1 = id := by simpa using List.find?_some hfind
  rw [← hid]
  exact List.mem_of_find?_eq_some hfind

namespace Registry

/-- An id for another purpose. -/
def drawId (s : Registry κ ρ) : Registry κ ρ := { s with nextId := s.nextId + 1 }

def register (s : Registry κ ρ) (k : κ) : Registry κ ρ :=
  { s with
    nextId := s.nextId + 1
    senders := s.nextId :: s.senders
    waiting := ⟨s.nextId, k, none⟩ :: s.waiting
    request := Function.update s.request s.nextId (some k) }

def find? (s : Registry κ ρ) (id : ℕ) : Option (Waiting κ ρ) := s.waiting.find? fun w => w.id = id

/-- An answer to an id. Nobody takes it when its sender is used up or its call is gone. -/
def resolve (s : Registry κ ρ) (id : ℕ) (r : ρ) : Registry κ ρ :=
  match if id ∈ s.senders then s.find? id else none with
  | some w =>
    { s with
      senders := s.senders.erase id
      waiting := Table.upsert Waiting.id s.waiting { w with answer := some r }
      answers := s.answers ++ [(id, r)] }
  | none =>
    { s with
      senders := s.senders.erase id
      answers := s.answers ++ [(id, r)]
      unclaimed := s.unclaimed ++ [(id, r)] }

/-- A call that is run again returns with its answer, if it has one. -/
def take (s : Registry κ ρ) (id : ℕ) : Registry κ ρ :=
  match s.find? id with
  | some ⟨_, k, some r⟩ =>
    { s with
      waiting := Table.deleteKey Waiting.id s.waiting id
      taken := s.taken ++ [(id, k, r)] }
  | _ => s

/-- The call is gone, and its answer with it. -/
def abandon (s : Registry κ ρ) (id : ℕ) : Registry κ ρ :=
  match s.find? id with
  | some w =>
    { s with
      waiting := Table.deleteKey Waiting.id s.waiting id
      unclaimed := s.unclaimed ++ w.kept }
  | none => s

/-- The next answer to the id is kept for its call. -/
def Awaits (s : Registry κ ρ) (id : ℕ) : Prop := id ∈ s.senders ∧ (s.find? id).isSome

instance (s : Registry κ ρ) (id : ℕ) : Decidable (s.Awaits id) := inferInstanceAs (Decidable (_ ∧ _))

/-- The answers that are kept for calls. -/
def held (s : Registry κ ρ) : Multiset (ℕ × ρ) := Table.items Waiting.kept s.waiting

/-- Answers suit what their id was drawn for, a call that returns does so once and with the first
answer to its id, and every answer is at one place. -/
structure Inv (Suits : κ → ρ → Prop) (s : Registry κ ρ) : Prop where
  drawn : ∀ id, s.nextId ≤ id → s.request id = none
  distinct : Table.KeysDistinct Waiting.id s.waiting
  requested : ∀ w ∈ s.waiting, s.request w.id = some w.request
  senders_nodup : s.senders.Nodup
  sender : ∀ id ∈ s.senders, s.request id ≠ none ∧ first s.answers id = none
  sender_iff : ∀ w ∈ s.waiting, w.id ∈ s.senders ↔ w.answer = none
  kept : ∀ w ∈ s.waiting, w.answer = first s.answers w.id
  taken : ∀ e ∈ s.taken, s.request e.1 = some e.2.1 ∧ first s.answers e.1 = some e.2.2
  taken_once : (s.taken.map Prod.fst).Nodup
  gone : ∀ e ∈ s.taken, ∀ w ∈ s.waiting, w.id ≠ e.1
  suited : ∀ e ∈ s.answers, ∃ k, s.request e.1 = some k ∧ Suits k e.2
  balanced : (s.answers : Multiset (ℕ × ρ)) =
    (s.taken.map fun e => (e.1, e.2.2) : List (ℕ × ρ)) + s.held + s.unclaimed

section Operations

variable {Suits : κ → ρ → Prop} {s : Registry κ ρ} {id : ℕ} {k : κ} {r : ρ}

lemma inv_start : Inv Suits ({} : Registry κ ρ) where
  drawn _ _ := rfl
  distinct := List.nodup_nil
  requested _ h := nomatch h
  senders_nodup := List.nodup_nil
  sender _ h := nomatch h
  sender_iff _ h := nomatch h
  kept _ h := nomatch h
  taken _ h := nomatch h
  taken_once := List.nodup_nil
  gone _ h := nomatch h
  suited _ h := nomatch h
  balanced := rfl

lemma mem_of_find? {w : Waiting κ ρ} (h : s.find? id = some w) : w ∈ s.waiting ∧ w.id = id :=
  ⟨List.mem_of_find?_eq_some h, by simpa using List.find?_some h⟩

/-- An answer that was taken suits the request of the call that took it. -/
lemma Inv.suits_of_taken (h : Inv Suits s) {e : ℕ × κ × ρ} (he : e ∈ s.taken) :
    Suits e.2.1 e.2.2 := by
  obtain ⟨hrequest, hfirst⟩ := h.taken e he
  obtain ⟨k, hk, hsuits⟩ := h.suited _ (mem_of_first hfirst)
  obtain rfl := Option.some.inj (hrequest.symm.trans hk)
  exact hsuits

lemma Inv.lt_nextId (h : Inv Suits s) (hid : s.request id ≠ none) : id < s.nextId := by
  by_contra hle
  exact hid (h.drawn id (not_lt.mp hle))

lemma Inv.drawId (h : Inv Suits s) : Inv Suits s.drawId :=
  { h with drawn := fun id hid => h.drawn id (Nat.le_of_succ_le hid) }

lemma request_register_of_ne (hid : id ≠ s.nextId) : (s.register k).request id = s.request id :=
  Function.update_of_ne hid _ _

@[simp] lemma request_register_self : (s.register k).request s.nextId = some k :=
  Function.update_self _ _ _

lemma Inv.request_register (h : Inv Suits s) (hid : s.request id ≠ none) :
    (s.register k).request id = s.request id :=
  request_register_of_ne (h.lt_nextId hid).ne

/-- Nobody has answered an id that was not drawn. -/
lemma Inv.first_nextId (h : Inv Suits s) : first s.answers s.nextId = none := by
  rw [Option.eq_none_iff_forall_ne_some]
  intro r hr
  obtain ⟨k, hk, -⟩ := h.suited _ (mem_of_first hr)
  rw [h.drawn _ le_rfl] at hk
  cases hk

lemma Inv.ne_nextId (h : Inv Suits s) {w : Waiting κ ρ} (hw : w ∈ s.waiting) :
    w.id ≠ s.nextId := by
  intro heq
  have hrequest := h.requested w hw
  rw [heq, h.drawn _ le_rfl] at hrequest
  cases hrequest

lemma Inv.register (h : Inv Suits s) : Inv Suits (s.register k) where
  drawn id hid := by
    have hne : id ≠ s.nextId := fun heq => absurd hid (by simp [heq, Registry.register])
    rw [request_register_of_ne hne]
    exact h.drawn id (Nat.le_of_succ_le hid)
  distinct := by
    refine List.nodup_cons.mpr ⟨fun hmem => ?_, h.distinct⟩
    obtain ⟨w, hw, heq⟩ := List.mem_map.mp hmem
    exact h.ne_nextId hw heq
  requested w hw := by
    rcases List.mem_cons.mp hw with rfl | hw
    · exact request_register_self
    · rw [request_register_of_ne (h.ne_nextId hw)]
      exact h.requested w hw
  senders_nodup := by
    refine List.nodup_cons.mpr ⟨fun hmem => ?_, h.senders_nodup⟩
    exact (h.sender _ hmem).1 (h.drawn _ le_rfl)
  sender id hid := by
    rcases List.mem_cons.mp hid with rfl | hid
    · rw [request_register_self]
      exact ⟨Option.some_ne_none k, h.first_nextId⟩
    · rw [h.request_register (h.sender id hid).1]
      exact h.sender id hid
  sender_iff w hw := by
    rcases List.mem_cons.mp hw with rfl | hw
    · exact iff_of_true List.mem_cons_self rfl
    · rw [← h.sender_iff w hw]
      exact List.mem_cons.trans (or_iff_right (h.ne_nextId hw))
  kept w hw := by
    rcases List.mem_cons.mp hw with rfl | hw
    · exact h.first_nextId.symm
    · exact h.kept w hw
  taken e he := by
    have hrequest := (h.taken e he).1
    rw [h.request_register (by rw [hrequest]; exact Option.some_ne_none _)]
    exact h.taken e he
  taken_once := h.taken_once
  gone e he w hw := by
    rcases List.mem_cons.mp hw with rfl | hw
    · intro heq
      have hrequest := (h.taken e he).1
      rw [← heq, h.drawn _ le_rfl] at hrequest
      cases hrequest
    · exact h.gone e he w hw
  suited e he := by
    obtain ⟨k', hk', hsuits⟩ := h.suited e he
    refine ⟨k', ?_, hsuits⟩
    rw [h.request_register (by rw [hk']; exact Option.some_ne_none _)]
    exact hk'
  balanced := by
    have hheld : (s.register k).held = s.held := by
      unfold held Registry.register
      rw [Table.items_cons]
      exact zero_add _
    rw [hheld]
    exact h.balanced

/-- The answers kept for calls other than that of the id. -/
lemma Inv.held_eq (h : Inv Suits s) {w : Waiting κ ρ} (hfind : s.find? id = some w) :
    s.held = w.kept + Table.items Waiting.kept (Table.deleteKey Waiting.id s.waiting id) := by
  unfold held
  rw [Table.items_deleteKey h.distinct id]
  congr 2
  unfold Table.contentAt
  rw [show s.waiting.find? (fun w => w.id = id) = some w from hfind]
  rfl

lemma resolve_of_awaits {w : Waiting κ ρ} (hmem : id ∈ s.senders) (hfind : s.find? id = some w) :
    s.resolve id r =
      { s with
        senders := s.senders.erase id
        waiting := Table.upsert Waiting.id s.waiting { w with answer := some r }
        answers := s.answers ++ [(id, r)] } := by
  unfold resolve
  rw [if_pos hmem, hfind]

lemma resolve_of_not_awaits (h : ¬s.Awaits id) :
    s.resolve id r =
      { s with
        senders := s.senders.erase id
        answers := s.answers ++ [(id, r)]
        unclaimed := s.unclaimed ++ [(id, r)] } := by
  have hnone : (if id ∈ s.senders then s.find? id else none) = none := by
    split
    · rename_i hmem
      by_contra hne
      exact h ⟨hmem, Option.isSome_iff_ne_none.mpr hne⟩
    · rfl
  unfold resolve
  rw [hnone]

/-- The first answer to other ids, and to an id that was answered, stays. -/
lemma first_append_of_some {id' : ℕ} {r' : ρ} (h : first s.answers id' = some r') :
    first (s.answers ++ [(id, r)]) id' = some r' := by
  rw [first_append, h]
  rfl

lemma first_append_of_ne {id' : ℕ} (h : id' ≠ id) :
    first (s.answers ++ [(id, r)]) id' = first s.answers id' := by
  rw [first_append, if_neg (fun heq => h heq.symm), Option.or_none]

lemma Inv.sender_resolve (h : Inv Suits s) {id' : ℕ} (hid : id' ∈ s.senders.erase id) :
    s.request id' ≠ none ∧ first (s.answers ++ [(id, r)]) id' = none := by
  obtain ⟨hne, hmem⟩ := (List.Nodup.mem_erase_iff h.senders_nodup).mp hid
  rw [first_append_of_ne hne]
  exact h.sender id' hmem

lemma Inv.suited_resolve (h : Inv Suits s) (hk : s.request id = some k) (hr : Suits k r) :
    ∀ e ∈ s.answers ++ [(id, r)], ∃ k, s.request e.1 = some k ∧ Suits k e.2 := by
  intro e he
  rcases List.mem_append.mp he with he | he
  · exact h.suited e he
  · obtain rfl := List.mem_singleton.mp he
    exact ⟨k, hk, hr⟩

lemma Inv.taken_resolve (h : Inv Suits s) :
    ∀ e ∈ s.taken, s.request e.1 = some e.2.1 ∧
      first (s.answers ++ [(id, r)]) e.1 = some e.2.2 :=
  fun e he => ⟨(h.taken e he).1, first_append_of_some (h.taken e he).2⟩

/-- An answer that suits what its id was drawn for. -/
lemma Inv.resolve (h : Inv Suits s) (hk : s.request id = some k) (hr : Suits k r) :
    Inv Suits (s.resolve id r) := by
  by_cases hawaits : s.Awaits id
  · obtain ⟨w, hfind⟩ := Option.isSome_iff_exists.mp hawaits.2
    obtain ⟨hw, hwid⟩ := mem_of_find? hfind
    have hnone : w.answer = none := (h.sender_iff w hw).mp (hwid ▸ hawaits.1)
    have hothers : ∀ w' ∈ Table.deleteKey Waiting.id s.waiting id, w' ∈ s.waiting ∧ w'.id ≠ id :=
      fun w' hw' => Table.mem_deleteKey.mp hw'
    rw [resolve_of_awaits hawaits.1 hfind]
    refine
      { drawn := h.drawn
        distinct := h.distinct.upsert _
        requested := ?_
        senders_nodup := h.senders_nodup.erase id
        sender := fun id' hid => h.sender_resolve hid
        sender_iff := ?_
        kept := ?_
        taken := h.taken_resolve
        taken_once := h.taken_once
        gone := ?_
        suited := h.suited_resolve hk hr
        balanced := ?_ }
    · intro w' hw'
      rcases List.mem_cons.mp hw' with rfl | hw'
      · exact h.requested w hw
      · exact h.requested w' (Table.mem_deleteKey.mp hw').1
    · intro w' hw'
      rcases List.mem_cons.mp hw' with rfl | hw'
      · refine iff_of_false (fun hmem => ?_) (Option.some_ne_none r)
        exact ((List.Nodup.mem_erase_iff h.senders_nodup).mp hmem).1 hwid
      · obtain ⟨hmem, hne⟩ := Table.mem_deleteKey.mp hw'
        rw [← h.sender_iff w' hmem, List.Nodup.mem_erase_iff h.senders_nodup]
        exact and_iff_right (fun heq => hne (heq.trans hwid.symm))
    · intro w' hw'
      rcases List.mem_cons.mp hw' with rfl | hw'
      · change some r = first (s.answers ++ [(id, r)]) w.id
        rw [first_append, ← h.kept w hw, hnone, if_pos hwid.symm]
        rfl
      · obtain ⟨hmem, hne⟩ := Table.mem_deleteKey.mp hw'
        rw [first_append_of_ne (fun heq => hne (heq.trans hwid.symm))]
        exact h.kept w' hmem
    · intro e he w' hw'
      rcases List.mem_cons.mp hw' with rfl | hw'
      · exact h.gone e he w hw
      · exact h.gone e he w' (Table.mem_deleteKey.mp hw').1
    · have hbefore := h.held_eq hfind
      have hkept : w.kept = [] := by
        unfold Waiting.kept
        rw [hnone]
        rfl
      have hafter : Table.items Waiting.kept
          (Table.upsert Waiting.id s.waiting { w with answer := some r }) =
          (id, r) ::ₘ s.held := by
        unfold Table.upsert
        rw [Table.items_cons, hbefore, hkept, hwid]
        unfold Waiting.kept
        rw [← hwid]
        exact Multiset.singleton_add _ _
      unfold held
      rw [hafter, ← Multiset.coe_add, h.balanced, Multiset.coe_singleton]
      rw [← Multiset.singleton_add]
      abel
  · rw [resolve_of_not_awaits hawaits]
    have hgone : ∀ w ∈ s.waiting, w.id ∈ s.senders → w.id ≠ id := by
      intro w hw hmem heq
      apply hawaits
      refine ⟨heq ▸ hmem, ?_⟩
      rw [find?, ← heq, h.distinct.find?_of_mem hw]
      rfl
    refine
      { drawn := h.drawn
        distinct := h.distinct
        requested := h.requested
        senders_nodup := h.senders_nodup.erase id
        sender := fun id' hid => h.sender_resolve hid
        sender_iff := ?_
        kept := ?_
        taken := h.taken_resolve
        taken_once := h.taken_once
        gone := h.gone
        suited := h.suited_resolve hk hr
        balanced := ?_ }
    · intro w hw
      rw [← h.sender_iff w hw, List.Nodup.mem_erase_iff h.senders_nodup]
      exact ⟨fun hmem => hmem.2, fun hmem => ⟨hgone w hw hmem, hmem⟩⟩
    · intro w hw
      rw [h.kept w hw]
      cases hfirst : first s.answers w.id with
      | some r' => exact (first_append_of_some hfirst).symm
      | none =>
        have hmem : w.id ∈ s.senders :=
          (h.sender_iff w hw).mpr ((h.kept w hw).trans hfirst)
        rw [first_append_of_ne (hgone w hw hmem), hfirst]
    · change ((s.answers ++ [(id, r)] : List (ℕ × ρ)) : Multiset (ℕ × ρ)) =
        _ + s.held + ((s.unclaimed ++ [(id, r)] : List (ℕ × ρ)) : Multiset (ℕ × ρ))
      rw [← Multiset.coe_add, ← Multiset.coe_add, h.balanced]
      abel

lemma take_of_answer {w : Waiting κ ρ} (hfind : s.find? id = some w) (hanswer : w.answer = some r) :
    s.take id =
      { s with
        waiting := Table.deleteKey Waiting.id s.waiting id
        taken := s.taken ++ [(id, w.request, r)] } := by
  obtain ⟨id', k, answer⟩ := w
  obtain rfl : answer = some r := hanswer
  unfold take
  rw [hfind]

lemma take_of_no_answer (h : ∀ w, s.find? id = some w → w.answer = none) : s.take id = s := by
  unfold take
  split
  · rename_i hfind
    cases h _ hfind
  · rfl

/-- What holds of the calls holds of those that are left. -/
lemma forall_mem_deleteKey {P : Waiting κ ρ → Prop} (h : ∀ w ∈ s.waiting, P w) :
    ∀ w ∈ Table.deleteKey Waiting.id s.waiting id, P w :=
  fun w hw => h w (Table.mem_deleteKey.mp hw).1

lemma Inv.take (h : Inv Suits s) : Inv Suits (s.take id) := by
  by_cases hanswer : ∀ w, s.find? id = some w → w.answer = none
  · rw [take_of_no_answer hanswer]
    exact h
  · push Not at hanswer
    obtain ⟨w, hfind, hne⟩ := hanswer
    obtain ⟨r, hr⟩ := Option.ne_none_iff_exists'.mp hne
    obtain ⟨hw, rfl⟩ := mem_of_find? hfind
    rw [take_of_answer hfind hr]
    refine
      { drawn := h.drawn
        distinct := h.distinct.filter _
        requested := forall_mem_deleteKey h.requested
        senders_nodup := h.senders_nodup
        sender := h.sender
        sender_iff := forall_mem_deleteKey h.sender_iff
        kept := forall_mem_deleteKey h.kept
        taken := ?_
        taken_once := ?_
        gone := ?_
        suited := h.suited
        balanced := ?_ }
    · intro e he
      rcases List.mem_append.mp he with he | he
      · exact h.taken e he
      · obtain rfl := List.mem_singleton.mp he
        exact ⟨h.requested w hw, (h.kept w hw).symm.trans hr⟩
    · rw [List.map_append, List.map_singleton]
      refine List.Nodup.append h.taken_once (List.nodup_singleton _) ?_
      intro id hid hmem
      obtain ⟨e, he, rfl⟩ := List.mem_map.mp hid
      exact h.gone e he w hw (List.mem_singleton.mp hmem).symm
    · intro e he w' hw'
      obtain ⟨hmem, hne'⟩ := Table.mem_deleteKey.mp hw'
      rcases List.mem_append.mp he with he | he
      · exact h.gone e he w' hmem
      · obtain rfl := List.mem_singleton.mp he
        exact hne'
    · have hkept : w.kept = [(w.id, r)] := by
        unfold Waiting.kept
        rw [hr]
        rfl
      have hheld := h.held_eq hfind
      rw [hkept] at hheld
      have hbalanced := h.balanced
      rw [hheld] at hbalanced
      rw [hbalanced, List.map_append, ← Multiset.coe_add]
      unfold held
      rw [List.map_singleton]
      abel

lemma Inv.abandon (h : Inv Suits s) : Inv Suits (s.abandon id) := by
  unfold Registry.abandon
  split
  · rename_i w hfind
    refine
      { drawn := h.drawn
        distinct := h.distinct.filter _
        requested := forall_mem_deleteKey h.requested
        senders_nodup := h.senders_nodup
        sender := h.sender
        sender_iff := forall_mem_deleteKey h.sender_iff
        kept := forall_mem_deleteKey h.kept
        taken := h.taken
        taken_once := h.taken_once
        gone := fun e he => forall_mem_deleteKey (h.gone e he)
        suited := h.suited
        balanced := ?_ }
    have hbalanced := h.balanced
    rw [h.held_eq hfind] at hbalanced
    rw [hbalanced, ← Multiset.coe_add]
    unfold held
    abel
  · exact h

/-- A condition on ids that holds of the calls holds of those that are left after an answer. -/
lemma forall_id_resolve {P : ℕ → Prop} (h : ∀ w ∈ s.waiting, P w.id) :
    ∀ w ∈ (s.resolve id r).waiting, P w.id := by
  by_cases hawaits : s.Awaits id
  · obtain ⟨w, hfind⟩ := Option.isSome_iff_exists.mp hawaits.2
    rw [resolve_of_awaits hawaits.1 hfind]
    intro w' hw'
    rcases List.mem_cons.mp hw' with rfl | hw'
    · exact h w (mem_of_find? hfind).1
    · exact h w' (Table.mem_deleteKey.mp hw').1
  · rw [resolve_of_not_awaits hawaits]
    exact h

lemma mem_waiting_take {w : Waiting κ ρ} (h : w ∈ (s.take id).waiting) : w ∈ s.waiting := by
  unfold take at h
  split at h
  · exact (Table.mem_deleteKey.mp h).1
  · exact h

lemma mem_waiting_abandon {w : Waiting κ ρ} (h : w ∈ (s.abandon id).waiting) :
    w ∈ s.waiting ∧ w.id ≠ id := by
  unfold abandon at h
  split at h
  · exact Table.mem_deleteKey.mp h
  · rename_i hnone
    refine ⟨h, fun heq => ?_⟩
    have hno := List.find?_eq_none.mp (show s.waiting.find? (fun w => w.id = id) = none from hnone)
    exact hno w h (decide_eq_true heq)

/-- A call that returns was waiting. -/
lemma mem_taken_take {e : ℕ × κ × ρ} (h : e ∈ (s.take id).taken) :
    e ∈ s.taken ∨ ∃ w ∈ s.waiting, w.id = e.1 := by
  unfold take at h
  split at h
  · rename_i w hfind
    rcases List.mem_append.mp h with h | h
    · exact Or.inl h
    · obtain rfl := List.mem_singleton.mp h
      exact Or.inr ⟨_, mem_of_find? hfind⟩
  · exact Or.inl h

lemma awaits_register_self : (s.register k).Awaits s.nextId := by
  refine ⟨List.mem_cons_self, ?_⟩
  simp [find?, register]

lemma Awaits.register (h : s.Awaits id) : (s.register k).Awaits id := by
  refine ⟨List.mem_cons_of_mem _ h.1, ?_⟩
  unfold find? Registry.register
  rw [List.find?_cons]
  split
  · rfl
  · exact h.2

lemma Awaits.resolve_of_ne {id' : ℕ} (h : s.Awaits id') (hne : id' ≠ id) :
    (s.resolve id r).Awaits id' := by
  by_cases hawaits : s.Awaits id
  · obtain ⟨w, hfind⟩ := Option.isSome_iff_exists.mp hawaits.2
    obtain ⟨-, hwid⟩ := mem_of_find? hfind
    rw [resolve_of_awaits hawaits.1 hfind]
    refine ⟨(List.mem_erase_of_ne hne).mpr h.1, ?_⟩
    unfold find?
    rw [Table.find?_upsert, if_neg (fun heq => hne (heq.symm.trans hwid))]
    exact h.2
  · rw [resolve_of_not_awaits hawaits]
    exact ⟨(List.mem_erase_of_ne hne).mpr h.1, h.2⟩

lemma Awaits.take_of_ne {id' : ℕ} (h : s.Awaits id') (hne : id' ≠ id) : (s.take id).Awaits id' := by
  unfold take
  split
  · refine ⟨h.1, ?_⟩
    unfold find?
    rw [Table.find?_deleteKey_of_ne hne]
    exact h.2
  · exact h

lemma Awaits.abandon_of_ne {id' : ℕ} (h : s.Awaits id') (hne : id' ≠ id) :
    (s.abandon id).Awaits id' := by
  unfold abandon
  split
  · refine ⟨h.1, ?_⟩
    unfold find?
    rw [Table.find?_deleteKey_of_ne hne]
    exact h.2
  · exact h

end Operations

section Worth

variable {β : Type*} (f : κ → ρ → List β) {Suits : κ → ρ → Prop} {s : Registry κ ρ} {id : ℕ}
  {k : κ} {r : ρ}

/-- What answers bring, where an answer to a request brings `f`. -/
def worth (s : Registry κ ρ) (entries : List (ℕ × ρ)) : List β :=
  entries.flatMap fun e => ((s.request e.1).map fun k => f k e.2).getD []

/-- What was brought to the calls that returned. -/
def takenWorth (s : Registry κ ρ) : List β := s.taken.flatMap fun e => f e.2.1 e.2.2

/-- What is kept for calls. -/
def heldWorth (s : Registry κ ρ) : Multiset β := Table.items (Waiting.worth f) s.waiting

variable {f}

lemma worth_append (entries entries' : List (ℕ × ρ)) :
    s.worth f (entries ++ entries') = s.worth f entries ++ s.worth f entries' :=
  List.flatMap_append

lemma worth_singleton (hk : s.request id = some k) : s.worth f [(id, r)] = f k r := by
  simp [worth, hk]

lemma worth_congr {s' : Registry κ ρ} {entries : List (ℕ × ρ)}
    (h : ∀ e ∈ entries, s'.request e.1 = s.request e.1) :
    s'.worth f entries = s.worth f entries := by
  unfold worth
  apply List.flatMap_congr
  intro e he
  rw [h e he]

/-- Everything that was brought is taken, is kept, or is lost. -/
theorem Inv.conserved (h : Inv Suits s) :
    (s.worth f s.answers : Multiset β) =
      s.takenWorth f + s.heldWorth f + s.worth f s.unclaimed := by
  have hbind : ∀ entries : List (ℕ × ρ), (s.worth f entries : Multiset β) =
      (entries : Multiset (ℕ × ρ)).bind
        fun e => ((((s.request e.1).map fun k => f k e.2).getD [] : List β) : Multiset β) :=
    fun entries => (Multiset.coe_bind _ _).symm
  have htaken : s.worth f (s.taken.map fun e => (e.1, e.2.2)) = s.takenWorth f := by
    unfold worth takenWorth
    rw [List.flatMap_map]
    apply List.flatMap_congr
    intro e he
    rw [(h.taken e he).1]
    rfl
  have hheld : (s.worth f (s.waiting.flatMap Waiting.kept) : Multiset β) = s.heldWorth f := by
    unfold worth heldWorth Table.items
    rw [List.flatMap_assoc]
    apply congrArg
    apply List.flatMap_congr
    intro w hw
    unfold Waiting.kept Waiting.worth
    cases w.answer with
    | none => rfl
    | some r => simp [h.requested w hw]
  rw [hbind, h.balanced, Multiset.add_bind, Multiset.add_bind, ← hbind, ← hbind, htaken]
  congr 2
  rw [← hheld, hbind]
  rfl

@[simp] lemma answers_register : (s.register k).answers = s.answers := rfl

@[simp] lemma unclaimed_register : (s.register k).unclaimed = s.unclaimed := rfl

@[simp] lemma request_resolve : (s.resolve id r).request = s.request := by
  unfold resolve
  split <;> rfl

@[simp] lemma nextId_resolve : (s.resolve id r).nextId = s.nextId := by
  unfold resolve
  split <;> rfl

@[simp] lemma answers_resolve : (s.resolve id r).answers = s.answers ++ [(id, r)] := by
  unfold resolve
  split <;> rfl

@[simp] lemma taken_resolve : (s.resolve id r).taken = s.taken := by
  unfold resolve
  split <;> rfl

@[simp] lemma request_take : (s.take id).request = s.request := by
  unfold take
  split <;> rfl

@[simp] lemma nextId_take : (s.take id).nextId = s.nextId := by
  unfold take
  split <;> rfl

@[simp] lemma answers_take : (s.take id).answers = s.answers := by
  unfold take
  split <;> rfl

@[simp] lemma unclaimed_take : (s.take id).unclaimed = s.unclaimed := by
  unfold take
  split <;> rfl

@[simp] lemma request_abandon : (s.abandon id).request = s.request := by
  unfold abandon
  split <;> rfl

@[simp] lemma nextId_abandon : (s.abandon id).nextId = s.nextId := by
  unfold abandon
  split <;> rfl

@[simp] lemma taken_abandon : (s.abandon id).taken = s.taken := by
  unfold abandon
  split <;> rfl

@[simp] lemma answers_abandon : (s.abandon id).answers = s.answers := by
  unfold abandon
  split <;> rfl

lemma worth_answers_resolve (hk : s.request id = some k) :
    (s.resolve id r).worth f (s.resolve id r).answers = s.worth f s.answers ++ f k r := by
  rw [answers_resolve, worth_congr fun _ _ => congrFun request_resolve _, worth_append,
    worth_singleton hk]

/-- An answer is lost when nothing awaits it. -/
lemma worth_unclaimed_resolve (hk : s.request id = some k) :
    (s.resolve id r).worth f (s.resolve id r).unclaimed =
      s.worth f s.unclaimed ++ if s.Awaits id then [] else f k r := by
  rw [worth_congr fun _ _ => congrFun request_resolve _]
  by_cases h : s.Awaits id
  · obtain ⟨w, hfind⟩ := Option.isSome_iff_exists.mp h.2
    rw [if_pos h, resolve_of_awaits h.1 hfind, List.append_nil]
  · rw [if_neg h, resolve_of_not_awaits h]
    change s.worth f (s.unclaimed ++ [(id, r)]) = _
    rw [worth_append, worth_singleton hk]

/-- What is kept for a call is lost with it. -/
lemma Inv.worth_unclaimed_abandon (h : Inv Suits s) :
    (s.abandon id).worth f (s.abandon id).unclaimed =
      s.worth f s.unclaimed ++ ((s.find? id).map (Waiting.worth f)).getD [] := by
  rw [worth_congr fun _ _ => congrFun request_abandon _]
  unfold Registry.abandon
  cases hfind : s.find? id with
  | none => exact (List.append_nil _).symm
  | some w =>
    change s.worth f (s.unclaimed ++ w.kept) = s.worth f s.unclaimed ++ w.worth f
    rw [worth_append]
    congr 1
    unfold worth Waiting.kept Waiting.worth
    cases w.answer with
    | none => rfl
    | some r => simp [h.requested w (mem_of_find? hfind).1]

/-- Nothing is kept for a call that is still to be answered. -/
lemma Inv.worth_of_awaits (h : Inv Suits s) (hawaits : s.Awaits id) :
    ((s.find? id).map (Waiting.worth f)).getD [] = [] := by
  obtain ⟨w, hfind⟩ := Option.isSome_iff_exists.mp hawaits.2
  obtain ⟨hw, rfl⟩ := mem_of_find? hfind
  have hnone : w.answer = none := (h.sender_iff w hw).mp hawaits.1
  rw [hfind]
  change w.worth f = []
  unfold Waiting.worth
  rw [hnone]
  rfl

/-- What a new call does not change. -/
lemma Inv.worth_register (h : Inv Suits s) {entries : List (ℕ × ρ)}
    (hsub : ∀ e ∈ entries, e ∈ s.answers) :
    (s.register k).worth f entries = s.worth f entries := by
  apply worth_congr
  intro e he
  obtain ⟨k', hk', -⟩ := h.suited e (hsub e he)
  exact h.request_register (by rw [hk']; exact Option.some_ne_none k')

lemma Inv.mem_answers_of_unclaimed (h : Inv Suits s) {e : ℕ × ρ} (he : e ∈ s.unclaimed) :
    e ∈ s.answers := by
  rw [← Multiset.mem_coe, h.balanced]
  exact Multiset.mem_add.mpr (Or.inr he)

end Worth

end Registry

end Oneshots
