import Mathlib.Data.List.Pairwise
import Mathlib.Logic.Function.Basic
import Parda.Lib.Machine
import Parda.Protocol.Envelope

/-!
# The plaintext registry

Model of `mobile-bridge/src/plaintext_exports.rs`: the four JNI exports on any threads, cut where
they take the lock of the registry. `NEXT_ID` is shared with the pending requests of
`mobile-bridge/src/pending.rs`, and wraps.
-/

namespace Parda.MobileBridge

open Protocol Machine

structure PlaintextHandle where
  bytes : Option Bytes

namespace PlaintextHandle

def new (bytes : Bytes) : PlaintextHandle := ⟨some bytes⟩

def len (handle : PlaintextHandle) : ℕ := (handle.bytes.map List.length).getD 0

/-- The buffer after a copy into it, none when nothing is copied. -/
def copyInto (handle : PlaintextHandle) (out : Bytes) : Option Bytes :=
  match handle.bytes with
  | none => none
  | some bytes =>
    if bytes.length ≤ out.length then some (bytes ++ out.drop bytes.length) else none

lemma copyInto_new (bytes : Bytes) :
    (new bytes).copyInto (List.replicate bytes.length 0) = some bytes := by
  unfold copyInto new
  simp

end PlaintextHandle

/-- What the exports returned. An unreadable array is answered with 0. -/
inductive Returned where
  | unreadable
  | new (handle : Int64) (bytes : Bytes)
  | len (handle length : Int64)
  | copyInto (handle : Int64) (copy : Option Bytes)
  | release (handle : Int64)
deriving DecidableEq

structure PlaintextExports where
  nextId : Int64 := 1
  registry : Int64 → Option PlaintextHandle := fun _ => none
  /-- Calls of `nativePlaintextNew` that have drawn their id. -/
  news : List (Int64 × Bytes) := []
  /-- Calls of `nativePlaintextCopyInto` between their two sections, with their zeroed buffer. -/
  copies : List (Int64 × Bytes) := []
  returned : List Returned := []

/-- `drawId` is a draw for a pending request. A call between two sections is named by its place
among those that are. -/
inductive ExportLabel where
  | drawId
  | new (bytes : Option Bytes)
  | insert (k : ℕ)
  | len (handle : Int64)
  | copyBegin (handle : Int64)
  | copyFinish (k : ℕ) (allocated : Bool)
  | release (handle : Int64)

/-- The label draws an id. -/
def ExportLabel.draws : ExportLabel → Bool
  | .drawId => true
  | .new (some _) => true
  | _ => false

def Returned.handle : Returned → Option Int64
  | .new handle _ => some handle
  | _ => none

/-- A call of `nativePlaintextNew` has put its buffer under the handle. -/
def Issued (before : List Returned) (handle : Int64) : Prop := ∃ bytes, .new handle bytes ∈ before

/-- The handle was released when `condition` held of it. -/
def ReleasedIn (condition : List Returned → Int64 → Prop) (returned : List Returned)
    (handle : Int64) : Prop :=
  ∃ before after, returned = before ++ .release handle :: after ∧ condition before handle

/-- What an export may return after what was returned before. -/
def Returned.Allowed (condition : List Returned → Int64 → Prop) (before : List Returned) :
    Returned → Prop
  | .new handle _ => handle ≠ 0 ∧ ¬Issued before handle
  | .copyInto handle (some bytes) =>
    .new handle bytes ∈ before ∧ ¬ReleasedIn condition before handle
  | .len handle length => ReleasedIn condition before handle → length = 0
  | .unreadable | .copyInto _ none | .release _ => True

/-- No export returns a handle a second time, another buffer than that of its handle, or anything of
a handle that was released when the condition held. -/
def NeverMixes (condition : List Returned → Int64 → Prop) (returned : List Returned) : Prop :=
  ∀ before result after, returned = before ++ result :: after → result.Allowed condition before

namespace PlaintextExports

def returning (s : PlaintextExports) (result : Returned) : PlaintextExports :=
  { s with returned := s.returned ++ [result] }

/-- Nothing finds a handle that was removed, and its `release` zeroes a buffer that no export
reads. -/
def step (s : PlaintextExports) : ExportLabel → PlaintextExports
  | .drawId => { s with nextId := s.nextId + 1 }
  | .new none => s.returning .unreadable
  | .new (some bytes) => { s with nextId := s.nextId + 1, news := s.news ++ [(s.nextId, bytes)] }
  | .insert k =>
    match s.news[k]? with
    | none => s
    | some (id, bytes) =>
      { s with
        registry := Function.update s.registry id (some (.new bytes))
        news := s.news.eraseIdx k }.returning (.new id bytes)
  | .len handle =>
    s.returning (.len handle (((s.registry handle).map fun h => Int64.ofNat h.len).getD 0))
  | .copyBegin handle =>
    match s.registry handle with
    | none => s.returning (.copyInto handle none)
    | some h => { s with copies := s.copies ++ [(handle, List.replicate h.len 0)] }
  | .copyFinish k allocated =>
    match s.copies[k]? with
    | none => s
    | some (handle, buf) =>
      let copied := (s.registry handle).bind fun h => h.copyInto buf
      { s with copies := s.copies.eraseIdx k }.returning
        (.copyInto handle (if allocated then copied else none))
  | .release handle =>
    { s with registry := Function.update s.registry handle none }.returning (.release handle)

/-- The ids that calls of `nativePlaintextNew` have drawn, in order of no importance. -/
def handles (s : PlaintextExports) : List Int64 :=
  s.news.map Prod.fst ++ s.returned.filterMap Returned.handle

/-- A release changes nothing but its handle, and a second one changes nothing. -/
structure ReleaseLocal (s : PlaintextExports) (handle : Int64) : Prop where
  idempotent : ((s.step (.release handle)).step (.release handle)).registry =
    (s.step (.release handle)).registry
  others : ∀ other, other ≠ handle → (s.step (.release handle)).registry other = s.registry other
  calls : (s.step (.release handle)).nextId = s.nextId ∧
    (s.step (.release handle)).news = s.news ∧ (s.step (.release handle)).copies = s.copies

end PlaintextExports

/-- The id of a draw, counted from 0. -/
def idOf (draw : ℕ) : Int64 := Int64.ofNat (draw + 1)

section Ids

lemma idOf_succ (draw : ℕ) : idOf (draw + 1) = idOf draw + 1 := Int64.ofNat_add (draw + 1) 1

/-- Ids do not repeat before the counter has wrapped. -/
lemma idOf_inj {draw draw' : ℕ} (h : draw + 1 < 2 ^ 64) (h' : draw' + 1 < 2 ^ 64)
    (heq : idOf draw = idOf draw') : draw = draw' := by
  have hcast : UInt64.ofNat (draw + 1) = UInt64.ofNat (draw' + 1) := congrArg Int64.toUInt64 heq
  have hnat := congrArg UInt64.toNat hcast
  rw [UInt64.toNat_ofNat', UInt64.toNat_ofNat', Nat.mod_eq_of_lt h, Nat.mod_eq_of_lt h'] at hnat
  omega

lemma idOf_ne_zero {draw : ℕ} (h : draw + 1 < 2 ^ 64) : idOf draw ≠ 0 := by
  intro heq
  have hcast : UInt64.ofNat (draw + 1) = UInt64.ofNat 0 := congrArg Int64.toUInt64 heq
  have hnat := congrArg UInt64.toNat hcast
  rw [UInt64.toNat_ofNat', UInt64.toNat_ofNat', Nat.mod_eq_of_lt h] at hnat
  omega

end Ids

section Logs

variable {condition : List Returned → Int64 → Prop} {returned : List Returned} {result : Returned}

/-- How a list with one more element splits at an element. -/
lemma concat_eq_append_cons {α : Type} {l before after : List α} {a b : α} :
    l ++ [a] = before ++ b :: after ↔
      (before = l ∧ b = a ∧ after = []) ∨ ∃ after', after = after' ++ [a] ∧ l = before ++ b :: after' := by
  constructor
  · intro h
    rcases List.eq_nil_or_concat after with rfl | ⟨after', last, rfl⟩
    · obtain ⟨hl, ha⟩ := List.append_inj' h rfl
      exact Or.inl ⟨hl.symm, (List.singleton_inj.mp ha).symm, rfl⟩
    · rw [List.concat_eq_append, ← List.cons_append, ← List.append_assoc] at h
      obtain ⟨hl, ha⟩ := List.append_inj' h rfl
      rw [List.concat_eq_append, List.singleton_inj.mp ha]
      exact Or.inr ⟨after', rfl, hl⟩
  · rintro (⟨rfl, rfl, rfl⟩ | ⟨after', rfl, rfl⟩)
    · rfl
    · simp

lemma neverMixes_append :
    NeverMixes condition (returned ++ [result]) ↔
      NeverMixes condition returned ∧ result.Allowed condition returned := by
  unfold NeverMixes
  constructor
  · intro h
    refine ⟨?_, h returned result [] rfl⟩
    rintro before result' after rfl
    exact h before result' (after ++ [result]) (by simp)
  · rintro ⟨hold, hnew⟩ before result' after heq
    rcases concat_eq_append_cons.mp heq with ⟨rfl, rfl, -⟩ | ⟨after', -, hsplit⟩
    · exact hnew
    · exact hold before result' after' hsplit

lemma releasedIn_append {handle : Int64} :
    ReleasedIn condition (returned ++ [result]) handle ↔
      ReleasedIn condition returned handle ∨
        (result = .release handle ∧ condition returned handle) := by
  unfold ReleasedIn
  constructor
  · rintro ⟨before, after, heq, hcondition⟩
    rcases concat_eq_append_cons.mp heq with ⟨rfl, hresult, -⟩ | ⟨after', -, hsplit⟩
    · exact Or.inr ⟨hresult.symm, hcondition⟩
    · exact Or.inl ⟨before, after', hsplit, hcondition⟩
  · rintro (⟨before, after, rfl, hcondition⟩ | ⟨rfl, hcondition⟩)
    · exact ⟨before, after ++ [result], by simp, hcondition⟩
    · exact ⟨returned, [], rfl, hcondition⟩

lemma issued_of_releasedIn {handle : Int64} (h : ReleasedIn Issued returned handle) :
    Issued returned handle := by
  obtain ⟨before, after, rfl, bytes, hbytes⟩ := h
  exact ⟨bytes, List.mem_append_left _ hbytes⟩

end Logs

namespace PlaintextExports

/-- What holds after a number of draws, as long as the counter has not wrapped. -/
structure Inv (draws : ℕ) (s : PlaintextExports) : Prop where
  nextId : s.nextId = idOf draws
  drawn : ∀ handle ∈ s.handles, ∃ draw, draw < draws ∧ handle = idOf draw
  nodup : s.handles.Nodup
  held : ∀ handle h, s.registry handle = some h → ∃ bytes, h = .new bytes ∧ .new handle bytes ∈ s.returned
  copies : ∀ copy ∈ s.copies, ∃ bytes, .new copy.1 bytes ∈ s.returned ∧
    copy.2 = List.replicate bytes.length 0
  cleared : ∀ handle, ReleasedIn Issued s.returned handle → s.registry handle = none
  allowed : NeverMixes Issued s.returned

variable {draws : ℕ} {s : PlaintextExports}

lemma inv_init : Inv 0 {} where
  nextId := rfl
  drawn := by simp [handles]
  nodup := by simp [handles]
  held := by simp
  copies := by simp
  cleared := by simp [ReleasedIn]
  allowed := by simp [NeverMixes]

/-- The buffer of a handle is that of the one call that returned it. -/
lemma Inv.bytes_unique (h : s.Inv draws) {handle : Int64} {bytes bytes' : Bytes}
    (hnew : .new handle bytes ∈ s.returned) (hnew' : .new handle bytes' ∈ s.returned) :
    bytes = bytes' := by
  have hnodup : (s.returned.filterMap Returned.handle).Nodup := (List.nodup_append.mp h.nodup).2.1
  have hpairwise := List.pairwise_filterMap.mp hnodup
  have hsymm : Std.Symm fun r r' : Returned =>
      ∀ b, r.handle = some b → ∀ b', r'.handle = some b' → b ≠ b' :=
    ⟨fun _ _ hne b hb b' hb' heq => hne b' hb' b hb heq.symm⟩
  by_contra hne
  have hdistinct : Returned.new handle bytes ≠ .new handle bytes' := fun heq => by
    cases heq
    exact hne rfl
  exact hpairwise.forall hnew hnew' hdistinct handle rfl handle rfl rfl

/-- An answer that is no new handle. -/
lemma Inv.returning (h : s.Inv draws) {result : Returned} (hnew : result.handle = none)
    (hallowed : result.Allowed Issued s.returned)
    (hcleared : ∀ handle, result = .release handle → s.registry handle = none) :
    (s.returning result).Inv draws := by
  have hhandles : (s.returning result).handles = s.handles := by
    unfold handles PlaintextExports.returning
    rw [List.filterMap_append, List.filterMap_cons_none hnew, List.filterMap_nil, List.append_nil]
  refine ⟨h.nextId, hhandles ▸ h.drawn, hhandles ▸ h.nodup, ?_, ?_, ?_, ?_⟩
  · intro handle held hheld
    obtain ⟨bytes, rfl, hbytes⟩ := h.held handle held hheld
    exact ⟨bytes, rfl, List.mem_append_left _ hbytes⟩
  · intro copy hcopy
    obtain ⟨bytes, hbytes, hbuf⟩ := h.copies copy hcopy
    exact ⟨bytes, List.mem_append_left _ hbytes, hbuf⟩
  · intro handle hreleased
    rcases releasedIn_append.mp hreleased with hold | ⟨hresult, -⟩
    · exact h.cleared handle hold
    · exact hcleared handle hresult
  · exact neverMixes_append.mpr ⟨h.allowed, hallowed⟩

/-- A buffer that is found is not one of a released handle. -/
lemma Inv.not_releasedIn (h : s.Inv draws) {handle : Int64} {found : PlaintextHandle}
    (hfound : s.registry handle = some found) : ¬ReleasedIn Issued s.returned handle := by
  intro hreleased
  rw [h.cleared handle hreleased] at hfound
  cases hfound

lemma Inv.drawId (h : s.Inv draws) : Inv (draws + 1) { s with nextId := s.nextId + 1 } where
  nextId := by
    rw [idOf_succ, ← h.nextId]
  drawn handle hmem := by
    obtain ⟨draw, hlt, heq⟩ := h.drawn handle hmem
    exact ⟨draw, by omega, heq⟩
  nodup := h.nodup
  held := h.held
  copies := h.copies
  cleared := h.cleared
  allowed := h.allowed

lemma Inv.newBytes (h : s.Inv draws) (hdraws : draws + 1 < 2 ^ 64) (bytes : Bytes) :
    Inv (draws + 1) { s with nextId := s.nextId + 1, news := s.news ++ [(s.nextId, bytes)] } := by
  have hfresh : s.nextId ∉ s.handles := by
    intro hmem
    obtain ⟨draw, hlt, heq⟩ := h.drawn _ hmem
    rw [h.nextId] at heq
    have hdraw := idOf_inj hdraws (by omega) heq
    omega
  have hperm : (handles { s with nextId := s.nextId + 1, news := s.news ++ [(s.nextId, bytes)] }).Perm
      (s.nextId :: s.handles) := by
    unfold handles
    rw [List.map_append, List.append_assoc]
    exact List.perm_middle
  refine ⟨h.drawId.nextId, ?_, ?_, h.held, h.copies, h.cleared, h.allowed⟩
  · intro handle hmem
    rcases List.mem_cons.mp (hperm.mem_iff.mp hmem) with rfl | hold
    · exact ⟨draws, by omega, h.nextId⟩
    · exact h.drawId.drawn handle hold
  · rw [hperm.nodup_iff, List.nodup_cons]
    exact ⟨hfresh, h.nodup⟩

lemma Inv.insert (h : s.Inv draws) (hdraws : draws < 2 ^ 64) {k : ℕ} {id : Int64} {bytes : Bytes}
    (hk : s.news[k]? = some (id, bytes)) :
    ({ s with
        registry := Function.update s.registry id (some (.new bytes))
        news := s.news.eraseIdx k }.returning (.new id bytes)).Inv draws := by
  obtain ⟨hlt, hget⟩ := List.getElem?_eq_some_iff.mp hk
  have hperm : (({ s with
      registry := Function.update s.registry id (some (.new bytes))
      news := s.news.eraseIdx k }.returning (.new id bytes)).handles).Perm s.handles := by
    have hnews : (s.news.map Prod.fst).Perm (id :: (s.news.eraseIdx k).map Prod.fst) := by
      have hmoved := (List.getElem_cons_eraseIdx_perm hlt).symm.map Prod.fst
      rwa [List.map_cons, hget] at hmoved
    unfold handles PlaintextExports.returning
    dsimp only
    rw [List.filterMap_append]
    refine List.Perm.trans ?_ (hnews.append_right _).symm
    rw [← List.append_assoc, List.cons_append]
    exact List.perm_append_singleton id _
  have hid : id ∈ s.handles :=
    List.mem_append_left _ (List.mem_map.mpr ⟨(id, bytes), List.mem_of_getElem? hk, rfl⟩)
  -- the call that drew the id has not returned it yet
  have hunissued : ¬Issued s.returned id := by
    rintro ⟨bytes', hmem⟩
    have hdisjoint := (List.nodup_append.mp h.nodup).2.2
    exact hdisjoint id (List.mem_map.mpr ⟨(id, bytes), List.mem_of_getElem? hk, rfl⟩) id
      (List.mem_filterMap.mpr ⟨.new id bytes', hmem, rfl⟩) rfl
  obtain ⟨draw, hdraw, heq⟩ := h.drawn id hid
  refine ⟨h.nextId, ?_, hperm.nodup_iff.mpr h.nodup, ?_, ?_, ?_, ?_⟩
  · intro handle hmem
    exact h.drawn handle (hperm.mem_iff.mp hmem)
  · intro handle held hheld
    change Function.update s.registry id (some (.new bytes)) handle = some held at hheld
    by_cases hhandle : handle = id
    · subst hhandle
      rw [Function.update_self] at hheld
      exact ⟨bytes, (Option.some.inj hheld).symm, List.mem_append_right _ (List.mem_singleton_self _)⟩
    · rw [Function.update_of_ne hhandle] at hheld
      obtain ⟨bytes', rfl, hbytes'⟩ := h.held handle held hheld
      exact ⟨bytes', rfl, List.mem_append_left _ hbytes'⟩
  · intro copy hcopy
    obtain ⟨bytes', hbytes', hbuf⟩ := h.copies copy hcopy
    exact ⟨bytes', List.mem_append_left _ hbytes', hbuf⟩
  · intro handle hreleased
    rcases releasedIn_append.mp hreleased with hold | ⟨hresult, -⟩
    · have hne : handle ≠ id := fun heq => hunissued (heq ▸ issued_of_releasedIn hold)
      change Function.update s.registry id (some (.new bytes)) handle = none
      rw [Function.update_of_ne hne]
      exact h.cleared handle hold
    · cases hresult
  · refine neverMixes_append.mpr ⟨h.allowed, ?_, hunissued⟩
    rw [heq]
    exact idOf_ne_zero (by omega)

lemma Inv.len (h : s.Inv draws) (handle : Int64) : (s.step (.len handle)).Inv draws := by
  refine h.returning rfl ?_ (fun _ hresult => by cases hresult)
  intro hreleased
  rw [h.cleared handle hreleased]
  rfl

lemma Inv.copyBegin (h : s.Inv draws) (handle : Int64) : (s.step (.copyBegin handle)).Inv draws := by
  unfold step
  dsimp only
  cases hfound : s.registry handle with
  | none => exact h.returning rfl trivial (fun _ hresult => by cases hresult)
  | some found =>
    obtain ⟨bytes, rfl, hbytes⟩ := h.held handle found hfound
    refine ⟨h.nextId, h.drawn, h.nodup, h.held, ?_, h.cleared, h.allowed⟩
    intro copy hcopy
    rcases List.mem_append.mp hcopy with hold | hnew
    · exact h.copies copy hold
    · rw [List.mem_singleton.mp hnew]
      exact ⟨bytes, hbytes, rfl⟩

/-- A copy finds nothing, or the whole buffer that its own was sized for. -/
lemma Inv.copyFinish (h : s.Inv draws) (k : ℕ) (allocated : Bool) :
    (s.step (.copyFinish k allocated)).Inv draws := by
  unfold step
  dsimp only
  cases hk : s.copies[k]? with
  | none => exact h
  | some copy =>
    obtain ⟨handle, buf⟩ := copy
    have herased : Inv draws { s with copies := s.copies.eraseIdx k } :=
      ⟨h.nextId, h.drawn, h.nodup, h.held,
        fun copy hcopy => h.copies copy (List.mem_of_mem_eraseIdx hcopy), h.cleared, h.allowed⟩
    dsimp only
    refine herased.returning rfl ?_ (fun _ hresult => by cases hresult)
    cases allocated with
    | false => trivial
    | true =>
      cases hfound : s.registry handle with
      | none => trivial
      | some found =>
        obtain ⟨bytes, hbytes, hbuf⟩ := h.copies (handle, buf) (List.mem_of_getElem? hk)
        obtain ⟨bytes', rfl, hbytes'⟩ := h.held handle found hfound
        have hbuf' : buf = List.replicate bytes'.length 0 := by
          rw [h.bytes_unique hbytes' hbytes]
          exact hbuf
        rw [hbuf']
        simp only [if_true, Option.bind_some, PlaintextHandle.copyInto_new]
        exact ⟨hbytes', h.not_releasedIn hfound⟩

lemma Inv.release (h : s.Inv draws) (handle : Int64) : (s.step (.release handle)).Inv draws := by
  have hremoved : Inv draws { s with registry := Function.update s.registry handle none } := by
    refine ⟨h.nextId, h.drawn, h.nodup, ?_, h.copies, ?_, h.allowed⟩
    · intro other held hheld
      dsimp only at hheld
      by_cases hother : other = handle
      · subst hother
        rw [Function.update_self] at hheld
        cases hheld
      · rw [Function.update_of_ne hother] at hheld
        exact h.held other held hheld
    · intro other hreleased
      dsimp only
      by_cases hother : other = handle
      · subst hother
        exact Function.update_self _ _ _
      · rw [Function.update_of_ne hother]
        exact h.cleared other hreleased
  refine hremoved.returning rfl trivial ?_
  intro other hresult
  cases hresult
  exact Function.update_self _ _ _

lemma inv_step (draws : ℕ) (s : PlaintextExports) (label : ExportLabel)
    (h : draws < 2 ^ 64 → s.Inv draws) (hdraws : draws + label.draws.toNat < 2 ^ 64) :
    (s.step label).Inv (draws + label.draws.toNat) := by
  have hinv := h (by omega)
  cases label with
  | drawId => exact hinv.drawId
  | new bytes =>
    cases bytes with
    | none => exact hinv.returning rfl trivial (fun _ hresult => by cases hresult)
    | some bytes => exact hinv.newBytes hdraws bytes
  | insert k =>
    unfold step
    dsimp only
    cases hk : s.news[k]? with
    | none => exact hinv
    | some call => exact hinv.insert (by omega) hk
  | len handle => exact hinv.len handle
  | copyBegin handle => exact hinv.copyBegin handle
  | copyFinish k allocated => exact hinv.copyFinish k allocated
  | release handle => exact hinv.release handle

lemma releaseLocal (s : PlaintextExports) (handle : Int64) : s.ReleaseLocal handle where
  idempotent := Function.update_idem _ _ _
  others _ hother := Function.update_of_ne hother _ _
  calls := ⟨rfl, rfl, rfl⟩

/-- Until ids repeat, the exports never mix buffers, and a handle that is released after it was
issued stays released. -/
theorem neverMixes_run (labels : List ExportLabel)
    (hdraws : labels.countP ExportLabel.draws < 2 ^ 64) :
    NeverMixes Issued (run step {} labels).returned ∧
      ∀ handle, (run step {} labels).ReleaseLocal handle := by
  have hcount : ∀ (draws : ℕ) (s : PlaintextExports) (label : ExportLabel),
      (draws < 2 ^ 64 → s.Inv draws) → (draws + label.draws.toNat < 2 ^ 64 →
        (s.step label).Inv (draws + label.draws.toNat)) := inv_step
  have hrun := count_run hcount (fun _ => inv_init) labels
  rw [total_eq_countP, Nat.zero_add] at hrun
  exact ⟨(hrun hdraws).allowed, fun handle => releaseLocal _ handle⟩

section Runs

/-- A release while the other section of the copy is still to come. -/
def releasedMidCopy : List ExportLabel :=
  [.new (some [7]), .insert 0, .copyBegin 1, .release 1, .copyFinish 0 true]

theorem neverMixes_run_midCopy :
    NeverMixes Issued (run step {} releasedMidCopy).returned ∧
      ∀ handle, (run step {} releasedMidCopy).ReleaseLocal handle :=
  neverMixes_run releasedMidCopy (by decide)

/-- A release of a handle that is issued later. -/
def releasedEarly : List ExportLabel :=
  [.release 1, .new (some [7]), .insert 0, .copyBegin 1, .copyFinish 0 true]

/-- Every id is drawn once in between, so that the second buffer gets the handle of the first. -/
def wrappedAround : List ExportLabel :=
  [.new (some [7]), .insert 0] ++ (List.replicate (2 ^ 64 - 1) .drawId ++ [.new (some [8]), .insert 0])

lemma run_replicate_drawId (s : PlaintextExports) (n : ℕ) :
    run step s (List.replicate n .drawId) = { s with nextId := s.nextId + Int64.ofNat n } := by
  induction n generalizing s with
  | zero => simp
  | succ n ih =>
    have hnext : s.nextId + 1 + Int64.ofNat n = s.nextId + Int64.ofNat (n + 1) := by
      rw [Int64.ofNat_add, Int64.add_assoc, Int64.add_comm 1]
      rfl
    rw [List.replicate_succ, run_cons, ih]
    change ({ s with nextId := s.nextId + 1 + Int64.ofNat n } : PlaintextExports) = _
    rw [hnext]

theorem not_neverMixes :
    ¬NeverMixes (fun _ _ => True) (run step {} releasedEarly).returned ∧
      ¬NeverMixes Issued (run step {} wrappedAround).returned := by
  constructor
  · intro h
    have hcopied := h [.release 1, .new 1 [7]] (.copyInto 1 (some [7])) [] (by decide)
    exact hcopied.2 ⟨[], [.new 1 [7]], rfl, trivial⟩
  · intro h
    have hreturned : (run step {} wrappedAround).returned = [.new 1 [7]] ++ .new 1 [8] :: [] := by
      unfold wrappedAround
      rw [run_append, run_append, run_replicate_drawId]
      rfl
    have hnew := h [.new 1 [7]] (.new 1 [8]) [] hreturned
    exact hnew.2 ⟨[7], List.mem_singleton_self _⟩

end Runs

end PlaintextExports

end Parda.MobileBridge
