import Parda.Mesh.Convergence
import Parda.Mesh.Network

/-!
# Partitions of the mesh

A bundle crosses from one set of nodes to the rest only over a link. Links are opened only
between devices that reach each other, so what a set of nodes holds while it is cut off
was theirs before, or is handed in by them.
-/

namespace Parda.Mesh

open Protocol Machine

namespace SyncPair

/-- Each side sends on only what satisfies its own predicate. -/
structure Traffic (json : SyncJson) (Q : Side → Bytes → Prop) (w : SyncPair) : Prop where
  pcs : ∀ x, (w x).pc.Within (Q x)
  inboxes : ∀ x, ∀ message ∈ inFlight json (w x).inbox, message.Within (Q x.other)

section Traffic

variable {c : Crates} {cfg : Side → RelayConfig} {json : SyncJson} {Q Q' : Side → Bytes → Prop}
  {w : SyncPair}

lemma Traffic.mono (h : Traffic json Q w) (hQ : ∀ x bytes, Q x bytes → Q' x bytes) :
    Traffic json Q' w :=
  ⟨fun x => (h.pcs x).mono (hQ x), fun x message hm => (h.inboxes x message hm).mono (hQ x.other)⟩

lemma traffic_start (stores : Side → RelayStore) : Traffic json Q (start stores) :=
  ⟨fun _ => trivial, fun _ message hm => by cases hm⟩

/-- A session that reads a message collects nothing. -/
lemma receive_within {P : Bytes → Prop} {cfg : RelayConfig} {s : RelayStore} {pc : SyncPc}
    {nowMs : UInt64} {message : SyncMessage} (hwait : pc.waiting = true) :
    (syncStep c cfg s pc (.receive nowMs (.ok message))).1.Within P := by
  cases pc with
  | recvHave mine => cases message with
    | _ => trivial
  | recvWant => cases message with
    | _ => trivial
  | admitting admitted budget =>
    cases message with
    | bundle bytes =>
      change (syncAdmit c cfg nowMs s admitted budget bytes).1.Within P
      unfold syncAdmit
      cases s.admitChecked c cfg nowMs bytes (some budget) with
      | _ => trivial
    | _ => trivial
  | _ => simp [SyncPc.waiting] at hwait

lemma Traffic.advanced {w' : SyncPair} {x : Side} {nowMs : UInt64} {order : IterOrder}
    (h : Traffic json Q w) (hstores : ∀ y, (w y).store.Within (Q y))
    (hadv : Advanced c cfg json w x nowMs order w') :
    Traffic json Q w' ∧ ∀ y, (w' y).store.Within fun bytes => Q y bytes ∨ Q y.other bytes := by
  have hsame : ∀ y, (w y).store.Within fun bytes => Q y bytes ∨ Q y.other bytes :=
    fun y bytes hb => Or.inl (hstores y bytes hb)
  cases hadv with
  | idle _ => exact ⟨h, hsame⟩
  | ran hwait hfin hsilent =>
    obtain ⟨hpc, hstore, -⟩ := syncStep_within c (cfg x) (hstores x) (h.pcs x)
      (show SyncEvent.Within (Q x) (.advance nowMs order) from trivial)
    refine ⟨⟨?_, ?_⟩, ?_⟩
    · refine (Side.forall_iff x).mpr ⟨by simpa [SyncEnd.after] using hpc, ?_⟩
      simpa using h.pcs x.other
    · refine (Side.forall_iff x).mpr ⟨by simpa [SyncEnd.after] using h.inboxes x, ?_⟩
      simpa using h.inboxes x.other
    · refine (Side.forall_iff x).mpr ⟨?_, by simpa using hsame x.other⟩
      intro bytes hb
      exact Or.inl (hstore bytes (by simpa [SyncEnd.after] using hb))
  | sent message bytes hwait hfin hmessage hbytes =>
    obtain ⟨hpc, hstore, hsent⟩ := syncStep_within c (cfg x) (hstores x) (h.pcs x)
      (show SyncEvent.Within (Q x) (.advance nowMs order) from trivial)
    refine ⟨⟨?_, ?_⟩, ?_⟩
    · refine (Side.forall_iff x).mpr ⟨by simpa [SyncEnd.after] using hpc, ?_⟩
      simpa using h.pcs x.other
    · refine (Side.forall_iff x).mpr ⟨by simpa [SyncEnd.after] using h.inboxes x, ?_⟩
      intro m hm
      have hcases : m ∈ inFlight json (w x.other).inbox ∨ m = message := by
        simpa [inFlight_concat hbytes] using hm
      rcases hcases with hold | rfl
      · exact h.inboxes x.other m hold
      · rw [Side.other_other]
        exact hsent m hmessage
    · refine (Side.forall_iff x).mpr ⟨?_, by simpa using hsame x.other⟩
      intro bytes hb
      exact Or.inl (hstore bytes (by simpa [SyncEnd.after] using hb))
  | received message bytes rest hwait hinbox hbytes =>
    have hmem : inFlight json (w x).inbox = message :: inFlight json rest := by
      rw [hinbox, inFlight_cons hbytes]
    have hmessage : message.Within (Q x.other) := h.inboxes x message (by simp [hmem])
    have hevent : SyncEvent.Within (fun bytes => Q x bytes ∨ Q x.other bytes)
        (.receive nowMs (.ok message)) := hmessage.mono fun _ hb => Or.inr hb
    obtain ⟨-, hstore, -⟩ := syncStep_within c (cfg x) (hsame x)
      ((h.pcs x).mono fun _ hb => Or.inl hb) hevent
    refine ⟨⟨?_, ?_⟩, ?_⟩
    · refine (Side.forall_iff x).mpr ⟨?_, by simpa using h.pcs x.other⟩
      simpa [SyncEnd.after] using receive_within hwait
    · refine (Side.forall_iff x).mpr ⟨?_, by simpa using h.inboxes x.other⟩
      intro m hm
      exact h.inboxes x m (by simpa [hmem, SyncEnd.after] using Or.inr (by simpa [SyncEnd.after] using hm))
    · refine (Side.forall_iff x).mpr ⟨?_, by simpa using hsame x.other⟩
      simpa [SyncEnd.after] using hstore

/-- An end that goes away leaves the traffic alone. -/
lemma step_drop (w : SyncPair) (x y : Side) :
    (w.step c cfg json (.drop x) y).store = (w y).store ∧
      (w.step c cfg json (.drop x) y).pc = (w y).pc ∧
      (w.step c cfg json (.drop x) y).inbox = (w y).inbox := by
  by_cases hfin : (w x).pc.isFinished = true
  · rw [SyncPair.step, if_pos hfin]
    rcases Side.eq_or_eq_other x y with rfl | rfl
    · simp
    · simp
  · rw [SyncPair.step, if_neg hfin]
    exact ⟨rfl, rfl, rfl⟩

/-- Two sessions store only what was stored, queued or in flight at one of the two sides. -/
lemma Traffic.step (c : Crates) (cfg : Side → RelayConfig) (hjson : json.RoundTrip)
    (hw : w.Ordered json) (h : Traffic json Q w) (hstores : ∀ x, (w x).store.Within (Q x)) {label : PairLabel}
    (hlabel : ∀ x store, label ≠ .interfere x store) :
    Traffic json Q (w.step c cfg json label) ∧
      ∀ x, (w.step c cfg json label x).store.Within fun bytes => Q x bytes ∨ Q x.other bytes := by
  cases label with
  | advance x nowMs order =>
    exact h.advanced hstores (advance_cases hjson hw x nowMs order)
  | drop x =>
    refine ⟨⟨fun y => ?_, fun y => ?_⟩, fun y bytes hb => ?_⟩
    · rw [(step_drop w x y).2.1]
      exact h.pcs y
    · rw [(step_drop w x y).2.2]
      exact h.inboxes y
    · rw [(step_drop w x y).1] at hb
      exact Or.inl (hstores y bytes hb)
  | interfere x store => exact absurd rfl (hlabel x store)

/-- Sessions that have ended touch nothing. -/
lemma step_of_finished (c : Crates) (cfg : Side → RelayConfig) (hjson : json.RoundTrip)
    (hw : w.Ordered json) (hfin : ∀ x, (w x).pc.isFinished = true) {label : PairLabel}
    (hlabel : ∀ x store, label ≠ .interfere x store) (x : Side) :
    (w.step c cfg json label x).store = (w x).store ∧
      (w.step c cfg json label x).pc = (w x).pc := by
  cases label with
  | advance y nowMs order =>
    have hadv : Advanced c cfg json w y nowMs order (w.step c cfg json (.advance y nowMs order)) :=
      advance_cases hjson hw y nowMs order
    generalize w.step c cfg json (.advance y nowMs order) = w' at hadv
    cases hadv with
    | idle _ => exact ⟨rfl, rfl⟩
    | ran _ hrun _ => simp [hfin] at hrun
    | sent _ _ _ hrun _ _ => simp [hfin] at hrun
    | received _ _ _ hwait _ _ =>
      have hrun := SyncPc.not_isFinished_of_waiting hwait
      simp [hfin] at hrun
  | drop y => exact ⟨(step_drop w y x).1, (step_drop w y x).2.1⟩
  | interfere y store => exact absurd rfl (hlabel y store)

end Traffic

end SyncPair

namespace MeshNet

section Origins

variable (c : Crates) (cfg : ℕ → RelayConfig) (json : SyncJson)

/-- The node has held the bundle in some state of the run. -/
def EverHeld (labels : List NetLabel) (node : ℕ) (bytes : Bytes) : Prop :=
  ∃ pre, pre <+: labels ∧ ((run (step c cfg json) {} pre).store node).Holds bytes

variable {c cfg json} {w w' : MeshNet} {label : NetLabel}

lemma EverHeld.append {labels : List NetLabel} {node : ℕ} {bytes : Bytes}
    (h : EverHeld c cfg json labels node bytes) (more : List NetLabel) :
    EverHeld c cfg json (labels ++ more) node bytes := by
  obtain ⟨pre, hpre, hholds⟩ := h
  exact ⟨pre, hpre.trans (List.prefix_append _ _), hholds⟩

lemma traffic_congr {Q : Side → Bytes → Prop} {link old : SimLink} (hside : link.side = old.side)
    (h : SyncPair.Traffic json Q (w.pair old)) : SyncPair.Traffic json Q (w'.pair link) := by
  refine ⟨fun x => ?_, fun x => ?_⟩
  · change (link.side x).pc.Within (Q x)
    rw [hside]
    exact h.pcs x
  · change ∀ message ∈ SyncPair.inFlight json (link.side x).inbox, message.Within (Q x.other)
    rw [hside]
    exact h.inboxes x

lemma traffic_save {Q : Side → Bytes → Prop} {link : SimLink} {pair : SyncPair}
    (h : SyncPair.Traffic json Q pair) : SyncPair.Traffic json Q (w'.pair (link.save pair)) := by
  refine ⟨fun x => ?_, fun x => ?_⟩
  · cases x with
    | a => exact h.pcs .a
    | b => exact h.pcs .b
  · cases x with
    | a => exact h.inboxes .a
    | b => exact h.inboxes .b

/-- The links after a step, when only one of them has moved. -/
lemma Effect.forall_links {p : SimLink → Prop}
    (h : Effect c cfg json w label w')
    (hstill : ∀ link old : SimLink, old ∈ w.links → link.node = old.node →
      link.side = old.side → p link)
    (hopened : ∀ dialer target, w.network.reachable dialer target = true → p { dialer, target })
    (hran : ∀ (k : ℕ) (link : SimLink) (pairLabel : PairLabel), w.links[k]? = some link →
      (∀ x store, pairLabel ≠ .interfere x store) →
      p (link.save ((w.pair link).step c (cfg ∘ link.node) json pairLabel))) :
    ∀ link ∈ w'.links, p link := by
  have hself : ∀ link ∈ w.links, p link := fun link hmem => hstill link link hmem rfl rfl
  cases h with
  | still hstores _ hlinks =>
    intro link hmem
    obtain ⟨j, hj⟩ := List.mem_iff_getElem?.mp hmem
    obtain ⟨old, hold, hnode, hside⟩ := hlinks j link hj
    exact hstill link old (List.mem_of_getElem? hold) hnode hside
  | opened dialer target hreach hstores hlinks =>
    intro link hmem
    rw [hlinks, List.mem_append, List.mem_singleton] at hmem
    rcases hmem with hold | rfl
    · exact hself link hold
    · exact hopened dialer target hreach
  | own node s hop hw' =>
    rw [hw']
    exact hself
  | ran k link pairLabel hk hlabel hstores hlinks =>
    intro link' hmem
    rw [hlinks, onLink_of_some hk] at hmem
    rcases List.mem_or_eq_of_mem_set hmem with hold | rfl
    · exact hself link' hold
    · apply hran k link pairLabel hk
      rintro x store rfl
      rcases hlabel with ⟨_, _, _, _, hadvance⟩ | ⟨_, hdrop⟩
      · cases hadvance
      · cases hdrop

/-- What is on a link was held by the node that sends it. -/
lemma traced_run (hjson : json.RoundTrip) (labels : List NetLabel) :
    ∀ link ∈ (run (step c cfg json) {} labels).links,
      SyncPair.Traffic json (fun x => EverHeld c cfg json labels (link.node x))
        ((run (step c cfg json) {} labels).pair link) := by
  induction labels using List.reverseRecOn with
  | nil => exact fun link hmem => by cases hmem
  | append_singleton labels label ih =>
    have hwired := wired_run c cfg hjson labels
    rw [run_append, run_cons, run_nil]
    refine (effect_step c cfg json _ label).forall_links ?_ ?_ ?_
    · intro link old hold hnode hside
      rw [hnode]
      exact traffic_congr hside ((ih old hold).mono fun x bytes h => h.append [label])
    · intro dialer target _
      rw [pair_fresh]
      exact SyncPair.traffic_start _
    · intro k link pairLabel hk hpairLabel
      obtain ⟨-, -, hordered⟩ := hwired.of_getElem? hk
      have htraffic := ih link (List.mem_of_getElem? hk)
      have hheld : ∀ x, ((run (step c cfg json) {} labels).pair link x).store.Within
          (EverHeld c cfg json labels (link.node x)) :=
        fun x bytes hb => ⟨labels, List.prefix_rfl, hb⟩
      have hnext := (htraffic.step c (cfg ∘ link.node) hjson hordered hheld hpairLabel).1
      rw [node_save]
      exact traffic_save (hnext.mono fun x bytes h => h.append [label])

end Origins

section Cuts

variable {c : Crates} {cfg : ℕ → RelayConfig} {json : SyncJson} {S : Set ℕ} {P : Bytes → Prop}
  {w : MeshNet} {label : NetLabel}

/-- No device of `S` reaches one outside. -/
def Cut (S : Set ℕ) (w : MeshNet) : Prop :=
  ∀ i ∈ S, ∀ j, j ∉ S → w.network.reachable i j = false

/-- The nodes of `S` hand in only what satisfies `P`. -/
def HandsIn (S : Set ℕ) (P : Bytes → Prop) : NetLabel → Prop
  | .admitBundle node _ bytes => node ∈ S → P bytes
  | _ => True

/-- What the nodes of `S` hold and send to each other satisfies `P`, and nothing runs on a
link that leaves `S`. -/
structure Confined (json : SyncJson) (S : Set ℕ) (P : Bytes → Prop) (w : MeshNet) : Prop where
  stores : ∀ i ∈ S, (w.store i).Within P
  links : ∀ link ∈ w.links, (∀ x, (link.side x).pc.isFinished = true) ∨
    (∀ x, link.node x ∉ S) ∨
    (∀ x, link.node x ∈ S) ∧ SyncPair.Traffic json (fun _ => P) (w.pair link)

lemma OwnOp.within {node : ℕ} {s s' : RelayStore} (h : OwnOp c cfg node s label s')
    (hlabel : HandsIn S P label) (hnode : node ∈ S) (hs : s.Within P) : s'.Within P := by
  cases h with
  | admitBundle hadmit => exact hs.admitChecked (hlabel hnode) hadmit
  | take => exact hs.removeAll _
  | sweep => exact hs.removeAll _

lemma Confined.stores_step (hjson : json.RoundTrip) (hw : Wired json w)
    (h : Confined json S P w) (hlabel : HandsIn S P label) :
    ∀ i ∈ S, ((w.step c cfg json label).store i).Within P := by
  intro i hi
  cases effect_step c cfg json w label with
  | still hstores _ _ =>
    rw [hstores]
    exact h.stores i hi
  | opened _ _ _ hstores _ =>
    rw [hstores]
    exact h.stores i hi
  | own node s hop hw' =>
    rw [hw', store_setStore]
    split_ifs with hnode
    · obtain ⟨rfl, -⟩ := hnode
      exact hop.within hlabel hi (h.stores i hi)
    · exact h.stores i hi
  | ran k link pairLabel hk hpairLabel hstores _ =>
    have hquiet : ∀ x store, pairLabel ≠ .interfere x store := by
      rintro x store rfl
      rcases hpairLabel with ⟨_, _, _, _, hadvance⟩ | ⟨_, hdrop⟩
      · cases hadvance
      · cases hdrop
    obtain ⟨hself, hrest⟩ := store_onLink c cfg pairLabel hw hk
    obtain ⟨-, -, hordered⟩ := hw.of_getElem? hk
    rw [store_of_stores hstores]
    by_cases hx : ∃ x, i = link.node x
    · obtain ⟨x, rfl⟩ := hx
      rw [hself]
      rcases h.links link (List.mem_of_getElem? hk) with hfin | hout | ⟨hin, htraffic⟩
      · rw [(SyncPair.step_of_finished c (cfg ∘ link.node) hjson hordered hfin hquiet x).1]
        exact h.stores _ hi
      · exact absurd hi (hout x)
      · have hstores' := (htraffic.step c (cfg ∘ link.node) hjson hordered
          (fun y => h.stores _ (hin y)) hquiet).2 x
        exact fun bytes hb => (hstores' bytes hb).elim id id
    · rw [hrest i fun x hix => hx ⟨x, hix⟩]
      exact h.stores i hi

lemma Confined.links_step (hjson : json.RoundTrip) (hw : Wired json w)
    (h : Confined json S P w) (hcut : Cut S w) :
    ∀ link ∈ (w.step c cfg json label).links, (∀ x, (link.side x).pc.isFinished = true) ∨
      (∀ x, link.node x ∉ S) ∨
      (∀ x, link.node x ∈ S) ∧
        SyncPair.Traffic json (fun _ => P) ((w.step c cfg json label).pair link) := by
  refine (effect_step c cfg json w label).forall_links ?_ ?_ ?_
  · intro link old hold hnode hside
    rw [hnode, hside]
    rcases h.links old hold with hfin | hout | ⟨hin, htraffic⟩
    · exact Or.inl hfin
    · exact Or.inr (Or.inl hout)
    · exact Or.inr (Or.inr ⟨hin, traffic_congr hside htraffic⟩)
  · intro dialer target hreach
    right
    by_cases hdialer : dialer ∈ S
    · right
      have htarget : target ∈ S := by
        by_contra hnot
        rw [hcut dialer hdialer target hnot] at hreach
        cases hreach
      refine ⟨fun x => by cases x <;> assumption, ?_⟩
      rw [pair_fresh]
      exact SyncPair.traffic_start _
    · left
      have htarget : target ∉ S := by
        intro hmem
        rw [SimNetwork.reachable_comm, hcut target hmem dialer hdialer] at hreach
        cases hreach
      exact fun x => by cases x <;> assumption
  · intro k link pairLabel hk hquiet
    obtain ⟨-, -, hordered⟩ := hw.of_getElem? hk
    rcases h.links link (List.mem_of_getElem? hk) with hfin | hout | ⟨hin, htraffic⟩
    · left
      intro x
      have hpc := (SyncPair.step_of_finished c (cfg ∘ link.node) hjson hordered hfin
        hquiet x).2
      cases x with
      | a => exact (congrArg SyncPc.isFinished hpc).trans (hfin .a)
      | b => exact (congrArg SyncPc.isFinished hpc).trans (hfin .b)
    · right
      left
      rw [node_save]
      exact hout
    · right
      right
      rw [node_save]
      have hnext := (htraffic.step c (cfg ∘ link.node) hjson hordered
        (fun y => h.stores _ (hin y)) hquiet).1
      exact ⟨hin, traffic_save hnext⟩

/-- What a part of the mesh holds after it has been cut off from the rest, with no session
left on a link between the two, it has held before the cut, or one of its own nodes has
handed it in since. -/
theorem partition_isolates (c : Crates) (cfg : ℕ → RelayConfig) (json : SyncJson)
    (hjson : json.RoundTrip) (S : Set ℕ) (pre post : List NetLabel)
    (hidle : ∀ link ∈ (run (step c cfg json) {} pre).links, (∃ x, link.node x ∈ S) →
      (∃ x, link.node x ∉ S) → ∀ x, (link.side x).pc.isFinished = true)
    (hcut : EveryState (step c cfg json) (Cut S) (run (step c cfg json) {} pre) post) :
    ∀ i ∈ S, ∀ bytes, ((run (step c cfg json) {} (pre ++ post)).store i).Holds bytes →
      (∃ j ∈ S, EverHeld c cfg json pre j bytes) ∨
        ∃ j ∈ S, ∃ nowMs, NetLabel.admitBundle j nowMs bytes ∈ post := by
  let P : Bytes → Prop := fun bytes => (∃ j ∈ S, EverHeld c cfg json pre j bytes) ∨
    ∃ j ∈ S, ∃ nowMs, NetLabel.admitBundle j nowMs bytes ∈ post
  have hstart : Confined json S P (run (step c cfg json) {} pre) := by
    refine ⟨fun i hi bytes hb => Or.inl ⟨i, hi, pre, List.prefix_rfl, hb⟩, fun link hmem => ?_⟩
    by_cases hin : ∃ x, link.node x ∈ S
    · by_cases hout : ∃ x, link.node x ∉ S
      · exact Or.inl (hidle link hmem hin hout)
      · right
        right
        push Not at hout
        exact ⟨hout, (traced_run hjson pre link hmem).mono
          fun x bytes hb => Or.inl ⟨_, hout x, hb⟩⟩
    · right
      left
      push Not at hin
      exact hin
  have hhanded : ∀ label ∈ post, HandsIn S P label := by
    intro label hlabel
    cases label with
    | admitBundle node nowMs bytes => exact fun hnode => Or.inr ⟨node, hnode, nowMs, hlabel⟩
    | _ => trivial
  have hstep : ∀ (w : MeshNet) label, Wired json w ∧ Confined json S P w →
      Cut S w ∧ HandsIn S P label → Wired json (w.step c cfg json label) ∧
        Confined json S P (w.step c cfg json label) := by
    rintro w label ⟨hwired, hconfined⟩ ⟨hcut, hlabel⟩
    exact ⟨wired_step hjson hwired label, hconfined.stores_step hjson hwired hlabel,
      hconfined.links_step hjson hwired hcut⟩
  have hrun := (everyState_of_everyStep hstep ⟨wired_run c cfg hjson pre, hstart⟩
    (hcut.everyStep.and (everyStep_of_forall_mem _ hhanded))).last
  intro i hi bytes hb
  rw [run_append] at hb
  exact hrun.2.stores i hi bytes hb

lemma Cut.step (h : Cut S w) (hlabel : label.staysPut = true) :
    Cut S (w.step c cfg json label) := by
  intro i hi j hj
  rw [reachable_step w hlabel]
  exact h i hi j hj

end Cuts

section Sample

/-- Device 2 hands a bundle in and is cut off from devices 0 and 1. -/
def cutOff : List NetLabel :=
  [.register (List.Vector.replicate 16 0), .register (List.Vector.replicate 16 1),
    .register (List.Vector.replicate 16 2), .admitBundle 2 2000 (carriedBundle 2), .sever 0 2, .sever 1 2]

/-- The other two hand a bundle in and begin to sync it. -/
def apartFrom : List NetLabel :=
  [.admitBundle 0 2000 (carriedBundle 0), .scan 1 .insertion, .dial 0, .accept 0,
    .advance 0 .a 2000 .insertion, .advance 0 .b 2000 .insertion]

/-- Whatever devices 0 and 1 sync, the bundle of device 2 does not reach them. -/
theorem partition_isolates_cutOff :
    let w := run (step localCrates (fun _ => {}) localSyncJson) {} (cutOff ++ apartFrom)
    ¬(w.store 0).Holds (carriedBundle 2) ∧ ¬(w.store 1).Holds (carriedBundle 2) := by
  have hcut : Cut {i | i < 2} (run (step localCrates (fun _ => {}) localSyncJson) {} cutOff) := by
    intro i hi j hj
    rw [Set.mem_ofPred_eq] at hi hj
    by_contra hreach
    rw [Bool.not_eq_false] at hreach
    have hlt := SimNetwork.lt_of_isOnline (SimNetwork.reachable_iff.mp hreach).2.2.1
    have hdevices : (run (step localCrates (fun _ => {}) localSyncJson) {}
        cutOff).network.devices.length = 3 := rfl
    obtain rfl : j = 2 := by omega
    have hsevered : ∀ i < 2, (run (step localCrates (fun _ => {}) localSyncJson) {}
        cutOff).network.reachable i 2 = false := by decide +kernel
    rw [hsevered i hi] at hreach
    cases hreach
  have hstep : ∀ (w : MeshNet) label, Cut {i | i < 2} w → label.staysPut = true →
      Cut {i | i < 2} (w.step localCrates (fun _ => {}) localSyncJson label) :=
    fun w label h hlabel => h.step hlabel
  have hcuts := everyState_of_everyStep hstep hcut
    (everyStep_of_forall_mem _ (by decide : ∀ label ∈ apartFrom, label.staysPut = true))
  have hapart : ∀ i < 2, ¬((run (step localCrates (fun _ => {}) localSyncJson) {}
      (cutOff ++ apartFrom)).store i).Holds (carriedBundle 2) := by
    intro i hi hholds
    rcases partition_isolates localCrates (fun _ => {}) localSyncJson localSyncJson_roundTrip
      {i | i < 2} cutOff apartFrom nofun hcuts i hi _ hholds with
      ⟨j, hj, pre, hpre, hheld⟩ | ⟨j, hj, nowMs, hmem⟩
    · have hempty : ∀ pre ∈ cutOff.inits, ∀ j < 2, ((run (step localCrates (fun _ => {})
          localSyncJson) {} pre).store j).byHash.entries = [] := by decide +kernel
      obtain ⟨e, he, -⟩ := RelayStore.holds_iff.mp hheld
      rw [hempty pre ((List.mem_inits _ _).mpr hpre) j hj] at he
      cases he
    · have hdistinct : carriedBundle 2 ≠ carriedBundle 0 := by decide +kernel
      simp [apartFrom, hdistinct] at hmem
  exact ⟨hapart 0 (by decide), hapart 1 (by decide)⟩

end Sample

end MeshNet

end Parda.Mesh
