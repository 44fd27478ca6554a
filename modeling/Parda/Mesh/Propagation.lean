import Mathlib.Algebra.Order.BigOperators.Group.Finset
import Parda.Lib.Flooding
import Parda.Mesh.Convergence
import Parda.Mesh.Partition
import Parda.Mesh.Transfer

/-!
# How far bundles travel

A bundle that a node of the mesh holds travels along every chain of nodes that reach each
other. In a round every node completes a call of `sync_once`; sessions of a round run side
by side, on the same stores, and while other bundles are handed in. Whatever their order,
a node has after the round all that a neighbour held before it, or has taken in as many
bundles as a session may carry.
-/

namespace Parda.Mesh

open Protocol Machine RelayStore

section Sessions

variable {c : Crates} {json : SyncJson}

/-- A session takes nothing out of a store in which nothing has expired. -/
lemma syncStep_keeps {cfg : RelayConfig} {s : RelayStore} {pc : SyncPc} {nowMs : UInt64}
    {event : SyncEvent} (hevent : ∀ t order, event = .advance t order → t = nowMs)
    (hlive : ∀ h b, s.byHash.lookup h = some b → nowMs < b.expiryMs) :
    Keeps s (syncStep c cfg s pc event).2.1 := by
  rcases syncStep_store c cfg s pc event with
    hsame | ⟨-, t, order, hadvance, hswept⟩ | ⟨_, _, t, bytes, s', -, -, had, hstored⟩
  · rw [hsame]
    exact Keeps.refl s
  · rw [hswept, hevent t order hadvance, sweepExpired_eq_self hlive]
    exact Keeps.refl s
  · rw [hstored]
    exact fun _ _ hb => admitChecked_keeps had hb

lemma RelayStore.Keeps.storedCount_le {s t : RelayStore} (h : Keeps s t) :
    s.storedCount ≤ t.storedCount := by
  have hle := (List.subperm_of_subset s.byHash.keys_nodup h.keys).length_le
  have hkeys : ∀ s : RelayStore, s.byHash.keys.length = s.storedCount := fun s => List.length_map _
  rwa [hkeys, hkeys] at hle

namespace SyncPair

variable {cfg : Side → RelayConfig} {base : Side → RelayStore} {w : SyncPair}

/-- The step is a session's own, and nothing has expired when it reads the clock. -/
def Spares (w : SyncPair) : PairLabel → Prop
  | .advance _ nowMs _ => w.Live nowMs
  | .drop _ => True
  | .interfere _ _ => False

lemma keeps_step (hjson : json.RoundTrip) (hw : w.Ordered json) {label : PairLabel}
    (hlabel : w.Spares label) (x : Side) :
    Keeps (w x).store (w.step c cfg json label x).store := by
  cases label with
  | interfere y store => exact absurd hlabel not_false
  | drop y =>
    rw [(step_drop w y x).1]
    exact Keeps.refl _
  | advance y nowMs order =>
    have hrun : ∀ event, (∀ t order, event = .advance t order → t = nowMs) →
        Keeps (w y).store (syncStep c (cfg y) (w y).store (w y).pc event).2.1 :=
      fun event hevent => syncStep_keeps hevent (hlabel y)
    have hadv : Advanced c cfg json w y nowMs order (w.step c cfg json (.advance y nowMs order)) :=
      advance_cases hjson hw y nowMs order
    generalize w.step c cfg json (.advance y nowMs order) = w' at hadv
    revert x
    cases hadv with
    | idle _ => exact fun x => Keeps.refl _
    | ran hwait hfin hsilent =>
      refine (Side.forall_iff y).mpr ⟨?_, by simpa using Keeps.refl _⟩
      simpa [SyncEnd.after] using hrun _ fun t order h => by cases h; rfl
    | sent message bytes hwait hfin hmessage hbytes =>
      refine (Side.forall_iff y).mpr ⟨?_, by simpa using Keeps.refl _⟩
      simpa [SyncEnd.after] using hrun _ fun t order h => by cases h; rfl
    | received message bytes rest hwait hinbox hbytes =>
      refine (Side.forall_iff y).mpr ⟨?_, by simpa using Keeps.refl _⟩
      simpa [SyncEnd.after] using
        hrun (.receive nowMs (.ok message)) fun t order h => SyncEvent.noConfusion h

/-- Others may add to both stores. -/
lemma Transferring.keeps (h : Transferring cfg json base w) {s : Side → RelayStore}
    (hs : ∀ x, Keeps (w x).store (s x)) :
    Transferring cfg json base fun x => { w x with store := s x } :=
  fun x => (h x).keeps (hs x) (hs x.other)

end SyncPair

end Sessions

namespace MeshNet

/-- The step hands bundles over to their recipient. -/
def handsOver : NetLabel → Bool
  | .take _ _ _ => true
  | _ => false

/-- The time that a step reads. -/
def clock : NetLabel → Option UInt64
  | .sweep _ _ nowMs | .advance _ _ nowMs _ => some nowMs
  | _ => none

/-- The step neither changes who reaches whom, nor hands bundles over to their recipient,
nor comes after the expiry of a bundle in a store. -/
structure Calm (w : MeshNet) (label : NetLabel) : Prop where
  staysPut : label.staysPut = true
  kept : handsOver label = false
  live : ∀ nowMs, clock label = some nowMs → ∀ i h b, (w.store i).byHash.lookup h = some b →
    nowMs < b.expiryMs

/-- Every store has room for all of `P`. -/
structure Fits (cfg : ℕ → RelayConfig) (P : Finset Bytes) : Prop where
  count : ∀ i, P.card ≤ (cfg i).maxTotalBundles
  bytes : ∀ i, ∑ bytes ∈ P, bytes.length ≤ (cfg i).maxTotalBytes

/-- A wired mesh of accounted stores in which only bundles of `P` are around. -/
structure Sound (c : Crates) (cfg : ℕ → RelayConfig) (json : SyncJson) (P : Finset Bytes)
    (w : MeshNet) : Prop where
  wired : Wired json w
  accounted : ∀ i, Accounted c (cfg i) (w.store i)
  confined : Confined json Set.univ (· ∈ P) w

section Steps

variable {c : Crates} {cfg : ℕ → RelayConfig} {json : SyncJson} {P : Finset Bytes} {w : MeshNet}
  {label : NetLabel}

lemma accounted_step (hjson : json.RoundTrip) (hw : Wired json w)
    (h : ∀ i, Accounted c (cfg i) (w.store i)) (i : ℕ) :
    Accounted c (cfg i) ((w.step c cfg json label).store i) := by
  cases effect_step c cfg json w label with
  | still hstores _ _ =>
    rw [hstores]
    exact h i
  | opened _ _ _ hstores _ =>
    rw [hstores]
    exact h i
  | own node s hop hw' =>
    rw [hw', store_setStore]
    split_ifs with hnode
    · obtain ⟨rfl, -⟩ := hnode
      cases hop with
      | admitBundle hadmit => exact (h i).admitChecked hadmit
      | take => exact (h i).removeAll _
      | sweep => exact (h i).removeAll _
    · exact h i
  | ran k link pairLabel hk hpairLabel hstores _ =>
    obtain ⟨hself, hrest⟩ := store_onLink c cfg pairLabel hw hk
    obtain ⟨-, -, hordered⟩ := hw.of_getElem? hk
    rw [store_of_stores hstores]
    by_cases hx : ∃ x, i = link.node x
    · obtain ⟨x, rfl⟩ := hx
      rw [hself]
      have hquiet : Undisturbed (fun _ => {}) pairLabel := by
        rcases hpairLabel with ⟨_, _, _, -, rfl⟩ | ⟨_, rfl⟩
        · exact fun x h b hb => by simp at hb
        · trivial
      exact Mesh.accounted_step (c := c) hjson hordered (fun y => h (link.node y)) pairLabel hquiet x
    · rw [hrest i fun x hix => hx ⟨x, hix⟩]
      exact h i

lemma Sound.step (hjson : json.RoundTrip) (h : Sound c cfg json P w)
    (hlabel : HandsIn Set.univ (· ∈ P) label) : Sound c cfg json P (w.step c cfg json label) := by
  have hcut : Cut Set.univ w := fun i _ j hj => absurd (Set.mem_univ j) hj
  exact ⟨wired_step hjson h.wired label, accounted_step hjson h.wired h.accounted,
    h.confined.stores_step hjson h.wired hlabel, h.confined.links_step hjson h.wired hcut⟩

lemma sound_start : Sound c cfg json P {} where
  wired := wired_start
  accounted i := accounted_empty
  confined := ⟨fun i _ bytes hb => by
    obtain ⟨h, b, hlookup, -⟩ := hb
    simp [store] at hlookup, fun link hmem => by cases hmem⟩

lemma everyState_sound (hjson : json.RoundTrip) (hw : Sound c cfg json P w) {labels : List NetLabel}
    (hlabels : ∀ label ∈ labels, HandsIn Set.univ (· ∈ P) label) :
    EveryState (MeshNet.step c cfg json) (Sound c cfg json P) w labels := by
  have hstep : ∀ (t : MeshNet) label, Sound c cfg json P t → HandsIn Set.univ (· ∈ P) label →
      Sound c cfg json P (t.step c cfg json label) := fun t label h hlabel => h.step hjson hlabel
  exact everyState_of_everyStep hstep hw (everyStep_of_forall_mem w hlabels)

/-- Next to the bundles of `P` in an accounted store there is room for one more. -/
lemma room_of_fits {mine theirs : RelayStore} {cfg cfg' : RelayConfig} (hmine : Accounted c cfg mine)
    (htheirs : Accounted c cfg' theirs) (hmineP : mine.Within (· ∈ P))
    (htheirsP : theirs.Within (· ∈ P)) (hcount : P.card ≤ cfg.maxTotalBundles)
    (hbytes : ∑ bytes ∈ P, bytes.length ≤ cfg.maxTotalBytes) :
    SyncPair.RoomAt cfg mine theirs := by
  intro h b hb hnone
  have hbP : b.bytes ∈ P := htheirsP b.bytes ⟨h, b, hb, rfl⟩
  have hheld : (mine.byHash.entries.map (fun e => e.2.bytes)).toFinset ⊆ P.erase b.bytes := by
    intro bytes hmem
    rw [List.mem_toFinset, List.mem_map] at hmem
    obtain ⟨e, he, rfl⟩ := hmem
    rw [Finset.mem_erase]
    refine ⟨?_, hmineP _ (holds_iff.mpr ⟨e, he, rfl⟩)⟩
    -- the same bytes would be under the same hash
    intro heq
    have hlookup : mine.byHash.lookup e.1 = some e.2 := AList.mem_lookup_iff.mpr he
    rw [hmine.keyed e.1 e.2 hlookup, heq, ← htheirs.keyed h b hb, hnone] at hlookup
    cases hlookup
  have hnodup := hmine.bytes_nodup
  constructor
  · have hcard := Finset.card_le_card hheld
    rw [List.toFinset_card_of_nodup hnodup, List.length_map, Finset.card_erase_of_mem hbP] at hcard
    have hpos : 0 < P.card := Finset.card_pos.mpr ⟨_, hbP⟩
    change mine.byHash.entries.length < _
    omega
  · have hsum : (mine.byHash.entries.map fun e => e.2.bytes.length).sum ≤
        ∑ bytes ∈ P.erase b.bytes, bytes.length := by
      have hle := Finset.sum_le_sum_of_subset (f := List.length) hheld
      rwa [List.sum_toFinset _ hnodup, List.map_map] at hle
    have htotal : mine.totalBytes = (mine.byHash.entries.map fun e => e.2.bytes.length).sum :=
      hmine.total
    have hsplit : ∑ bytes ∈ P.erase b.bytes, bytes.length + b.bytes.length =
        ∑ bytes ∈ P, bytes.length := Finset.sum_erase_add P List.length hbP
    omega

/-- The two sessions of a link meet stores with room, in which nothing has expired. -/
lemma Sound.fertile (h : Sound c cfg json P w) (hP : Fits cfg P) (link : SimLink) {nowMs : UInt64}
    (hlive : ∀ i h b, (w.store i).byHash.lookup h = some b → nowMs < b.expiryMs) :
    SyncPair.Fertile c (cfg ∘ link.node) (w.pair link) nowMs where
  accounted x := h.accounted (link.node x)
  room x := room_of_fits (h.accounted (link.node x)) (h.accounted (link.node x.other))
    (h.confined.stores _ trivial) (h.confined.stores _ trivial) (hP.count _) (hP.bytes _)
  live x := hlive (link.node x)

/-- A calm step takes nothing out of any store. -/
lemma keeps_step (hjson : json.RoundTrip) (hw : Wired json w) (hcalm : Calm w label) (i : ℕ) :
    Keeps (w.store i) ((w.step c cfg json label).store i) := by
  cases effect_step c cfg json w label with
  | still hstores _ _ =>
    rw [hstores]
    exact Keeps.refl _
  | opened _ _ _ hstores _ =>
    rw [hstores]
    exact Keeps.refl _
  | own node s hop hw' =>
    rw [hw', store_setStore]
    split_ifs with hnode
    · obtain ⟨rfl, -⟩ := hnode
      cases hop with
      | admitBundle hadmit => exact fun _ _ hb => admitChecked_keeps hadmit hb
      | take => exact absurd hcalm.kept (by simp [handsOver])
      | sweep =>
        rw [sweepExpired_eq_self (hcalm.live _ rfl i)]
        exact Keeps.refl _
    · exact Keeps.refl _
  | ran k link pairLabel hk hpairLabel hstores _ =>
    obtain ⟨hself, hrest⟩ := store_onLink c cfg pairLabel hw hk
    obtain ⟨-, -, hordered⟩ := hw.of_getElem? hk
    rw [store_of_stores hstores]
    by_cases hx : ∃ x, i = link.node x
    · obtain ⟨x, rfl⟩ := hx
      rw [hself]
      apply SyncPair.keeps_step hjson hordered
      rcases hpairLabel with ⟨_, nowMs, _, rfl, rfl⟩ | ⟨_, rfl⟩
      · exact fun y => hcalm.live nowMs rfl (link.node y)
      · trivial
    · rw [hrest i fun x hix => hx ⟨x, hix⟩]
      exact Keeps.refl _

end Steps

/-- `i` has all that `j` held in `w₀`, or has taken in `cap` bundles since. -/
def CaughtUp (cap : ℕ) (w₀ w : MeshNet) (i j : ℕ) : Prop :=
  (w₀.store j).byHash.keys ⊆ (w.store i).byHash.keys ∨
    (w₀.store i).storedCount + cap ≤ (w.store i).storedCount

/-- The pass has still to come to `j`, or is waiting for its session with `j`. -/
def Pending (w : MeshNet) (pass : Pass) (j : ℕ) : Prop :=
  (∃ token, ⟨.simulated j, token⟩ ∈ pass.rest) ∨
    ∃ k link, pass.link = some k ∧ w.links[k]? = some link ∧ link.target = j

/-- The pass is going to come to every device it saw, or has. -/
structure OnCourse (cap : ℕ) (w₀ w : MeshNet) (pass : Pass) : Prop where
  fresh : ∀ k, pass.link = some k → w₀.links.length ≤ k
  peers : ∀ j, w₀.network.reachable pass.node j = true →
    Pending w pass j ∨ CaughtUp cap w₀ w pass.node j

/-- How far a round that began in `w₀` has come, for the links and passes it opened. -/
structure InRound (cfg : ℕ → RelayConfig) (json : SyncJson) (cap : ℕ) (w₀ w : MeshNet) : Prop where
  air : ∀ a b, w.network.reachable a b = w₀.network.reachable a b
  grown : ∀ i, Keeps (w₀.store i) (w.store i)
  opened : w₀.links.length ≤ w.links.length
  links : ∀ k link, w₀.links.length ≤ k → w.links[k]? = some link →
    SyncPair.Transferring (cfg ∘ link.node) json (fun x => w₀.store (link.node x)) (w.pair link)
  passes : ∀ p pass, w₀.passes.length ≤ p → w.passes[p]? = some pass → OnCourse cap w₀ w pass

section Round

variable {c : Crates} {cfg : ℕ → RelayConfig} {json : SyncJson} {P : Finset Bytes} {cap : ℕ}
  {w₀ w w' : MeshNet} {label : NetLabel}

lemma inRound_start (w : MeshNet) : InRound cfg json cap w w where
  air _ _ := rfl
  grown _ := Keeps.refl _
  opened := le_rfl
  links k link hk hlink := by
    rw [List.getElem?_eq_none hk] at hlink
    cases hlink
  passes p pass hp hpass := by
    rw [List.getElem?_eq_none hp] at hpass
    cases hpass

lemma CaughtUp.keeps {i j : ℕ} (h : CaughtUp cap w₀ w i j)
    (hkeeps : ∀ i, Keeps (w.store i) (w'.store i)) : CaughtUp cap w₀ w' i j := by
  rcases h with hall | hgrown
  · exact Or.inl (List.Subset.trans hall (hkeeps i).keys)
  · exact Or.inr (hgrown.trans (hkeeps i).storedCount_le)

lemma Pending.persists {pass : Pass} {j : ℕ} (h : Pending w pass j)
    (heffect : Effect c cfg json w label w') : Pending w' pass j := by
  rcases h with hrest | ⟨k, link, hlink, hk, rfl⟩
  · exact Or.inl hrest
  · obtain ⟨link', hk', hnode⟩ := heffect.node_persists hk
    exact Or.inr ⟨k, link', hlink, hk', congrFun hnode .b⟩

lemma OnCourse.persists {pass : Pass} (h : OnCourse cap w₀ w pass)
    (heffect : Effect c cfg json w label w') (hkeeps : ∀ i, Keeps (w.store i) (w'.store i)) :
    OnCourse cap w₀ w' pass := by
  refine ⟨h.fresh, fun j hreach => ?_⟩
  rcases h.peers j hreach with hpending | hcaught
  · exact Or.inl (hpending.persists heffect)
  · exact Or.inr (hcaught.keeps hkeeps)

/-- A link whose sessions stand still takes part in what others add to the two stores. -/
lemma transferring_still {link old : SimLink} (hnode : link.node = old.node)
    (hside : link.side = old.side) (hkeeps : ∀ i, Keeps (w.store i) (w'.store i))
    (h : SyncPair.Transferring (cfg ∘ old.node) json (fun x => w₀.store (old.node x)) (w.pair old)) :
    SyncPair.Transferring (cfg ∘ link.node) json (fun x => w₀.store (link.node x))
      (w'.pair link) := by
  have hpair : w'.pair link = fun x => { w.pair old x with store := w'.store (old.node x) } := by
    funext x
    unfold MeshNet.pair
    rw [hnode, hside]
  rw [hpair, hnode]
  exact h.keeps fun x => hkeeps (old.node x)

lemma InRound.links_step (hjson : json.RoundTrip) (h : InRound cfg json cap w₀ w)
    (hw : Sound c cfg json P w) (hP : Fits cfg P) (hcalm : Calm w label) {k : ℕ} {link : SimLink}
    (hfresh : w₀.links.length ≤ k) (hk : (w.step c cfg json label).links[k]? = some link) :
    SyncPair.Transferring (cfg ∘ link.node) json (fun x => w₀.store (link.node x))
      ((w.step c cfg json label).pair link) := by
  have hkeeps : ∀ i, Keeps (w.store i) ((w.step c cfg json label).store i) :=
    keeps_step hjson hw.wired hcalm
  cases effect_step c cfg json w label with
  | still _ _ hlinks =>
    obtain ⟨old, hold, hnode, hside⟩ := hlinks k link hk
    exact transferring_still hnode hside hkeeps (h.links k old hfresh hold)
  | opened dialer target _ _ hlinks =>
    rw [hlinks, List.getElem?_append] at hk
    split_ifs at hk with hlt
    · exact transferring_still rfl rfl hkeeps (h.links k link hfresh hk)
    · rw [List.getElem?_singleton] at hk
      split_ifs at hk with hzero
      · cases hk
        rw [pair_fresh]
        apply SyncPair.transferring_of_fresh
        · exact fun x => ⟨rfl, rfl⟩
        · intro x
          exact List.Subset.trans (h.grown _).keys (hkeeps _).keys
  | own node s _ hw' =>
    have hold : w.links[k]? = some link := by
      rw [hw'] at hk
      exact hk
    exact transferring_still rfl rfl hkeeps (h.links k link hfresh hold)
  | ran j link' pairLabel hj hpairLabel hstores hlinks =>
    rw [hlinks] at hk
    by_cases hjk : j = k
    · subst hjk
      obtain ⟨hlink', hpair⟩ := pair_onLink c cfg pairLabel hw.wired hj
      rw [hlink', Option.some.injEq] at hk
      subst hk
      obtain ⟨-, -, hordered⟩ := hw.wired.of_getElem? hj
      have hsame : ∀ link'' : SimLink, (w.step c cfg json label).pair link'' =
          (w.onLink c cfg json j pairLabel).pair link'' := by
        intro link''
        funext x
        unfold MeshNet.pair
        rw [store_of_stores hstores]
      rw [hsame, hpair, node_save]
      apply SyncPair.transferring_step hjson hordered (h.links j link' hfresh hj)
      rcases hpairLabel with ⟨_, nowMs, _, rfl, rfl⟩ | ⟨_, rfl⟩
      · exact hw.fertile hP link' (hcalm.live nowMs rfl)
      · trivial
    · rw [onLink_of_some hj] at hk
      have hold : w.links[k]? = some link := by simpa [List.getElem?_set_ne hjk] using hk
      exact transferring_still rfl rfl hkeeps (h.links k link hfresh hold)

lemma InRound.passes_step (hjson : json.RoundTrip) (h : InRound cfg json cap w₀ w)
    (hw : Sound c cfg json P w) (hcap : ∀ i, cap ≤ (cfg i).maxBundlesPerSession)
    (hcalm : Calm w label) {p : ℕ} {pass' : Pass} (hfresh : w₀.passes.length ≤ p)
    (hpass' : (w.step c cfg json label).passes[p]? = some pass') :
    OnCourse cap w₀ (w.step c cfg json label) pass' := by
  have hkeeps : ∀ i, Keeps (w.store i) ((w.step c cfg json label).store i) :=
    keeps_step hjson hw.wired hcalm
  have heffect := effect_step c cfg json w label
  cases passEffect_step c cfg json w label hpass' with
  | still hold => exact (h.passes p pass' hfresh hold).persists heffect hkeeps
  | began _ node order hpass' =>
    subst hpass'
    refine ⟨nofun, fun j hreach => Or.inl (Or.inl ?_)⟩
    rw [← h.air] at hreach
    exact (SimNetwork.handle_mem_scan hw.wired.advertised).mpr hreach
  | skipped pass sighting rest hpass hlink hrest hunreached hpass' =>
    subst hpass'
    have hcourse := (h.passes p pass hfresh hpass).persists heffect hkeeps
    refine ⟨hcourse.fresh, fun j hreach => ?_⟩
    rcases hcourse.peers j hreach with (⟨token, hmem⟩ | ⟨k, _, hk, -⟩) | hcaught
    · rw [hrest, List.mem_cons] at hmem
      rcases hmem with heq | hmem
      · -- a device that is reached is not skipped
        have hskipped := hunreached j (congrArg PeerSighting.handle heq).symm
        rw [h.air] at hskipped
        rw [hskipped] at hreach
        cases hreach
      · exact Or.inl (Or.inl ⟨token, hmem⟩)
    · rw [hlink] at hk
      cases hk
    · exact Or.inr hcaught
  | dialed pass target token rest hpass hlink hrest hlinks hpass' =>
    subst hpass'
    have hcourse := (h.passes p pass hfresh hpass).persists heffect hkeeps
    refine ⟨fun k hk => ?_, fun j hreach => ?_⟩
    · rw [Option.some.injEq] at hk
      exact hk ▸ h.opened
    · rcases hcourse.peers j hreach with (⟨token', hmem⟩ | ⟨k, _, hk, -⟩) | hcaught
      · rw [hrest, List.mem_cons] at hmem
        rcases hmem with heq | hmem
        · have htarget : j = target := by
            have hhandle := congrArg PeerSighting.handle heq
            cases hhandle
            rfl
          refine Or.inl (Or.inr ⟨_, { dialer := pass.node, target }, rfl, ?_, htarget.symm⟩)
          rw [hlinks, List.getElem?_append_right le_rfl]
          simp
        · exact Or.inl (Or.inl ⟨token', hmem⟩)
      · rw [hlink] at hk
        cases hk
      · exact Or.inr hcaught
  | settled pass k link totalAdmitted hpass hlink hk hfin hpass' =>
    subst hpass'
    have hcourse := h.passes p pass hfresh hpass
    refine ⟨nofun, fun j hreach => ?_⟩
    rcases hcourse.peers j hreach with (⟨token, hmem⟩ | ⟨k', link', hk', hlink', rfl⟩) | hcaught
    · exact Or.inl (Or.inl ⟨token, hmem⟩)
    · rw [hlink, Option.some.injEq] at hk'
      subst hk'
      rw [hk, Option.some.injEq] at hlink'
      subst hlink'
      obtain ⟨-, -, hordered⟩ := hw.wired.of_getElem? hk
      obtain ⟨link', hlink', hdialer⟩ := hw.wired.dialed pass (List.mem_of_getElem? hpass) k hlink
      rw [hk, Option.some.injEq] at hlink'
      subst hlink'
      have hpulled := (h.links k link (hcourse.fresh k hlink) hk).pulled hordered
        (show (w.pair link .a).pc.isFinished = true from hfin)
      have hcap' : cap ≤ sessionCap (cfg ∘ link.node) .a := le_min (hcap _) (hcap _)
      have hcaught : CaughtUp cap w₀ w link.dialer link.target :=
        hpulled.imp id fun hgrown => (Nat.add_le_add_left hcap' _).trans hgrown
      rw [hdialer] at hcaught
      exact Or.inr (hcaught.keeps hkeeps)
    · exact Or.inr (hcaught.keeps hkeeps)

lemma InRound.step (hjson : json.RoundTrip) (h : InRound cfg json cap w₀ w)
    (hw : Sound c cfg json P w) (hP : Fits cfg P) (hcap : ∀ i, cap ≤ (cfg i).maxBundlesPerSession)
    (hcalm : Calm w label) : InRound cfg json cap w₀ (w.step c cfg json label) where
  air a b := (reachable_step w hcalm.staysPut a b).trans (h.air a b)
  grown i := fun k b hb => keeps_step hjson hw.wired hcalm i k b (h.grown i k b hb)
  opened := h.opened.trans (effect_step c cfg json w label).length_le
  links _ _ hfresh hk := h.links_step hjson hw hP hcalm hfresh hk
  passes _ _ hfresh hp := h.passes_step hjson hw hcap hcalm hfresh hp

/-- A run of calm steps from a sound mesh, seen as a round. -/
lemma inRound_run (hjson : json.RoundTrip) (hw : Sound c cfg json P w) (hP : Fits cfg P)
    (hcap : ∀ i, cap ≤ (cfg i).maxBundlesPerSession) {labels : List NetLabel}
    (hcalm : EveryStep (MeshNet.step c cfg json) Calm w labels)
    (hlabels : ∀ label ∈ labels, HandsIn Set.univ (· ∈ P) label) :
    Sound c cfg json P (run (MeshNet.step c cfg json) w labels) ∧
      InRound cfg json cap w (run (MeshNet.step c cfg json) w labels) := by
  have hstep : ∀ (t : MeshNet) label, Sound c cfg json P t ∧ InRound cfg json cap w t →
      Calm t label ∧ HandsIn Set.univ (· ∈ P) label →
      Sound c cfg json P (t.step c cfg json label) ∧
        InRound cfg json cap w (t.step c cfg json label) := by
    rintro t label ⟨hsound, hround⟩ ⟨hcalm, hlabel⟩
    exact ⟨hsound.step hjson hlabel, hround.step hjson hsound hP hcap hcalm⟩
  exact (everyState_of_everyStep hstep ⟨hw, inRound_start w⟩
    (hcalm.and (everyStep_of_forall_mem w hlabels))).last

/-- Every registered node has completed a pass that it began after `w₀`. -/
def Completes (w₀ w : MeshNet) : Prop :=
  ∀ i < w₀.stores.length, ∃ p pass, w₀.passes.length ≤ p ∧ w.passes[p]? = some pass ∧
    pass.node = i ∧ pass.returned = true

lemma InRound.caughtUp (h : InRound cfg json cap w₀ w) (hcomplete : Completes w₀ w) {i j : ℕ}
    (hi : i < w₀.stores.length) (hreach : w₀.network.reachable i j = true) :
    CaughtUp cap w₀ w i j := by
  obtain ⟨p, pass, hp, hpass, rfl, hreturned⟩ := hcomplete i hi
  rw [Pass.returned, Bool.and_eq_true, List.isEmpty_iff, Option.isNone_iff_eq_none] at hreturned
  rcases (h.passes p pass hp hpass).peers j hreach with (⟨token, hmem⟩ | ⟨k, _, hk, -⟩) | hcaught
  · rw [hreturned.1] at hmem
    cases hmem
  · rw [hreturned.2] at hk
    cases hk
  · exact hcaught

end Round

section Flooding

variable (c : Crates) (cfg : ℕ → RelayConfig) (json : SyncJson)

/-- The state after the first `n` rounds. -/
def afterRounds (w : MeshNet) (rounds : List (List NetLabel)) (n : ℕ) : MeshNet :=
  run (step c cfg json) w (rounds.take n).flatten

variable {c cfg json} {P : Finset Bytes} {cap : ℕ} {w : MeshNet} {rounds : List (List NetLabel)}

lemma afterRounds_succ {n : ℕ} (hn : n < rounds.length) :
    afterRounds c cfg json w rounds (n + 1) =
      run (step c cfg json) (afterRounds c cfg json w rounds n) rounds[n] := by
  unfold afterRounds
  rw [List.take_succ_eq_append_getElem hn, List.flatten_append, run_append]
  simp

/-- The rounds of a calm run flood the graph of who reaches whom. -/
lemma flooding_rounds (hjson : json.RoundTrip) (hw : Sound c cfg json P w) (hP : Fits cfg P)
    (hcap : ∀ i, cap ≤ (cfg i).maxBundlesPerSession)
    (hcalm : EveryStep (step c cfg json) Calm w rounds.flatten)
    (hlabels : ∀ label ∈ rounds.flatten, HandsIn Set.univ (· ∈ P) label)
    (hcomplete : ∀ n < rounds.length, Completes (afterRounds c cfg json w rounds n)
      (afterRounds c cfg json w rounds (n + 1))) :
    Flooding.Rounds w.network.graph cap rounds.length (P.image (hashBundle c)) fun n i =>
      ((afterRounds c cfg json w rounds n).store i).byHash.keys.toFinset := by
  have hrun : ∀ n, Sound c cfg json P (afterRounds c cfg json w rounds n) ∧
      InRound cfg json cap w (afterRounds c cfg json w rounds n) := by
    intro n
    have hsplit : rounds.flatten = (rounds.take n).flatten ++ (rounds.drop n).flatten := by
      rw [← List.flatten_append, List.take_append_drop]
    rw [hsplit] at hcalm hlabels
    exact inRound_run hjson hw hP hcap (everyStep_append.mp hcalm).1 fun label hmem =>
      hlabels label (List.mem_append_left _ hmem)
  have hround : ∀ n < rounds.length, InRound cfg json cap (afterRounds c cfg json w rounds n)
      (afterRounds c cfg json w rounds (n + 1)) := by
    intro n hn
    have hsplit : rounds.flatten =
        (rounds.take n).flatten ++ (rounds[n] ++ (rounds.drop (n + 1)).flatten) := by
      rw [← List.flatten_cons, ← List.drop_eq_getElem_cons hn, ← List.flatten_append,
        List.take_append_drop]
    rw [hsplit] at hcalm hlabels
    rw [afterRounds_succ hn]
    have hhere := (everyStep_append.mp (everyStep_append.mp hcalm).2).1
    exact (inRound_run hjson (hrun n).1 hP hcap hhere fun label hmem =>
      hlabels label (List.mem_append_right _ (List.mem_append_left _ hmem))).2
  constructor
  · intro n hn i h hmem
    rw [List.mem_toFinset] at hmem ⊢
    exact ((hround n hn).grown i).keys hmem
  · intro n _ i h hmem
    obtain ⟨hsound, -⟩ := hrun n
    rw [List.mem_toFinset, ← AList.mem_keys, ← AList.lookup_isSome, Option.isSome_iff_exists] at hmem
    obtain ⟨b, hb⟩ := hmem
    rw [(hsound.accounted i).keyed h b hb]
    exact Finset.mem_image_of_mem _ (hsound.confined.stores i trivial _ ⟨h, b, hb, rfl⟩)
  · intro n hn i j hadj
    obtain ⟨hsound, hsofar⟩ := hrun n
    have hreach : (afterRounds c cfg json w rounds n).network.reachable i j = true :=
      (hsofar.air i j).trans hadj
    have hi := SimNetwork.lt_of_isOnline (SimNetwork.reachable_iff.mp hreach).2.1
    rw [← hsound.wired.registered] at hi
    have hkeys : ∀ s : RelayStore, s.byHash.keys.toFinset.card = s.storedCount := fun s =>
      (List.toFinset_card_of_nodup s.byHash.keys_nodup).trans (List.length_map _)
    rcases (hround n hn).caughtUp (hcomplete n hn) hi hreach with hall | hgrown
    · left
      intro h hmem
      rw [List.mem_toFinset] at hmem ⊢
      exact hall hmem
    · right
      rw [hkeys, hkeys]
      exact hgrown

end Flooding

section Sample

/-- In a sound mesh a step is calm that comes before the expiry of all that is around. -/
lemma Sound.calm {c : Crates} {cfg : ℕ → RelayConfig} {json : SyncJson} {P : Finset Bytes}
    {w : MeshNet} {label : NetLabel} (h : Sound c cfg json P w) (hlabel : label.staysPut = true)
    (hkept : handsOver label = false) (hlive : ∀ nowMs, clock label = some nowMs → ∀ bytes ∈ P, ∀ expiry,
      expiryMs c bytes = .ok expiry → nowMs < expiry) : Calm w label := by
  refine ⟨hlabel, hkept, fun nowMs hclock i k b hb => ?_⟩
  have hmem := h.confined.stores i trivial _ ⟨k, b, hb, rfl⟩
  exact hlive nowMs hclock _ hmem _ ((h.accounted i).decoded k b hb).expiry

/-- Two devices, of which the second has a bundle. -/
def meeting : List NetLabel :=
  [.register (List.Vector.replicate 16 0), .register (List.Vector.replicate 16 1),
    .admitBundle 1 2000 (carriedBundle 0)]

/-- The two ends of a link, in turn. -/
def backAndForth (k : ℕ) : List NetLabel :=
  (List.replicate 12 [NetLabel.advance k .a 2000 .insertion, .advance k .b 2000 .insertion]).flatten

/-- A call of `sync_once` at each device. -/
def bothPasses : List NetLabel :=
  [.scan 0 .insertion, .scan 1 .insertion, .dial 0, .accept 1] ++ backAndForth 0 ++
    [.settle 0, .dial 1, .accept 0] ++ backAndForth 1 ++ [.settle 1]

end Sample

end MeshNet

end Parda.Mesh
