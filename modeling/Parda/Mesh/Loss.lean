import Parda.Mesh.Delivery

/-!
# Lost bundles

The watermark moves only over contiguous claims, so it never passes an index whose
bundle is lost for good, and nothing from one window past that index on is ever polled
for. Up to there, enough receives return every bundle that arrives.
-/

namespace Parda.Mesh

open Protocol

namespace Channel

/-- The bytes of some bundle that the sender has sent. -/
def IsSent (w : Channel) (bytes : Bytes) : Prop := ∃ b ∈ w.sent, b.bytes = bytes

/-- Peers pass on nothing but the sender's bundles. -/
def Honest (w : Channel) : ChannelLabel → Prop
  | .receiverRelay _ event => event.Within w.IsSent
  | _ => True

instance decidableIsSent (w : Channel) (bytes : Bytes) : Decidable (w.IsSent bytes) :=
  inferInstanceAs (Decidable (∃ b ∈ w.sent, b.bytes = bytes))

instance decidableHonest (w : Channel) : ∀ label, Decidable (Honest w label)
  | .receiverRelay _ (.receive _ (.ok (.bundle bytes))) =>
    inferInstanceAs (Decidable (w.IsSent bytes))
  | .receiverRelay _ (.receive _ (.ok (.haveHashes _))) => .isTrue trivial
  | .receiverRelay _ (.receive _ (.ok (.want _))) => .isTrue trivial
  | .receiverRelay _ (.receive _ (.ok .done)) => .isTrue trivial
  | .receiverRelay _ (.receive _ (.error _)) => .isTrue trivial
  | .receiverRelay _ (.advance _ _) => .isTrue trivial
  | .receiverRelay _ (.broken _) => .isTrue trivial
  | .send _ _ _ => .isTrue trivial
  | .receive _ _ => .isTrue trivial
  | .senderRelay _ _ => .isTrue trivial
  | .senderSweep _ _ => .isTrue trivial
  | .receiverSweep _ _ => .isTrue trivial

/-- No bundle of an index in `lost` is at the receiver's relay. -/
def NoneStored (lost : Set ℕ) (w : Channel) : Prop :=
  ∀ b ∈ w.sent, b.index ∈ lost → ¬w.Holds b.bytes

/-- Index `n` was returned, or a bundle sent at `n` is at the receiver's relay. -/
def Arrived (w : Channel) (n : ℕ) : Prop :=
  n ∈ w.returnedIndices ∨ ∃ b ∈ w.sent, b.index = n ∧ w.Holds b.bytes

/-- A sweep at `nowMs` comes before the expiry of every stored bundle up to index `n`. -/
def Unexpired (n : ℕ) (w : Channel) (nowMs : UInt64) : Prop :=
  ∀ h s, w.receiver.agent.store.byHash.lookup h = some s →
    (∃ b ∈ w.sent, b.index ≤ n ∧ b.bytes = s.bytes) → nowMs < s.expiryMs

/-- No decoy of a poll is the address of an index up to `n`. -/
def DecoysMiss (c : Crates) (n : ℕ) (w : Channel) (rng : PollRng) : Prop :=
  ∀ m ≤ n, w.receiver.transport.tagKey.addressFor c m ∉
    rng.decoys w.receiver.transport.window w.receiver.transport.decoysPerReal

instance decidableDecoysMiss (c : Crates) (n : ℕ) (w : Channel) (rng : PollRng) :
    Decidable (w.DecoysMiss c n rng) :=
  inferInstanceAs (Decidable (∀ m ≤ n, _ ∉ _))

/-- The step removes no unclaimed bundle up to index `n`. -/
def Undisturbed (c : Crates) (n : ℕ) (w : Channel) : ChannelLabel → Prop
  | .receive rng _ => w.DecoysMiss c n rng
  | .receiverRelay i event =>
    ∀ nowMs, w.receiver.agent.sweepsAt (.session i event) = some nowMs → w.Unexpired n nowMs
  | .receiverSweep _ nowMs => w.Unexpired n nowMs
  | _ => True

def isReceive : ChannelLabel → Bool
  | .receive _ _ => true
  | _ => false

section Run

variable {c : Crates} {cfg : ChannelConfig} {t : TagKey} {window n : ℕ} {w : Channel}

lemma sendCounter_le_step (label : ChannelLabel) :
    w.sender.transport.sendCounter ≤ (step c cfg w label).sender.transport.sendCounter := by
  cases label with
  | send wrapMs admitMs envelope =>
    change _ ≤ (w.sendStep c cfg wrapMs admitMs envelope).sender.transport.sendCounter
    rcases sendStep_cases c cfg w wrapMs admitMs envelope with h | ⟨t', s, bytes, hsend, -, h⟩
    · rw [h]
    · obtain ⟨_, _, -, -, -, rfl⟩ := MeshTransport.send_cases hsend
      rw [h]
      exact Nat.le_succ _
  | _ => exact le_rfl

lemma sent_subset_step (label : ChannelLabel) : w.sent ⊆ (step c cfg w label).sent := by
  cases label with
  | send wrapMs admitMs envelope =>
    change _ ⊆ (w.sendStep c cfg wrapMs admitMs envelope).sent
    rcases sendStep_cases c cfg w wrapMs admitMs envelope with h | ⟨t', s, bytes, -, -, h⟩
    · rw [h]
      exact List.Subset.refl _
    · rw [h]
      exact List.subset_cons_self _ _
  | _ => exact List.Subset.refl _

lemma returned_subset_step (label : ChannelLabel) :
    w.returned ⊆ (step c cfg w label).returned := by
  cases label with
  | receive rng order => exact List.subset_append_left _ _
  | send wrapMs admitMs envelope =>
    change _ ⊆ (w.sendStep c cfg wrapMs admitMs envelope).returned
    rcases sendStep_cases c cfg w wrapMs admitMs envelope with h | ⟨t', s, bytes, -, -, h⟩
    · rw [h]
      exact List.Subset.refl _
    · rw [h]
      exact List.Subset.refl _
  | _ => exact List.Subset.refl _

/-- Bundles sent at one index are one bundle. -/
lemma Inv.sent_unique (hw : Inv c cfg t window w) {b b' : SentBundle} (hb : b ∈ w.sent)
    (hb' : b' ∈ w.sent) (h : b.index = b'.index) : b = b' := by
  have hnodup : (w.sent.map SentBundle.index).Nodup := by
    rw [hw.sentIndices]
    exact List.nodup_reverse.mpr List.nodup_range
  exact List.inj_on_of_nodup_map hnodup hb hb' h

lemma Inv.index_lt (hw : Inv c cfg t window w) {b : SentBundle} (hb : b ∈ w.sent) :
    b.index < w.sender.transport.sendCounter := by
  have hmem : b.index ∈ w.sent.map SentBundle.index := List.mem_map_of_mem hb
  rw [hw.sentIndices] at hmem
  simpa using hmem

/-- A returned bundle that the sender sent was returned at its own index. -/
lemma Inv.index_eq (hdist : DistinctAddresses c t) (hw : Inv c cfg t window w)
    (hcounter : w.sender.transport.sendCounter ≤ u64Max) {b : SentBundle} (hb : b ∈ w.sent)
    (claim : Claim) (hc : claim.index < u64Max ∧ unwrap c claim.bytes =
      .ok (t.addressFor c claim.index, claim.envelope)) (hbytes : b.bytes = claim.bytes) :
    b.index = claim.index := by
  have hlt := hw.index_lt hb
  have hun := hw.framed b hb
  rw [hbytes, hc.2, Except.ok.injEq, Prod.mk.injEq] at hun
  have hclt := hc.1
  unfold u64Max at *
  exact hdist _ _ (by omega) (by omega) hun.1.symm

/-- Nothing is returned from one window past an index that is never returned. -/
lemma Inv.lt_of_notMem (hwindow : 1 ≤ window) (hw : Inv c cfg t window w) {m : ℕ}
    (hm : m ∉ w.returnedIndices) (hn : n ∈ w.returnedIndices) : n < m + window := by
  have hlow : w.receiver.transport.lowWatermark ≤ m := by
    rw [hw.lowWatermark_eq]
    exact Frontier.frontier_le hm
  rw [← hw.claimed] at hn
  rcases hn with hn | hn
  · omega
  · have hlt := (hw.aheadPolled n hn).2
    have hend := windowEnd_le w.receiver.transport.lowWatermark w.receiver.transport.window
    rw [hw.receiverWindow] at hend
    unfold MeshTransport.windowEnd at hlt
    rw [hw.receiverWindow] at hlt
    omega

/-- What the relay holds and what was returned comes from the sender. -/
structure Genuine (w : Channel) : Prop where
  stored : w.receiver.agent.store.Within w.IsSent
  returned : ∀ claim ∈ w.returned, w.IsSent claim.bytes

lemma isSent_step (label : ChannelLabel) {bytes : Bytes} (h : w.IsSent bytes) :
    (step c cfg w label).IsSent bytes := by
  obtain ⟨b, hb, rfl⟩ := h
  exact ⟨b, sent_subset_step label hb, rfl⟩

lemma genuine_step (hdist : DistinctAddresses c t) (hw : Inv c cfg t window w) (hg : Genuine w)
    (label : ChannelLabel) (honest : Honest w label) : Genuine (step c cfg w label) := by
  have hsent : ∀ bytes, w.IsSent bytes → (step c cfg w label).IsSent bytes :=
    fun _ h => isSent_step label h
  cases label with
  | send wrapMs admitMs envelope =>
    change Genuine (w.sendStep c cfg wrapMs admitMs envelope)
    change ∀ bytes, w.IsSent bytes → (w.sendStep c cfg wrapMs admitMs envelope).IsSent bytes at hsent
    rcases sendStep_cases c cfg w wrapMs admitMs envelope with h | ⟨t', s, bytes, -, -, h⟩
    · rw [h]
      exact hg
    · rw [h] at hsent ⊢
      exact ⟨fun b hb => hsent b (hg.stored b hb), fun claim hc => hsent _ (hg.returned claim hc)⟩
  | receive rng order =>
    refine ⟨hg.stored.removeAll _, ?_⟩
    intro claim hc
    rcases List.mem_append.mp hc with hc | hc
    · exact hg.returned claim hc
    · exact hg.stored _ ((hw.mem_claims hdist rng order claim).mp hc).1
  | senderRelay i event => exact ⟨hg.stored, hg.returned⟩
  | senderSweep order nowMs => exact ⟨hg.stored, hg.returned⟩
  | receiverRelay i event =>
    refine ⟨?_, hg.returned⟩
    have hstore : (syncStep c cfg.receiver w.receiver.agent.store (w.receiver.agent.sessions i)
        event).2.1.Within w.IsSent := by
      rcases syncStep_store c cfg.receiver w.receiver.agent.store (w.receiver.agent.sessions i)
        event with h | ⟨-, nowMs, order, -, h⟩ | ⟨_, _, nowMs, bytes, s', -, rfl, had, h⟩
      · rw [h]
        exact hg.stored
      · rw [h]
        exact hg.stored.removeAll _
      · rw [h]
        exact hg.stored.admitChecked honest had
    exact hstore
  | receiverSweep order nowMs => exact ⟨hg.stored.removeAll _, hg.returned⟩

/-- An index whose bundles never reach the relay is never returned. -/
lemma notMem_returnedIndices_step (hdist : DistinctAddresses c t) (hw : Inv c cfg t window w)
    (hg : Genuine w) (hcounter : w.sender.transport.sendCounter ≤ u64Max) {lost : Set ℕ}
    (hlost : NoneStored lost w) {m : ℕ} (hm : m ∈ lost) (hnot : m ∉ w.returnedIndices)
    (label : ChannelLabel) : m ∉ (step c cfg w label).returnedIndices := by
  cases label with
  | receive rng order =>
    rintro ⟨claim, hc, hidx⟩
    rcases List.mem_append.mp hc with hc | hc
    · exact hnot ⟨claim, hc, hidx⟩
    · obtain ⟨hstored, -, hlt, hun⟩ := (hw.mem_claims hdist rng order claim).mp hc
      obtain ⟨b, hb, hbytes⟩ := hg.stored _ hstored
      have hlt' : claim.index < u64Max := lt_of_lt_of_le hlt (min_le_right _ _)
      have hindex := hw.index_eq hdist hcounter hb claim ⟨hlt', hun⟩ hbytes
      rw [← hbytes] at hstored
      refine hlost b hb ?_ hstored
      rw [hindex, hidx]
      exact hm
  | send wrapMs admitMs envelope =>
    change m ∉ (w.sendStep c cfg wrapMs admitMs envelope).returnedIndices
    rcases sendStep_cases c cfg w wrapMs admitMs envelope with h | ⟨t', s, bytes, -, -, h⟩
    · rw [h]
      exact hnot
    · rw [h]
      exact hnot
  | _ => exact hnot

/-- An undisturbed step keeps every arrived index up to `n` arrived. -/
lemma arrived_step (hdist : DistinctAddresses c t) (hw : Inv c cfg t window w) {label : ChannelLabel}
    (hund : Undisturbed c n w label) {m : ℕ} (hmn : m ≤ n) (hn : n < u64Max) (h : Arrived w m) :
    Arrived (step c cfg w label) m := by
  rcases h with ⟨claim, hc, hidx⟩ | ⟨b, hb, hidx, hstored⟩
  · exact Or.inl ⟨claim, returned_subset_step label hc, hidx⟩
  · have hkept : ∀ label', (∀ order l, label' ≠ .take order l) →
        (∀ nowMs, w.receiver.agent.sweepsAt label' = some nowMs →
          ∀ h s, w.receiver.agent.store.byHash.lookup h = some s →
            (∃ b ∈ w.sent, b.index ≤ n ∧ b.bytes = s.bytes) → nowMs < s.expiryMs) →
        (w.relayReceiver c cfg label').Holds b.bytes := by
      intro label' htake hsweep
      obtain ⟨h, s, hs, hbytes⟩ := hstored
      refine ⟨h, s, agentStep_lookup _ _ hs htake ?_, hbytes⟩
      intro nowMs hnow
      exact hsweep nowMs hnow h s hs ⟨b, hb, by omega, hbytes.symm⟩
    cases label with
    | receive rng order =>
      by_cases hwin : w.receiver.transport.lowWatermark ≤ m ∧ m < w.receiver.transport.windowEnd
      · left
        have hclaim := (hw.mem_claims hdist rng order ⟨b.bytes, m, b.envelope⟩).mpr
          ⟨hstored, hwin.1, hwin.2, by rw [← hidx]; exact hw.framed b hb⟩
        exact ⟨_, List.mem_append_right _ hclaim, rfl⟩
      · right
        have hdist' : DistinctAddresses c w.receiver.transport.tagKey := by
          rw [hw.receiverKey]
          exact hdist
        have hun := hw.framed b hb
        rw [hidx, ← hw.receiverKey] at hun
        refine ⟨b, hb, hidx, (MeshTransport.holds_receive_iff hw.accounted.decoded hun hstored).mpr ?_⟩
        have hmod : m % 2 ^ 64 = m := by
          apply Nat.mod_eq_of_lt
          unfold u64Max at hn
          omega
        rw [MeshTransport.addressFor_mem_pollSet_iff hdist', hmod, not_or]
        exact ⟨hwin, hund m hmn⟩
    | send wrapMs admitMs envelope =>
      refine Or.inr ⟨b, sent_subset_step _ hb, hidx, ?_⟩
      change (w.sendStep c cfg wrapMs admitMs envelope).Holds b.bytes
      rcases sendStep_cases c cfg w wrapMs admitMs envelope with h | ⟨t', s, bytes, -, -, h⟩
      · rw [h]
        exact hstored
      · rw [h]
        exact hstored
    | senderRelay i event => exact Or.inr ⟨b, hb, hidx, hstored⟩
    | senderSweep order nowMs => exact Or.inr ⟨b, hb, hidx, hstored⟩
    | receiverRelay i event =>
      exact Or.inr ⟨b, hb, hidx, hkept _ (fun _ _ h => by cases h) hund⟩
    | receiverSweep order nowMs =>
      refine Or.inr ⟨b, hb, hidx, hkept _ (fun _ _ h => by cases h) ?_⟩
      intro now hnow
      cases hnow
      exact hund

/-- A receive with no lost index more than a window below `n` returns `n`, or moves the
watermark. -/
lemma receive_progress (hdist : DistinctAddresses c t) (hwindow : 1 ≤ window) (hn : n < u64Max)
    (hw : Inv c cfg t window w) {lost : Set ℕ} (hgap : ∀ m ∈ lost, n < m + window)
    (hnl : n ∉ lost) (harrived : ∀ m ≤ n, m ∉ lost → Arrived w m) (hnot : n ∉ w.returnedIndices)
    (rng : PollRng) (order : IterOrder) :
    n ∈ (w.receiveStep c rng order).returnedIndices ∨
      w.receiver.transport.lowWatermark <
        (w.receiveStep c rng order).receiver.transport.lowWatermark := by
  have hlow : w.receiver.transport.lowWatermark ∉ w.returnedIndices := by
    rw [← hw.claimed]
    rintro (h | h)
    · exact absurd h (lt_irrefl _)
    · exact hw.lowUnclaimed h
  have hle : w.receiver.transport.lowWatermark ≤ n := by
    rw [hw.lowWatermark_eq]
    exact Frontier.frontier_le hnot
  -- an arrived index inside the window is returned by this very receive
  have hreturns : ∀ m ≤ n, m ∉ lost → m ∉ w.returnedIndices →
      w.receiver.transport.lowWatermark ≤ m → m < w.receiver.transport.lowWatermark + window →
      m ∈ (w.receiveStep c rng order).returnedIndices := by
    intro m hmn hml hmr hlowm hmend
    rcases harrived m hmn hml with h | ⟨b, hb, hidx, hstored⟩
    · exact absurd h hmr
    · have hend : m < w.receiver.transport.windowEnd := by
        unfold MeshTransport.windowEnd windowEnd
        rw [hw.receiverWindow]
        omega
      have hclaim := (hw.mem_claims hdist rng order ⟨b.bytes, m, b.envelope⟩).mpr
        ⟨hstored, hlowm, hend, by rw [← hidx]; exact hw.framed b hb⟩
      exact ⟨_, List.mem_append_right _ hclaim, rfl⟩
  by_cases hlost : w.receiver.transport.lowWatermark ∈ lost
  · left
    exact hreturns n le_rfl hnl hnot hle (hgap _ hlost)
  · right
    have hmem := hreturns _ hle hlost hlow le_rfl (by omega)
    have hinv := hw.receiveStep hdist rng order
    have hmono : w.receiver.transport.lowWatermark ≤
        (w.receiveStep c rng order).receiver.transport.lowWatermark :=
      MeshTransport.lowWatermark_le_advance _ _
    refine lt_of_le_of_ne hmono ?_
    intro heq
    rw [← hinv.claimed, heq] at hmem
    rcases hmem with h | h
    · exact absurd h (lt_irrefl _)
    · exact hinv.lowUnclaimed h

/-- A run in which the indices in `lost` never arrive. By the end of `pre` every other
index up to `n` has, `post` leaves what has arrived alone until it is claimed, and `post`
holds more than `n` receives. -/
structure LossyRun (c : Crates) (cfg : ChannelConfig) (s : Channel) (lost : Set ℕ) (n : ℕ)
    (pre post : List ChannelLabel) : Prop where
  honest : Machine.EveryStep (step c cfg) Honest s (pre ++ post)
  counter : (Machine.run (step c cfg) s (pre ++ post)).sender.transport.sendCounter ≤ u64Max
  noneStored : Machine.EveryState (step c cfg) (NoneStored lost) s (pre ++ post)
  arrived : ∀ m ≤ n, m ∉ lost → Arrived (Machine.run (step c cfg) s pre) m
  undisturbed : Machine.EveryStep (step c cfg) (Undisturbed c n) (Machine.run (step c cfg) s pre)
    post
  receives : n < post.countP isReceive

/-- What every state of a lossy run satisfies. -/
structure LossyInv (c : Crates) (cfg : ChannelConfig) (t : TagKey) (window : ℕ) (lost : Set ℕ)
    (w : Channel) : Prop where
  inv : Inv c cfg t window w
  genuine : Genuine w
  never : ∀ m ∈ lost, m ∉ w.returnedIndices

lemma lossyInv_start (decoys : ℕ) (lost : Set ℕ) :
    LossyInv c cfg t window lost (start t window decoys) where
  inv := inv_start decoys
  genuine := by
    refine ⟨?_, fun claim hc => by cases hc⟩
    rintro bytes ⟨h, b, hb, -⟩
    simp [start] at hb
  never := by
    rintro m - ⟨claim, hc, -⟩
    cases hc

/-- The condition on the steps of a lossy run that keeps its invariant. -/
def LossyStep (lost : Set ℕ) (w : Channel) (label : ChannelLabel) : Prop :=
  Honest w label ∧ w.sender.transport.sendCounter ≤ u64Max ∧ NoneStored lost w

lemma lossyInv_step (hframe : FramingLaws c) (hdist : DistinctAddresses c t) {lost : Set ℕ}
    (w : Channel) (label : ChannelLabel) (hw : LossyInv c cfg t window lost w)
    (hp : LossyStep lost w label) : LossyInv c cfg t window lost (step c cfg w label) := by
  obtain ⟨honest, hcounter, hnone⟩ := hp
  obtain ⟨hinv, hg, hnever⟩ := hw
  exact ⟨inv_step hframe hdist w label hinv, genuine_step hdist hinv hg label honest,
    fun m hm => notMem_returnedIndices_step hdist hinv hg hcounter hnone hm (hnever m hm) label⟩

lemma LossyRun.everyStep {s : Channel} {lost : Set ℕ} {pre post : List ChannelLabel}
    (hrun : LossyRun c cfg s lost n pre post) :
    Machine.EveryStep (step c cfg) (LossyStep lost) s (pre ++ post) := by
  have hcounter : Machine.EveryState (step c cfg)
      (fun w => w.sender.transport.sendCounter ≤ u64Max) s (pre ++ post) :=
    Machine.everyState_of_last (fun w label h => (sendCounter_le_step label).trans h) hrun.counter
  exact hrun.honest.and (hcounter.everyStep.and hrun.noneStored.everyStep)

/-- In a lossy run whose gaps all start less than a window below `n`, index `n` is
returned. -/
lemma LossyRun.mem_returnedIndices (hframe : FramingLaws c) (hdist : DistinctAddresses c t)
    (hwindow : 1 ≤ window) {decoys : ℕ} {lost : Set ℕ} {pre post : List ChannelLabel}
    (hrun : LossyRun c cfg (start t window decoys) lost n pre post) (hn : n < u64Max)
    (hnl : n ∉ lost) (hgap : ∀ m ∈ lost, n < m + window) :
    n ∈ (Machine.run (step c cfg) (start t window decoys) (pre ++ post)).returnedIndices := by
  obtain ⟨hpre, hpost⟩ := Machine.everyStep_append.mp hrun.everyStep
  have hmid : LossyInv c cfg t window lost (Machine.run (step c cfg) (start t window decoys) pre) :=
    (Machine.everyState_of_everyStep (lossyInv_step hframe hdist)
      (lossyInv_start decoys lost) hpre).last
  have hstep : ∀ w label,
      (LossyInv c cfg t window lost w ∧ ∀ m ≤ n, m ∉ lost → Arrived w m) →
      (LossyStep lost w label ∧ Undisturbed c n w label) →
      (LossyInv c cfg t window lost (step c cfg w label) ∧
        ∀ m ≤ n, m ∉ lost → Arrived (step c cfg w label) m) := by
    rintro w label ⟨hw, harr⟩ ⟨hlossy, hund⟩
    exact ⟨lossyInv_step hframe hdist w label hw hlossy,
      fun m hm hml => arrived_step hdist hw.inv hund hm hn (harr m hm hml)⟩
  have hall := Machine.everyState_of_everyStep hstep ⟨hmid, hrun.arrived⟩
    (hpost.and hrun.undisturbed)
  have hgoal : n ∈ (Machine.run (step c cfg) (Machine.run (step c cfg) (start t window decoys) pre)
      post).returnedIndices ∨
      n < (Machine.run (step c cfg) (Machine.run (step c cfg) (start t window decoys) pre)
        post).receiver.transport.lowWatermark := by
    have hmono : ∀ w label, w.receiver.transport.lowWatermark ≤
        (step c cfg w label).receiver.transport.lowWatermark := by
      intro w label
      cases label with
      | receive rng order => exact MeshTransport.lowWatermark_le_advance _ _
      | send wrapMs admitMs envelope =>
        change _ ≤ (w.sendStep c cfg wrapMs admitMs envelope).receiver.transport.lowWatermark
        rcases sendStep_cases c cfg w wrapMs admitMs envelope with h | ⟨t', s, bytes, -, -, h⟩
        · rw [h]
        · rw [h]
      | _ => exact le_rfl
    have hkeep : ∀ w label, (n ∈ w.returnedIndices ∨ n < w.receiver.transport.lowWatermark) →
        n ∈ (step c cfg w label).returnedIndices ∨
          n < (step c cfg w label).receiver.transport.lowWatermark := by
      rintro w label (⟨claim, hc, hidx⟩ | hlow)
      · exact Or.inl ⟨claim, returned_subset_step label hc, hidx⟩
      · exact Or.inr (lt_of_lt_of_le hlow (hmono w label))
    have henough : n < (Machine.run (step c cfg) (start t window decoys)
        pre).receiver.transport.lowWatermark + post.countP isReceive := by
      have := hrun.receives
      omega
    refine Machine.goal_of_ticks (fun w label _ => hkeep w label) (fun w label _ => hmono w label)
      ?_ hall.everyStep (fun w h => Or.inr h) henough
    rintro w label ⟨hw, harr⟩ htick hopen
    cases label with
    | receive rng order =>
      rcases receive_progress hdist hwindow hn hw.inv hgap hnl harr (fun h => hopen (Or.inl h))
        rng order with h | h
      · exact Or.inl (Or.inl h)
      · exact Or.inr h
    | _ => cases htick
  rw [Machine.run_append]
  rcases hgoal with h | h
  · exact h
  · rw [← hall.last.1.inv.claimed]
    exact Or.inl h

/-- In a lossy run a bundle that is not lost is returned exactly when every lost index is
less than a window below it. -/
theorem returned_iff_lt_window (hframe : FramingLaws c) (hdist : DistinctAddresses c t)
    (cfg : ChannelConfig) (hwindow : 1 ≤ window) (decoys : ℕ) (lost : Set ℕ) (b : SentBundle)
    (hb : b.index ∉ lost) (pre post : List ChannelLabel)
    (hsent : b ∈ (Machine.run (step c cfg) (start t window decoys) pre).sent)
    (hrun : LossyRun c cfg (start t window decoys) lost b.index pre post) :
    b.bytes ∈ (Machine.run (step c cfg) (start t window decoys) (pre ++ post)).returned.map
        Claim.bytes ↔
      ∀ m ∈ lost, b.index < m + window := by
  have hall := Machine.everyState_of_everyStep (lossyInv_step hframe hdist)
    (lossyInv_start decoys lost) hrun.everyStep
  obtain ⟨hinv, hg, hnever⟩ := hall.last
  have hsent' : b ∈ (Machine.run (step c cfg) (start t window decoys) (pre ++ post)).sent := by
    have hkeep : ∀ (w : Channel) (label : ChannelLabel), b ∈ w.sent → b ∈ (step c cfg w label).sent :=
      fun w label h => sent_subset_step label h
    rw [Machine.run_append]
    exact Machine.run_invariant hkeep hsent post
  constructor
  · intro hret m hm
    obtain ⟨claim, hc, hbytes⟩ := List.mem_map.mp hret
    have hidx := hinv.index_eq hdist hrun.counter hsent' claim (hinv.returnedFramed claim hc) hbytes.symm
    exact hinv.lt_of_notMem hwindow (hnever m hm) ⟨claim, hc, hidx.symm⟩
  · intro hgap
    have hlt : b.index < u64Max := lt_of_lt_of_le (hinv.index_lt hsent') hrun.counter
    obtain ⟨claim, hc, hidx⟩ := hrun.mem_returnedIndices hframe hdist hwindow hlt hb hgap
    obtain ⟨b', hb', hbytes⟩ := hg.returned claim hc
    have hidx' := hinv.index_eq hdist hrun.counter hb' claim (hinv.returnedFramed claim hc) hbytes
    have heq : b' = b := hinv.sent_unique hb' hsent' (hidx'.trans hidx)
    rw [← heq, hbytes]
    exact List.mem_map_of_mem hc

end Run

section Gap

/-- Receives alone never return an index a window past one that is lost. -/
lemma LossyInv.notMem_of_receives {c : Crates} {cfg : ChannelConfig} {t : TagKey} {window m n : ℕ}
    (hframe : FramingLaws c) (hdist : DistinctAddresses c t) (hwindow : 1 ≤ window)
    {lost : Set ℕ} {w : Channel} (hw : LossyInv c cfg t window lost w)
    (hcounter : w.sender.transport.sendCounter ≤ u64Max) (hnone : NoneStored lost w)
    (hm : m ∈ lost) (hmn : m + window ≤ n) {labels : List ChannelLabel}
    (hall : ∀ label ∈ labels, isReceive label = true) :
    n ∉ (Machine.run (step c cfg) w labels).returnedIndices := by
  induction labels generalizing w with
  | nil =>
    intro hn
    have := hw.inv.lt_of_notMem hwindow (hw.never m hm) hn
    omega
  | cons label labels ih =>
    have hlabel := hall label List.mem_cons_self
    have hrest := fun l hl => hall l (List.mem_cons_of_mem _ hl)
    cases label with
    | receive rng order =>
      have hnext := lossyInv_step hframe hdist w (.receive rng order) hw
        ⟨trivial, hcounter, hnone⟩
      refine ih hnext hcounter ?_ hrest
      rintro b hb hidx ⟨h, s, hs, hbytes⟩
      exact hnone b hb hidx ⟨h, s, (RelayStore.lookup_takeForAddresses.mp hs).1, hbytes⟩
    | _ => cases hlabel

/-- Every peer is honest, and no bundle of index 0 reaches the relay. -/
def firstLost (w : Channel) : Prop :=
  w.sender.transport.sendCounter ≤ u64Max ∧ ∀ b ∈ w.sent, b.index = 0 → ¬w.Holds b.bytes

instance decidableFirstLost (w : Channel) : Decidable (firstLost w) :=
  inferInstanceAs (Decidable (_ ∧ _))

/-- Bundles 1 and 2 arrive, bundle 0 is lost. -/
def gapRun : List ChannelLabel :=
  [sampleSend 0, sampleSend 1, sampleSend 2] ++ pushSession 0 [sampleBundle 1, sampleBundle 2]

/-- With a window of two, one lost bundle keeps bundle 2, which has arrived, from every
number of receives. -/
theorem not_returned_past_gap :
    (Machine.run (step localCrates {}) (start sampleTagKey 2 7) gapRun).Holds (sampleBundle 2) ∧
      ¬∃ k, sampleBundle 2 ∈ (Machine.run (step localCrates {}) (start sampleTagKey 2 7)
        (gapRun ++ List.replicate k sampleReceive)).returned.map Claim.bytes := by
  refine ⟨by decide +kernel, ?_⟩
  rintro ⟨k, hk⟩
  have honest : Machine.EveryStep (step localCrates {}) Honest (start sampleTagKey 2 7) gapRun := by
    decide +kernel
  have hlost : Machine.EveryState (step localCrates {}) firstLost (start sampleTagKey 2 7)
      gapRun := by decide +kernel
  have hsteps : Machine.EveryStep (step localCrates {}) (LossyStep {0}) (start sampleTagKey 2 7)
      gapRun := by
    refine (honest.and hlost.everyStep).mono ?_
    rintro w label ⟨hhon, hcounter, hnone⟩
    exact ⟨hhon, hcounter, fun b hb hm => hnone b hb hm⟩
  have hmid := (Machine.everyState_of_everyStep
    (lossyInv_step localCrates_framing (localCrates_distinct sampleTagKey))
    (lossyInv_start 7 {0}) hsteps).last
  have hreceives : ∀ label ∈ List.replicate k sampleReceive, isReceive label = true := by
    intro label hl
    rw [List.eq_of_mem_replicate hl]
    rfl
  have hnot := hmid.notMem_of_receives localCrates_framing (localCrates_distinct sampleTagKey)
    (by decide) hlost.last.1 (fun b hb hm => hlost.last.2 b hb hm) rfl (le_refl (0 + 2)) hreceives
  have hinv : Inv localCrates {} sampleTagKey 2 (Machine.run (step localCrates {})
      (start sampleTagKey 2 7) (gapRun ++ List.replicate k sampleReceive)) :=
    Machine.run_invariant (inv_step localCrates_framing (localCrates_distinct sampleTagKey))
      (inv_start 7) _
  obtain ⟨claim, hc, hbytes⟩ := List.mem_map.mp hk
  obtain ⟨hlt, hun⟩ := hinv.returnedFramed claim hc
  rw [hbytes, unwrap_sampleBundle, Except.ok.injEq, Prod.mk.injEq] at hun
  unfold u64Max at hlt
  have hidx := localCrates_distinct sampleTagKey 2 claim.index (by decide) (by omega) hun.1
  rw [Machine.run_append] at hc
  exact hnot ⟨claim, hc, hidx.symm⟩

/-- Bundle 0 is lost, bundle 1 arrives, and the receiver polls twice. -/
def smallGapPre : List ChannelLabel :=
  [sampleSend 0, sampleSend 1] ++ pushSession 0 [sampleBundle 1]

def smallGapPost : List ChannelLabel := [sampleReceive, sampleReceive]

lemma smallGap_lossyRun :
    LossyRun localCrates {} (start sampleTagKey 2 7) {0} 1 smallGapPre smallGapPost where
  honest := by decide +kernel
  counter := by decide +kernel
  noneStored := by
    have h : Machine.EveryState (step localCrates {}) firstLost (start sampleTagKey 2 7)
        (smallGapPre ++ smallGapPost) := by decide +kernel
    exact h.mono fun w hw b hb hm => hw.2 b hb hm
  arrived m hm hnl := by
    right
    obtain rfl : m = 1 := by
      have : m ≠ 0 := hnl
      omega
    have h : ∃ b ∈ (Machine.run (step localCrates {}) (start sampleTagKey 2 7) smallGapPre).sent,
        b.index = 1 ∧ (Machine.run (step localCrates {}) (start sampleTagKey 2 7)
          smallGapPre).Holds b.bytes := by decide +kernel
    exact h
  undisturbed := by
    have hfirst : (Machine.run (step localCrates {}) (start sampleTagKey 2 7)
        smallGapPre).DecoysMiss localCrates 1 samplePollRng := by decide +kernel
    have hsecond : (Machine.run (step localCrates {}) (start sampleTagKey 2 7)
        (smallGapPre ++ [sampleReceive])).DecoysMiss localCrates 1 samplePollRng := by
      decide +kernel
    rw [Machine.run_append] at hsecond
    exact ⟨hfirst, hsecond, trivial⟩
  receives := by decide

theorem returned_iff_lt_window_smallGap :
    sampleBundle 1 ∈ (Machine.run (step localCrates {}) (start sampleTagKey 2 7)
        (smallGapPre ++ smallGapPost)).returned.map Claim.bytes ↔
      ∀ m ∈ ({0} : Set ℕ), 1 < m + 2 :=
  returned_iff_lt_window localCrates_framing (localCrates_distinct sampleTagKey) {} (by decide) 7 {0}
    ⟨1, sampleBundle 1, MeshTransport.composeAt localCrates { tagKey := sampleTagKey } 1
      (sampleEnvelope 1)⟩
    (by decide) smallGapPre smallGapPost (by decide +kernel) smallGap_lossyRun

end Gap

end Channel

end Parda.Mesh
