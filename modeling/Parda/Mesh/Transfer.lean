import Parda.Mesh.SyncOutcome

/-!
# What a sync session moves while the stores grow

The outcome of two sessions on one link when anything may be added to both stores
meanwhile and nothing is taken from them. `base` is what the two sides held at some moment
before the sessions began.
-/

namespace Parda.Mesh

open Protocol Machine RelayStore

/-- Hashes that a store which has grown from `base` to `s` may offer. -/
structure Offers (base s : RelayStore) (hashes : List BundleHash) : Prop where
  nodup : hashes.Nodup
  offered : base.byHash.keys ⊆ hashes
  held : hashes ⊆ s.byHash.keys

/-- Hashes that the side `x` may ask for: all that it lacks of what its peer held, or as
many as it takes in one session. -/
structure Asked (cfg : Side → RelayConfig) (base : Side → RelayStore) (x : Side)
    (mine theirs : RelayStore) (want : List BundleHash) : Prop where
  nodup : want.Nodup
  held : want ⊆ theirs.byHash.keys
  new : ∀ h ∈ want, h ∉ (base x).byHash.keys
  length_le : want.length ≤ (cfg x).maxBundlesPerSession
  covers : (base x.other).byHash.keys ⊆ want ++ mine.byHash.keys ∨
    want.length = (cfg x).maxBundlesPerSession

/-- The bundles that one session can move to `x`. -/
def sessionCap (cfg : Side → RelayConfig) (x : Side) : ℕ :=
  min (cfg x).maxBundlesPerSession (cfg x.other).maxBundlesPerSession

/-- What a session at `x` has to show for itself when it ends. -/
def Pulled (cfg : Side → RelayConfig) (base : Side → RelayStore) (x : Side) (s : RelayStore) : Prop :=
  (base x.other).byHash.keys ⊆ s.byHash.keys ∨
    (base x).storedCount + sessionCap cfg x ≤ s.storedCount

/-- The lists of hashes that a session at `x` holds, over its store and its peer's. -/
def SyncPc.Honors (cfg : Side → RelayConfig) (base : Side → RelayStore) (x : Side)
    (mine theirs : RelayStore) : SyncPc → Prop
  | .sendHave hashes | .recvHave hashes => Offers (base x) mine hashes
  | .sendWant want => Asked cfg base x mine theirs want
  | .collect want => Asked cfg base x.other theirs mine want
  | _ => True

/-- The lists of hashes on a message from `x`. -/
def SyncMessage.Honors (cfg : Side → RelayConfig) (base : Side → RelayStore) (x : Side)
    (mine theirs : RelayStore) : SyncMessage → Prop
  | .haveHashes hashes => Offers (base x) mine hashes
  | .want hashes => Asked cfg base x mine theirs hashes
  | _ => True

/-- A session that has stored `n` bundles can still store up to the session cap. -/
def SyncPc.Affords (cfg : RelayConfig) (n : ℕ) : SyncPc → Prop
  | .admitting _ sessionBudget => cfg.maxBundlesPerSession ≤ sessionBudget + n
  | _ => True

namespace SyncPair

/-- What the end `e` at `x` has taken in (`got`) and is still owed (`due`) by its peer. -/
structure Fetched (cfg : Side → RelayConfig) (json : SyncJson) (base : Side → RelayStore) (x : Side)
    (e peer : SyncEnd) (got due : List BundleHash) : Prop where
  owed : bundlesIn (inFlight json e.inbox) ++ peer.pc.unsent.getD [] =
    due.map peer.store.bytesAt
  nodup : (got ++ due).Nodup
  got_held : got ⊆ e.store.byHash.keys
  due_held : due ⊆ peer.store.byHash.keys
  new : ∀ h ∈ got ++ due, h ∉ (base x).byHash.keys
  length_le : (got ++ due).length ≤ (cfg x).maxBundlesPerSession
  covers : if peer.pc.unsent.isSome then
      (base x.other).byHash.keys ⊆ due ++ e.store.byHash.keys ∨
        (got ++ due).length = sessionCap cfg x
    else got ++ due = []
  affords : e.pc.Affords (cfg x) got.length

/-- The traffic towards the end `e` at `x`. -/
structure Transfer (cfg : Side → RelayConfig) (json : SyncJson) (base : Side → RelayStore) (x : Side)
    (e peer : SyncEnd) : Prop where
  grown : (base x).byHash.keys ⊆ e.store.byHash.keys
  honors : e.pc.Honors cfg base x e.store peer.store
  messages : ∀ message ∈ inFlight json e.inbox,
    message.Honors cfg base x.other peer.store e.store
  fetched : ∃ got due, Fetched cfg json base x e peer got due

end SyncPair

section Growth

variable {cfg : Side → RelayConfig} {base : Side → RelayStore} {x : Side}
  {s s' t t' : RelayStore} {hashes want : List BundleHash}

lemma RelayStore.Keeps.keys (h : Keeps s t) : s.byHash.keys ⊆ t.byHash.keys := by
  intro k hk
  rw [← AList.mem_keys, ← AList.lookup_isSome, Option.isSome_iff_exists] at hk ⊢
  obtain ⟨b, hb⟩ := hk
  exact ⟨b, h k b hb⟩

lemma RelayStore.Keeps.refl (s : RelayStore) : Keeps s s := fun _ _ h => h

lemma RelayStore.Keeps.bytesAt (h : Keeps s t) {k : BundleHash} (hk : k ∈ s.byHash.keys) :
    t.bytesAt k = s.bytesAt k := by
  rw [← AList.mem_keys, ← AList.lookup_isSome, Option.isSome_iff_exists] at hk
  obtain ⟨b, hb⟩ := hk
  rw [RelayStore.bytesAt, RelayStore.bytesAt, hb, h k b hb]

lemma Offers.keeps {base : RelayStore} (h : Offers base s hashes) (hs : Keeps s t) :
    Offers base t hashes :=
  ⟨h.nodup, h.offered, List.Subset.trans h.held hs.keys⟩

lemma Asked.keeps (h : Asked cfg base x s s' want) (hs : Keeps s t) (hs' : Keeps s' t') :
    Asked cfg base x t t' want := by
  refine ⟨h.nodup, List.Subset.trans h.held hs'.keys, h.new, h.length_le, ?_⟩
  rcases h.covers with hcovers | hfull
  · left
    apply List.Subset.trans hcovers
    exact List.append_subset.mpr ⟨List.subset_append_left _ _,
      List.subset_append_of_subset_right _ hs.keys⟩
  · exact Or.inr hfull

lemma SyncPc.Honors.keeps {pc : SyncPc} (h : pc.Honors cfg base x s s') (hs : Keeps s t)
    (hs' : Keeps s' t') : pc.Honors cfg base x t t' := by
  cases pc with
  | sendHave mine => exact Offers.keeps h hs
  | recvHave mine => exact Offers.keeps h hs
  | sendWant want => exact Asked.keeps h hs hs'
  | collect want => exact Asked.keeps h hs' hs
  | _ => trivial

lemma SyncMessage.Honors.keeps {message : SyncMessage} (h : message.Honors cfg base x s s')
    (hs : Keeps s t) (hs' : Keeps s' t') : message.Honors cfg base x t t' := by
  cases message with
  | haveHashes hashes => exact Offers.keeps h hs
  | want hashes => exact Asked.keeps h hs hs'
  | _ => trivial

/-- What a side asks for out of what its peer offers. -/
lemma asked_wanted {mine theirs : List BundleHash} (hmine : Offers (base x) s mine)
    (htheirs : Offers (base x.other) s' theirs) :
    Asked cfg base x s s' (wanted (cfg x) mine theirs) := by
  refine ⟨?_, ?_, ?_, List.length_take_le _ _, ?_⟩
  · exact (htheirs.nodup.filter _).sublist (List.take_sublist _ _)
  · intro h hh
    exact htheirs.held (List.mem_of_mem_filter (List.mem_of_mem_take hh))
  · intro h hh hbase
    have hnew := List.of_mem_filter (List.mem_of_mem_take hh)
    simp [hmine.offered hbase] at hnew
  · unfold wanted
    by_cases hfew : (theirs.filter fun h => !mine.contains h).length ≤
        (cfg x).maxBundlesPerSession
    · left
      intro h hh
      rw [List.take_of_length_le hfew, List.mem_append, List.mem_filter]
      by_cases hmem : h ∈ mine
      · exact Or.inr (hmine.held hmem)
      · exact Or.inl ⟨htheirs.offered hh, by simp [hmem]⟩
    · right
      rw [List.length_take]
      omega

/-- What a side pushes of what its peer asked for. -/
lemma collected_of_held {cfg : RelayConfig} (h : want ⊆ s.byHash.keys) :
    collected cfg s want = (want.take cfg.maxBundlesPerSession).map s.bytesAt := by
  unfold collected
  rw [← List.filterMap_eq_map]
  apply List.filterMap_congr
  intro k hk
  have hkey := h (List.mem_of_mem_take hk)
  rw [← AList.mem_keys, ← AList.lookup_isSome, Option.isSome_iff_exists] at hkey
  obtain ⟨b, hb⟩ := hkey
  simp [RelayStore.bytesAt, hb]

end Growth

namespace SyncPair

/-- Nothing that either side stores has expired. -/
def Live (w : SyncPair) (nowMs : UInt64) : Prop :=
  ∀ x h b, (w x).store.byHash.lookup h = some b → nowMs < b.expiryMs

/-- There is room at `mine` for any bundle of `theirs` that it lacks. -/
def RoomAt (cfg : RelayConfig) (mine theirs : RelayStore) : Prop :=
  ∀ h b, theirs.byHash.lookup h = some b → mine.byHash.lookup h = none →
    mine.storedCount < cfg.maxTotalBundles ∧
      mine.totalBytes + b.bytes.length ≤ cfg.maxTotalBytes

section Transfers

variable {c : Crates} {cfg : Side → RelayConfig} {json : SyncJson} {base : Side → RelayStore}
  {x : Side} {e peer : SyncEnd} {nowMs : UInt64} {order : IterOrder} {message : SyncMessage}
  {bytes : Bytes} {got due : List BundleHash}

lemma Fetched.keeps (h : Fetched cfg json base x e peer got due) {t t' : RelayStore}
    (hs : Keeps e.store t) (hs' : Keeps peer.store t') :
    Fetched cfg json base x { e with store := t } { peer with store := t' } got due := by
  refine ⟨?_, h.nodup, List.Subset.trans h.got_held hs.keys, List.Subset.trans h.due_held hs'.keys,
    h.new, h.length_le, ?_, h.affords⟩
  · rw [h.owed]
    apply List.map_congr_left
    intro k hk
    exact (hs'.bytesAt (h.due_held hk)).symm
  · have hcovers := h.covers
    split_ifs at hcovers ⊢ with hunsent
    · rcases hcovers with hall | hfull
      · left
        apply List.Subset.trans hall
        exact List.append_subset.mpr ⟨List.subset_append_left _ _,
          List.subset_append_of_subset_right _ hs.keys⟩
      · exact Or.inr hfull
    · exact hcovers

/-- Others may add to both stores. -/
lemma Transfer.keeps (h : Transfer cfg json base x e peer) {t t' : RelayStore}
    (hs : Keeps e.store t) (hs' : Keeps peer.store t') :
    Transfer cfg json base x { e with store := t } { peer with store := t' } := by
  obtain ⟨got, due, hfetched⟩ := h.fetched
  refine ⟨List.Subset.trans h.grown hs.keys, h.honors.keeps hs hs', ?_, got, due,
    hfetched.keeps hs hs'⟩
  intro message hmessage
  exact (h.messages message hmessage).keeps hs' hs

/-- Of the peer, only its session and its store matter. -/
lemma Transfer.congr_peer (h : Transfer cfg json base x e peer) (peer' : SyncEnd)
    (hpc : peer'.pc = peer.pc) (hstore : peer'.store = peer.store) :
    Transfer cfg json base x e peer' := by
  obtain ⟨store, pc, inbox, dropped⟩ := peer
  obtain ⟨store', pc', inbox', dropped'⟩ := peer'
  change pc' = pc at hpc
  change store' = store at hstore
  subst hpc hstore
  obtain ⟨got, due, hfetched⟩ := h.fetched
  exact ⟨h.grown, h.honors, h.messages, got, due, hfetched.owed, hfetched.nodup,
    hfetched.got_held, hfetched.due_held, hfetched.new, hfetched.length_le, hfetched.covers,
    hfetched.affords⟩

/-- The receiving end takes a step of its own. -/
lemma Transfer.ran (h : Transfer cfg json base x e peer)
    (hlive : ∀ k b, e.store.byHash.lookup k = some b → nowMs < b.expiryMs)
    (hwait : e.pc.waiting = false) (hfin : e.pc.isFinished = false) :
    Transfer cfg json base x
      (e.after (syncStep c (cfg x) e.store e.pc (.advance nowMs order))) peer := by
  obtain ⟨store, pc, inbox, dropped⟩ := e
  obtain ⟨hgrown, hhonors, hmessages, got, due, hfetched⟩ := h
  have hnext : ∀ pc' store', store' = store → pc'.Honors cfg base x store peer.store →
      pc'.Affords (cfg x) got.length →
      Transfer cfg json base x ⟨store', pc', inbox, dropped⟩ peer := by
    rintro pc' store' rfl hhonors' haffords
    exact ⟨hgrown, hhonors', hmessages, got, due, hfetched.owed, hfetched.nodup,
      hfetched.got_held, hfetched.due_held, hfetched.new, hfetched.length_le, hfetched.covers,
      haffords⟩
  cases pc with
  | sweep => exact hnext _ _ (sweepExpired_eq_self hlive) trivial trivial
  | snapshot =>
    apply hnext
    · rfl
    · have hperm := order.order_perm store.byHash.keys
      refine ⟨hperm.nodup_iff.mpr store.byHash.keys_nodup, ?_, hperm.subset⟩
      exact List.Subset.trans hgrown hperm.symm.subset
    · trivial
  | sendBundles toSend =>
    cases toSend with
    | nil => exact hnext _ _ rfl trivial (Nat.le_add_right _ _)
    | cons bytes rest => exact hnext _ _ rfl trivial trivial
  | sendHave mine => exact hnext _ _ rfl hhonors trivial
  | sendWant want => exact hnext _ _ rfl trivial trivial
  | collect theirWant => exact hnext _ _ rfl trivial trivial
  | recvHave mine => simp [SyncPc.waiting] at hwait
  | recvWant => simp [SyncPc.waiting] at hwait
  | admitting admitted budget => simp [SyncPc.waiting] at hwait
  | finished result => simp [SyncPc.isFinished] at hfin

/-- The sending end has collected what it will send. -/
lemma Fetched.collected {want : List BundleHash} (h : Fetched cfg json base x e peer got due)
    (hpeer : peer.pc.unsent = none) (hasked : Asked cfg base x e.store peer.store want)
    (pc : SyncPc)
    (hpc : pc = .sendBundles (Mesh.collected (cfg x.other) peer.store want)) :
    Fetched cfg json base x e { peer with pc } []
      (want.take (cfg x.other).maxBundlesPerSession) := by
  have hcovers := h.covers
  rw [hpeer, if_neg (by simp), List.append_eq_nil_iff] at hcovers
  obtain ⟨rfl, rfl⟩ := hcovers
  have hempty : bundlesIn (inFlight json e.inbox) = [] := by simpa [hpeer] using h.owed
  have htake : want.take (cfg x.other).maxBundlesPerSession ⊆ want := List.take_subset _ _
  subst hpc
  constructor
  · simp [hempty, SyncPc.unsent, collected_of_held hasked.held]
  · exact hasked.nodup.sublist (List.take_sublist _ _)
  · exact List.nil_subset _
  · exact List.Subset.trans htake hasked.held
  · exact fun k hk => hasked.new k (htake hk)
  · exact (List.length_take_le' _ _).trans hasked.length_le
  · rw [if_pos (by rfl)]
    have hlength := hasked.length_le
    by_cases hfew : want.length ≤ (cfg x.other).maxBundlesPerSession
    · rw [List.take_of_length_le hfew]
      rcases hasked.covers with hall | hfull
      · exact Or.inl hall
      · right
        rw [List.nil_append, sessionCap]
        omega
    · right
      rw [List.nil_append, List.length_take, sessionCap]
      omega
  · exact h.affords

/-- The sending end takes a step of its own that puts nothing on the link. -/
lemma Transfer.peerRan (h : Transfer cfg json base x e peer)
    (hpeer : peer.pc.Honors cfg base x.other peer.store e.store)
    (hlive : ∀ k b, peer.store.byHash.lookup k = some b → nowMs < b.expiryMs)
    (hwait : peer.pc.waiting = false) (hfin : peer.pc.isFinished = false)
    (hsilent :
      (syncStep c (cfg x.other) peer.store peer.pc (.advance nowMs order)).2.2 = none) :
    Transfer cfg json base x e
      (peer.after (syncStep c (cfg x.other) peer.store peer.pc (.advance nowMs order))) := by
  obtain ⟨store, pc, inbox, dropped⟩ := peer
  obtain ⟨hgrown, hhonors, hmessages, got, due, hfetched⟩ := h
  have hquiet : ∀ pc' store', store' = store → pc'.unsent = pc.unsent →
      Transfer cfg json base x e ⟨store', pc', inbox, dropped⟩ := by
    rintro pc' store' rfl hunsent
    refine ⟨hgrown, hhonors, hmessages, got, due, ?_, hfetched.nodup, hfetched.got_held,
      hfetched.due_held, hfetched.new, hfetched.length_le, ?_, hfetched.affords⟩
    · rw [hunsent]
      exact hfetched.owed
    · rw [hunsent]
      exact hfetched.covers
  cases pc with
  | collect theirWant =>
    have hasked : Asked cfg base x e.store store theirWant := by
      simpa [SyncPc.Honors] using hpeer
    exact ⟨hgrown, hhonors, hmessages, _, _, hfetched.collected rfl hasked _ rfl⟩
  | sweep => exact hquiet _ _ (sweepExpired_eq_self hlive) rfl
  | snapshot => exact hquiet _ _ rfl rfl
  | sendBundles toSend => cases toSend with
    | _ => cases hsilent
  | sendHave mine => cases hsilent
  | sendWant want => cases hsilent
  | recvHave mine => simp [SyncPc.waiting] at hwait
  | recvWant => simp [SyncPc.waiting] at hwait
  | admitting admitted budget => simp [SyncPc.waiting] at hwait
  | finished result => simp [SyncPc.isFinished] at hfin

/-- The sending end puts a message on the link. -/
lemma Transfer.peerSent (h : Transfer cfg json base x e peer)
    (hpeer : peer.pc.Honors cfg base x.other peer.store e.store)
    (hmessage : (syncStep c (cfg x.other) peer.store peer.pc (.advance nowMs order)).2.2 =
      some message) (hbytes : json.fromSlice bytes = .ok message) :
    Transfer cfg json base x { e with inbox := e.inbox ++ [bytes] }
      (peer.after (syncStep c (cfg x.other) peer.store peer.pc (.advance nowMs order))) := by
  obtain ⟨store, pc, inbox, dropped⟩ := peer
  obtain ⟨hgrown, hhonors, hmessages, got, due, hfetched⟩ := h
  have hnext : ∀ pc', message.Honors cfg base x.other store e.store →
      bundlesIn [message] ++ pc'.unsent.getD [] = pc.unsent.getD [] →
      pc'.unsent.isSome = pc.unsent.isSome →
      Transfer cfg json base x { e with inbox := e.inbox ++ [bytes] } ⟨store, pc', inbox, dropped⟩ := by
    intro pc' hmessageHonors hunsent hsome
    refine ⟨hgrown, hhonors, ?_, got, due, ?_, hfetched.nodup, hfetched.got_held,
      hfetched.due_held, hfetched.new, hfetched.length_le, ?_, hfetched.affords⟩
    · intro m hm
      rw [inFlight_concat hbytes, List.mem_append, List.mem_singleton] at hm
      rcases hm with hold | rfl
      · exact hmessages m hold
      · exact hmessageHonors
    · rw [inFlight_concat hbytes, bundlesIn_append, List.append_assoc]
      exact (congrArg _ hunsent).trans hfetched.owed
    · rw [hsome]
      exact hfetched.covers
  cases pc with
  | sendHave mine =>
    cases hmessage
    exact hnext _ hpeer rfl rfl
  | sendWant want =>
    cases hmessage
    exact hnext _ hpeer rfl rfl
  | sendBundles toSend =>
    cases toSend with
    | nil =>
      cases hmessage
      exact hnext _ trivial rfl rfl
    | cons b rest =>
      cases hmessage
      exact hnext _ trivial rfl rfl
  | _ => cases hmessage

/-- Reading a message sends nothing. -/
lemma unsent_receive {pc : SyncPc} {phase : SyncPhase} {cfg : RelayConfig} {s : RelayStore}
    (hwait : pc.waiting = true) (hnext : pc.readPhase.next message = some phase) :
    (syncStep c cfg s pc (.receive nowMs (.ok message))).1.unsent = pc.unsent := by
  cases pc with
  | recvHave mine =>
    cases message with
    | haveHashes theirs => rfl
    | _ => cases hnext
  | recvWant =>
    cases message with
    | want theirs => rfl
    | _ => cases hnext
  | admitting admitted budget =>
    cases message with
    | bundle b =>
      change (syncAdmit c cfg nowMs s admitted budget b).1.unsent = _
      unfold syncAdmit
      cases s.admitChecked c cfg nowMs b (some budget) with
      | _ => rfl
    | done => rfl
    | _ => cases hnext
  | _ => simp [SyncPc.waiting] at hwait

/-- Reading a message takes nothing out of the store. -/
lemma receive_keeps {pc : SyncPc} {cfg : RelayConfig} {s : RelayStore} :
    Keeps s (syncStep c cfg s pc (.receive nowMs (.ok message))).2.1 := by
  rcases syncStep_store c cfg s pc (.receive nowMs (.ok message)) with
    h | ⟨-, _, _, hevent, -⟩ | ⟨_, _, _, _, s', -, -, had, h⟩
  · rw [h]
    exact Keeps.refl s
  · cases hevent
  · rw [h]
    exact fun k b hb => admitChecked_keeps had hb

/-- The sending end reads a message of the grammar. -/
lemma Transfer.peerReceived {phase : SyncPhase} {rest : List Bytes}
    (h : Transfer cfg json base x e peer) (hwait : peer.pc.waiting = true)
    (hnext : peer.pc.readPhase.next message = some phase) :
    Transfer cfg json base x e ({ peer with inbox := rest }.after
      (syncStep c (cfg x.other) peer.store peer.pc (.receive nowMs (.ok message)))) := by
  obtain ⟨hgrown, hhonors, hmessages, got, due, hfetched⟩ := h
  have hunsent : (syncStep c (cfg x.other) peer.store peer.pc
      (.receive nowMs (.ok message))).1.unsent = peer.pc.unsent := unsent_receive hwait hnext
  have hread : Transfer cfg json base x e { peer with
      inbox := rest
      pc := (syncStep c (cfg x.other) peer.store peer.pc (.receive nowMs (.ok message))).1 } := by
    refine ⟨hgrown, hhonors, hmessages, got, due, ?_, hfetched.nodup, hfetched.got_held,
      hfetched.due_held, hfetched.new, hfetched.length_le, ?_, hfetched.affords⟩
    · rw [hunsent]
      exact hfetched.owed
    · rw [hunsent]
      exact hfetched.covers
  exact hread.keeps (Keeps.refl _) receive_keeps

/-- The next bundle that is owed is stored when it arrives, unless it is there already. -/
lemma Fetched.admitted {k : BundleHash} (h : Fetched cfg json base x e peer got (k :: due))
    (hsource : ∀ k b, peer.store.byHash.lookup k = some b →
      k = hashBundle c b.bytes ∧ Decoded c b ∧ nowMs < b.expiryMs)
    (hroom : RoomAt (cfg x) e.store peer.store) {budget : ℕ}
    (hbudget : (cfg x).maxBundlesPerSession ≤ budget + got.length) :
    ∃ s', e.store.admitChecked c (cfg x) nowMs (peer.store.bytesAt k) (some budget) = .ok s' ∧
      k ∈ s'.byHash.keys := by
  have hkey : k ∈ peer.store.byHash.keys := h.due_held List.mem_cons_self
  rw [← AList.mem_keys, ← AList.lookup_isSome, Option.isSome_iff_exists] at hkey
  obtain ⟨b, hb⟩ := hkey
  obtain ⟨hk, hdec, hexp⟩ := hsource k b hb
  have hbytes : peer.store.bytesAt k = b.bytes := by simp [RelayStore.bytesAt, hb]
  rw [hbytes]
  cases hheld : e.store.byHash.lookup k with
  | some b' =>
    have hstored : (e.store.byHash.lookup (hashBundle c b.bytes)).isSome = true := by
      rw [← hk, hheld]
      rfl
    refine ⟨e.store, ?_, ?_⟩
    · obtain ⟨hexpiry, bundle, hbundle, haddress⟩ := hdec
      simp [admitChecked, hexpiry, hbundle, haddress, UInt64.not_le.mpr hexp, hstored]
    · rw [← AList.mem_keys, ← AList.lookup_isSome, hheld]
      rfl
  | none =>
    obtain ⟨hcount, htotal⟩ := hroom k b hb hheld
    have hnew : e.store.byHash.lookup (hashBundle c b.bytes) = none := by rwa [← hk]
    have hlength := h.length_le
    rw [List.length_append, List.length_cons] at hlength
    have hleft : some budget ≠ some 0 := by
      rw [ne_eq, Option.some.injEq]
      omega
    refine ⟨_, admitChecked_ok hdec hexp hnew hleft hcount htotal, ?_⟩
    rw [← AList.mem_keys, ← hk, AList.mem_insert]
    exact Or.inl rfl

/-- A bundle that has been owed is stored. -/
lemma Fetched.stored {k : BundleHash} {s' : RelayStore} {rest : List Bytes} {admitted budget : ℕ}
    (h : Fetched cfg json base x e peer got (k :: due)) (hs : Keeps e.store s')
    (hk : k ∈ s'.byHash.keys)
    (howed : bundlesIn (inFlight json rest) ++ peer.pc.unsent.getD [] =
      due.map peer.store.bytesAt)
    (hbudget : (cfg x).maxBundlesPerSession ≤ budget + got.length) :
    Fetched cfg json base x ⟨s', .admitting (admitted + 1) (budget - 1), rest, e.dropped⟩ peer
      (got ++ [k]) due := by
  have hsplit : got ++ [k] ++ due = got ++ k :: due := by simp
  have hlength := h.length_le
  have hcovers := h.covers
  constructor
  · exact howed
  · rw [hsplit]
    exact h.nodup
  · exact List.append_subset.mpr ⟨List.Subset.trans h.got_held hs.keys, by simpa using hk⟩
  · exact fun j hj => h.due_held (List.mem_cons_of_mem _ hj)
  · rw [hsplit]
    exact h.new
  · rwa [hsplit]
  · rw [hsplit]
    split_ifs at hcovers ⊢ with hunsent
    · rcases hcovers with hall | hfull
      · left
        intro j hj
        have hmem := hall hj
        rw [List.cons_append, List.mem_cons, List.mem_append] at hmem
        rw [List.mem_append]
        rcases hmem with rfl | hdue | hheld
        · exact Or.inr hk
        · exact Or.inl hdue
        · exact Or.inr (hs.keys hheld)
      · exact Or.inr hfull
    · exact hcovers
  · rw [List.length_append, List.length_cons] at hlength
    change _ ≤ budget - 1 + (got ++ [k]).length
    rw [List.length_append, List.length_singleton]
    omega

/-- The receiving end reads a message of the grammar. -/
lemma Transfer.received {phase : SyncPhase} {rest : List Bytes}
    (h : Transfer cfg json base x e peer)
    (hsource : ∀ k b, peer.store.byHash.lookup k = some b →
      k = hashBundle c b.bytes ∧ Decoded c b ∧ nowMs < b.expiryMs)
    (hroom : RoomAt (cfg x) e.store peer.store)
    (hinbox : e.inbox = bytes :: rest) (hbytes : json.fromSlice bytes = .ok message)
    (hwait : e.pc.waiting = true) (hnext : e.pc.readPhase.next message = some phase) :
    Transfer cfg json base x ({ e with inbox := rest }.after
      (syncStep c (cfg x) e.store e.pc (.receive nowMs (.ok message)))) peer := by
  obtain ⟨store, pc, inbox, dropped⟩ := e
  obtain ⟨hgrown, hhonors, hmessages, got, due, hfetched⟩ := h
  have howed := hfetched.owed
  change inbox = bytes :: rest at hinbox
  subst hinbox
  change ∀ m ∈ inFlight json (bytes :: rest), _ at hmessages
  rw [inFlight_cons hbytes] at hmessages howed
  rw [List.forall_mem_cons] at hmessages
  -- a message without a bundle moves the program counter only
  have hquiet : ∀ pc', bundlesIn [message] = [] → pc'.Honors cfg base x store peer.store →
      pc'.Affords (cfg x) got.length →
      Transfer cfg json base x ⟨store, pc', rest, dropped⟩ peer := by
    intro pc' hnone hhonors' haffords
    refine ⟨hgrown, hhonors', hmessages.2, got, due, ?_, hfetched.nodup, hfetched.got_held,
      hfetched.due_held, hfetched.new, hfetched.length_le, hfetched.covers, haffords⟩
    rw [← howed, ← List.singleton_append, bundlesIn_append, hnone, List.nil_append]
  cases pc with
  | recvHave mine =>
    cases message with
    | haveHashes theirs => exact hquiet _ rfl (asked_wanted hhonors hmessages.1) trivial
    | _ => cases hnext
  | recvWant =>
    cases message with
    | want theirs => exact hquiet _ rfl hmessages.1 trivial
    | _ => cases hnext
  | admitting admitted budget =>
    cases message with
    | done => exact hquiet _ rfl trivial trivial
    | bundle b =>
      have hcons : b :: (bundlesIn (inFlight json rest) ++ peer.pc.unsent.getD []) =
          due.map peer.store.bytesAt := howed
      obtain ⟨k, due, rfl⟩ : ∃ k due', due = k :: due' := by
        cases due with
        | nil => cases hcons
        | cons k due => exact ⟨k, due, rfl⟩
      rw [List.map_cons, List.cons.injEq] at hcons
      obtain ⟨rfl, hrest⟩ := hcons
      have hbudget : (cfg x).maxBundlesPerSession ≤ budget + got.length := hfetched.affords
      obtain ⟨s', had, hk⟩ := hfetched.admitted hsource hroom hbudget
      have hs : Keeps store s' := fun j b hb => admitChecked_keeps had hb
      have hstep : syncAdmit c (cfg x) nowMs store admitted budget (peer.store.bytesAt k) =
          (.admitting (admitted + 1) (budget - 1), s') := by
        rw [syncAdmit, had]
      change Transfer cfg json base x
        ⟨(syncAdmit c (cfg x) nowMs store admitted budget (peer.store.bytesAt k)).2,
          (syncAdmit c (cfg x) nowMs store admitted budget (peer.store.bytesAt k)).1,
          rest, dropped⟩ peer
      rw [hstep]
      refine ⟨List.Subset.trans hgrown hs.keys, trivial, ?_, got ++ [k], due,
        hfetched.stored hs hk hrest hbudget⟩
      exact fun m hm => (hmessages.2 m hm).keeps (Keeps.refl _) hs
    | _ => cases hnext
  | _ => simp [SyncPc.waiting] at hwait

end Transfers

/-- Both stores are accounted, with room for what the other holds, and nothing in them has
expired. -/
structure Fertile (c : Crates) (cfg : Side → RelayConfig) (w : SyncPair) (nowMs : UInt64) : Prop where
  accounted : ∀ x, Accounted c (cfg x) (w x).store
  room : ∀ x, RoomAt (cfg x) (w x).store (w x.other).store
  live : w.Live nowMs

def Transferring (cfg : Side → RelayConfig) (json : SyncJson) (base : Side → RelayStore)
    (w : SyncPair) : Prop :=
  ∀ x, Transfer cfg json base x (w x) (w x.other)

section Runs

variable {c : Crates} {cfg : Side → RelayConfig} {json : SyncJson} {base : Side → RelayStore}
  {w : SyncPair}

lemma transferring_of_fresh (hfresh : ∀ x, (w x).pc = .sweep ∧ (w x).inbox = [])
    (hgrown : ∀ x, (base x).byHash.keys ⊆ (w x).store.byHash.keys) :
    Transferring cfg json base w := by
  intro x
  obtain ⟨hpc, hinbox⟩ := hfresh x
  obtain ⟨hpeer, -⟩ := hfresh x.other
  refine ⟨hgrown x, ?_, ?_, [], [], ?_⟩
  · rw [hpc]
    trivial
  · simp [hinbox, inFlight]
  · constructor
    · simp [hinbox, hpeer, inFlight, bundlesIn, SyncPc.unsent]
    · exact List.nodup_nil
    · exact List.nil_subset _
    · exact List.nil_subset _
    · simp
    · exact Nat.zero_le _
    · rw [hpeer]
      rfl
    · rw [hpc]
      trivial

lemma Transferring.advanced {w' : SyncPair} {x : Side} {nowMs : UInt64} {order : IterOrder}
    (hw : w.Ordered json) (h : Transferring cfg json base w) (hfertile : Fertile c cfg w nowMs)
    (hadv : Advanced c cfg json w x nowMs order w') : Transferring cfg json base w' := by
  have hx := h x
  have hother := h x.other
  have hhonors : (w x).pc.Honors cfg base x.other.other (w x).store (w x.other).store := by
    rw [Side.other_other]
    exact hx.honors
  rw [Side.other_other] at hother
  cases hadv with
  | idle _ => exact h
  | ran hwait hfin hsilent =>
    refine (Side.forall_iff x).mpr ⟨?_, ?_⟩
    · simpa using hx.ran (hfertile.live x) hwait hfin
    · have hquiet : (syncStep c (cfg x.other.other) (w x).store (w x).pc
          (.advance nowMs order)).2.2 = none := by rwa [Side.other_other]
      simpa using hother.peerRan hhonors (hfertile.live x) hwait hfin hquiet
  | sent message bytes hwait hfin hmessage hbytes =>
    refine (Side.forall_iff x).mpr ⟨?_, ?_⟩
    · have hran : Transfer cfg json base x
          ((w x).after (syncStep c (cfg x) (w x).store (w x).pc (.advance nowMs order)))
          (w x.other) := hx.ran (hfertile.live x) hwait hfin
      have hown := hran.congr_peer
        { w x.other with inbox := (w x.other).inbox ++ [bytes] } rfl rfl
      simpa using hown
    · have hpeer := hother.peerSent hhonors (by rwa [Side.other_other]) hbytes
      simpa using hpeer
  | received message bytes rest hwait hinbox hbytes =>
    have hcarries := (hw x).carries
    rw [hinbox, inFlight_cons hbytes, Grammar.carries_cons] at hcarries
    obtain ⟨phase, hphase, -⟩ := hcarries
    refine (Side.forall_iff x).mpr ⟨?_, ?_⟩
    · have hsource : ∀ k b, (w x.other).store.byHash.lookup k = some b →
          k = hashBundle c b.bytes ∧ Decoded c b ∧ nowMs < b.expiryMs := by
        intro k b hb
        exact ⟨(hfertile.accounted x.other).keyed k b hb,
          (hfertile.accounted x.other).decoded k b hb, hfertile.live x.other k b hb⟩
      simpa using hx.received hsource (hfertile.room x) hinbox hbytes hwait hphase
    · have hpeer : Transfer cfg json base x.other (w x.other)
          ({ w x with inbox := rest }.after (syncStep c (cfg x.other.other) (w x).store (w x).pc
            (.receive nowMs (.ok message)))) := hother.peerReceived hwait hphase
      simpa using hpeer

lemma Transferring.dropped (h : Transferring cfg json base w) (x : Side) :
    Transferring cfg json base (Function.update w x { w x with dropped := true }) := by
  have hx := h x
  have hother := h x.other
  rw [Side.other_other] at hother
  refine (Side.forall_iff x).mpr ⟨?_, ?_⟩
  · obtain ⟨hgrown, hhonors, hmessages, got, due, hfetched⟩ := hx
    have hdropped : Transfer cfg json base x { w x with dropped := true } (w x.other) :=
      ⟨hgrown, hhonors, hmessages, got, due, hfetched.owed, hfetched.nodup, hfetched.got_held,
        hfetched.due_held, hfetched.new, hfetched.length_le, hfetched.covers, hfetched.affords⟩
    simpa using hdropped
  · have hpeer := hother.congr_peer { w x with dropped := true } rfl rfl
    simpa using hpeer

/-- Any step of the two sessions and the link. -/
theorem transferring_step (hjson : json.RoundTrip) (hw : w.Ordered json)
    (h : Transferring cfg json base w) {label : PairLabel}
    (hlabel : match label with
      | .advance _ nowMs _ => Fertile c cfg w nowMs
      | .drop _ => True
      | .interfere x store => Keeps (w x).store store) :
    Transferring cfg json base (w.step c cfg json label) := by
  cases label with
  | advance x nowMs order => exact h.advanced hw hlabel (advance_cases hjson hw x nowMs order)
  | drop x =>
    by_cases hfin : (w x).pc.isFinished = true
    · rw [step, if_pos hfin]
      exact h.dropped x
    · rw [step, if_neg hfin]
      exact h
  | interfere x store =>
    have hx := h x
    have hother := h x.other
    rw [Side.other_other] at hother
    refine (Side.forall_iff x).mpr ⟨?_, ?_⟩
    · simpa [step] using hx.keeps hlabel (Keeps.refl _)
    · simpa [step] using hother.keeps (Keeps.refl _) hlabel

/-- A session that has ended has pulled all that its peer held at the start, or as much as
one session can. -/
theorem Transferring.pulled (h : Transferring cfg json base w) (hw : w.Ordered json) {x : Side}
    (hfin : (w x).pc.isFinished = true) : Pulled cfg base x (w x).store := by
  obtain ⟨hgrown, -, -, got, due, hfetched⟩ := h x
  have hcarries := (hw x).carries
  rw [SyncPc.readPhase_eq_closed_iff.mpr hfin] at hcarries
  obtain ⟨hempty, hwritten⟩ := hcarries.eq_nil SyncPhase.next_closed
  have hsent : (w x.other).pc.unsent = some [] := by
    cases hpc : (w x.other).pc with
    | admitting admitted budget => rfl
    | finished result => rfl
    | _ => simp [hpc, SyncPc.writePhase] at hwritten
  have howed := hfetched.owed
  have hcovers := hfetched.covers
  rw [hempty, hsent] at howed
  rw [hsent, if_pos (by rfl)] at hcovers
  have hnone : due = [] := by simpa [bundlesIn] using howed.symm
  subst hnone
  rw [List.append_nil] at hcovers
  rcases hcovers with hall | hfull
  · exact Or.inl (by simpa using hall)
  · right
    have hnodup : ((base x).byHash.keys ++ got).Nodup := by
      rw [List.nodup_append']
      refine ⟨(base x).byHash.keys_nodup, by simpa using hfetched.nodup, ?_⟩
      exact fun k hk hgot => hfetched.new k (by simpa using hgot) hk
    have hsubset : (base x).byHash.keys ++ got ⊆ (w x).store.byHash.keys :=
      List.append_subset.mpr ⟨hgrown, hfetched.got_held⟩
    have hle := (List.subperm_of_subset hnodup hsubset).length_le
    have hkeys : ∀ s : RelayStore, s.byHash.keys.length = s.storedCount :=
      fun s => List.length_map _
    rw [List.length_append, hkeys, hkeys, hfull] at hle
    exact hle

end Runs

end SyncPair

end Parda.Mesh
