import Mathlib.Algebra.Order.Group.Nat
import Parda.Mesh.Accounting
import Parda.Mesh.PairedSync

/-!
# What a sync session moves

The outcome of two sessions on one link when nothing else touches the stores and no
bundle expires. The bundles that a side takes in are, at every moment, split into those
it has stored and those that its peer still owes it, in flight or not yet sent.
-/

namespace Parda.Mesh

open Protocol Machine

/-- The hashes that `theirs` stores and `mine` does not. -/
def missing (mine theirs : RelayStore) : List BundleHash :=
  theirs.byHash.keys.filter (fun h => (mine.byHash.lookup h).isNone)

namespace RelayStore

/-- `mine` with the bundle that `theirs` stores under the hash. -/
def pullOne (theirs mine : RelayStore) (hash : BundleHash) : RelayStore :=
  match theirs.byHash.lookup hash with
  | some b => ⟨mine.byHash.insert hash b, mine.totalBytes + b.bytes.length⟩
  | none => mine

def pull (mine theirs : RelayStore) (hashes : List BundleHash) : RelayStore :=
  hashes.foldl (pullOne theirs) mine

def bytesAt (s : RelayStore) (hash : BundleHash) : Bytes :=
  ((s.byHash.lookup hash).map StoredBundle.bytes).getD []

/-- Any `n` of the bundles that `theirs` stores besides fit into `mine`. -/
def RoomFor (cfg : RelayConfig) (mine theirs : RelayStore) (n : ℕ) : Prop :=
  ∀ hashes : List BundleHash, hashes.Nodup → hashes ⊆ missing mine theirs → hashes.length ≤ n →
    (mine.pull theirs hashes).storedCount ≤ cfg.maxTotalBundles ∧
      (mine.pull theirs hashes).totalBytes ≤ cfg.maxTotalBytes

end RelayStore

section Pull

variable {mine theirs : RelayStore} {hash : BundleHash} {hashes : List BundleHash}

lemma mem_missing : hash ∈ missing mine theirs ↔
    mine.byHash.lookup hash = none ∧ ∃ b, theirs.byHash.lookup hash = some b := by
  unfold missing
  rw [List.mem_filter, ← AList.mem_keys, ← AList.lookup_isSome, Option.isSome_iff_exists,
    Option.isNone_iff_eq_none, and_comm]

lemma missing_nodup : (missing mine theirs).Nodup :=
  theirs.byHash.keys_nodup.filter _

@[simp] lemma pull_nil : mine.pull theirs [] = mine := rfl

@[simp] lemma pull_concat :
    mine.pull theirs (hashes ++ [hash]) = RelayStore.pullOne theirs (mine.pull theirs hashes) hash :=
  List.foldl_append

lemma lookup_pull (h : hashes ⊆ missing mine theirs) (k : BundleHash) :
    (mine.pull theirs hashes).byHash.lookup k =
      if k ∈ hashes then theirs.byHash.lookup k else mine.byHash.lookup k := by
  induction hashes using List.reverseRecOn with
  | nil => simp
  | append_singleton hashes hash ih =>
    rw [List.append_subset] at h
    obtain ⟨-, b, hb⟩ := mem_missing.mp (h.2 List.mem_cons_self)
    rw [pull_concat, RelayStore.pullOne, hb]
    by_cases hk : k = hash
    · subst hk
      rw [AList.lookup_insert, if_pos (by simp), hb]
    · simp [hk, ih h.1]

lemma storedCount_pull (hnodup : hashes.Nodup) (h : hashes ⊆ missing mine theirs) :
    (mine.pull theirs hashes).storedCount = mine.storedCount + hashes.length := by
  induction hashes using List.reverseRecOn with
  | nil => simp
  | append_singleton hashes hash ih =>
    rw [List.append_subset] at h
    rw [List.nodup_append] at hnodup
    obtain ⟨hnone, b, hb⟩ := mem_missing.mp (h.2 List.mem_cons_self)
    have hnew : hash ∉ (mine.pull theirs hashes).byHash := by
      rw [← AList.lookup_eq_none, lookup_pull h.1, if_neg, hnone]
      intro hmem
      exact hnodup.2.2 hash hmem hash List.mem_cons_self rfl
    have hcount := ih hnodup.1 h.1
    unfold RelayStore.storedCount at *
    rw [pull_concat, RelayStore.pullOne, hb, AList.entries_insert_of_notMem hnew]
    simp only [List.length_cons, List.length_append, List.length_nil]
    omega

lemma totalBytes_pull (h : hashes ⊆ missing mine theirs) :
    (mine.pull theirs hashes).totalBytes =
      mine.totalBytes + (hashes.map (fun k => (theirs.bytesAt k).length)).sum := by
  induction hashes using List.reverseRecOn with
  | nil => simp
  | append_singleton hashes hash ih =>
    rw [List.append_subset] at h
    obtain ⟨-, b, hb⟩ := mem_missing.mp (h.2 List.mem_cons_self)
    rw [pull_concat, RelayStore.pullOne, hb]
    simp [ih h.1, RelayStore.bytesAt, hb, Nat.add_assoc]

/-- Room for both stores together is room for what is missing. -/
lemma roomFor_of_totals {c : Crates} {cfg cfg' : RelayConfig}
    (htheirs : RelayStore.Accounted c cfg' theirs)
    (hcount : mine.storedCount + theirs.storedCount ≤ cfg.maxTotalBundles)
    (hbytes : mine.totalBytes + theirs.totalBytes ≤ cfg.maxTotalBytes) (n : ℕ) :
    RelayStore.RoomFor cfg mine theirs n := by
  intro hashes hnodup hsubset _
  have hkeys : hashes ⊆ theirs.byHash.keys :=
    fun k hk => List.mem_of_mem_filter (hsubset hk)
  obtain ⟨l, hperm, hsublist⟩ := List.subperm_of_subset hnodup hkeys
  constructor
  · rw [storedCount_pull hnodup hsubset, ← hperm.length_eq]
    have hle := hsublist.length_le
    have hlength : theirs.byHash.keys.length = theirs.storedCount := List.length_map _
    omega
  · have htotal : theirs.totalBytes =
        (theirs.byHash.keys.map (fun k => (theirs.bytesAt k).length)).sum := by
      rw [htheirs.total, Weight.total]
      apply congrArg
      unfold AList.keys List.keys
      rw [List.map_map]
      apply List.map_congr_left
      intro e he
      have hlook : theirs.byHash.lookup e.1 = some e.2 := AList.mem_lookup_iff.mpr he
      simp [RelayStore.bytesAt, hlook]
    have hle := (hsublist.map (fun k => (theirs.bytesAt k).length)).sum_le_sum
      (fun _ _ => Nat.zero_le _)
    rw [totalBytes_pull hsubset, ← (hperm.map _).sum_eq]
    omega

end Pull

/-- The number of bundles that a session moves to `x`. -/
def exchanged (cfg : Side → RelayConfig) (stores : Side → RelayStore) (x : Side) : ℕ :=
  min (min (cfg x).maxBundlesPerSession (cfg x.other).maxBundlesPerSession)
    (missing (stores x) (stores x.other)).length

/-- No other operation meets the stores, and none of their bundles has expired. -/
def Undisturbed (stores : Side → RelayStore) : PairLabel → Prop
  | .advance _ nowMs _ => ∀ x h b, (stores x).byHash.lookup h = some b → nowMs < b.expiryMs
  | .drop _ => True
  | .interfere _ _ => False

/-- A list that the relay at `x` may ask for. -/
structure WantList (cfg : Side → RelayConfig) (stores : Side → RelayStore) (x : Side)
    (want : List BundleHash) : Prop where
  nodup : want.Nodup
  subset : want ⊆ missing (stores x) (stores x.other)
  length : want.length =
    min (cfg x).maxBundlesPerSession (missing (stores x) (stores x.other)).length

namespace SyncPc

/-- The bundles that a session has collected and not sent. -/
def unsent : SyncPc → Option (List Bytes)
  | .sendBundles toSend => some toSend
  | .admitting _ _ | .finished _ => some []
  | _ => none

/-- The session has stored `n` bundles. -/
def Counted (cfg : RelayConfig) (n : ℕ) : SyncPc → Prop
  | .admitting admitted sessionBudget => admitted = n ∧ sessionBudget = cfg.maxBundlesPerSession - n
  | .finished (.ok admitted) => admitted = n
  | .finished (.error _) => True
  | _ => n = 0

/-- The lists of hashes that a session at `x` holds are those of the stores. -/
def Fits (cfg : Side → RelayConfig) (stores : Side → RelayStore) (x : Side) : SyncPc → Prop
  | .sendHave mine | .recvHave mine => mine.Perm (stores x).byHash.keys
  | .sendWant want => WantList cfg stores x want
  | .collect theirWant => WantList cfg stores x.other theirWant
  | _ => True

end SyncPc

/-- The lists of hashes on a message from `x` are those of the stores. -/
def SyncMessage.Fits (cfg : Side → RelayConfig) (stores : Side → RelayStore) (x : Side) :
    SyncMessage → Prop
  | .haveHashes hashes => hashes.Perm (stores x).byHash.keys
  | .want hashes => WantList cfg stores x hashes
  | _ => True

/-- The bundles on messages. -/
def bundlesIn (messages : List SyncMessage) : List Bytes :=
  messages.filterMap fun
    | .bundle bytes => some bytes
    | _ => none

lemma bundlesIn_append (messages messages' : List SyncMessage) :
    bundlesIn (messages ++ messages') = bundlesIn messages ++ bundlesIn messages' := by
  simp [bundlesIn]

namespace SyncPair

/-- What the end `e` at `x` has stored (`got`) and is still owed (`due`) by its peer. -/
structure Moved (cfg : Side → RelayConfig) (json : SyncJson) (stores : Side → RelayStore) (x : Side)
    (e peer : SyncEnd) (got due : List BundleHash) : Prop where
  store : e.store = (stores x).pull (stores x.other) got
  owed : bundlesIn (inFlight json e.inbox) ++ peer.pc.unsent.getD [] =
    due.map (stores x.other).bytesAt
  nodup : (got ++ due).Nodup
  subset : got ++ due ⊆ missing (stores x) (stores x.other)
  length : (got ++ due).length = if peer.pc.unsent.isSome then exchanged cfg stores x else 0
  counted : e.pc.Counted (cfg x) got.length

/-- The traffic towards the end `e` at `x`. -/
structure Flow (cfg : Side → RelayConfig) (json : SyncJson) (stores : Side → RelayStore) (x : Side)
    (e peer : SyncEnd) : Prop where
  fits : e.pc.Fits cfg stores x
  messages : ∀ message ∈ inFlight json e.inbox, message.Fits cfg stores x.other
  moved : ∃ got due, Moved cfg json stores x e peer got due

end SyncPair

section Lists

variable {cfg : Side → RelayConfig} {stores : Side → RelayStore} {x : Side}

/-- What a side asks for out of what its peer offers. -/
lemma wantList_wanted {mine theirs : List BundleHash} (hmine : mine.Perm (stores x).byHash.keys)
    (htheirs : theirs.Perm (stores x.other).byHash.keys) :
    WantList cfg stores x (wanted (cfg x) mine theirs) := by
  have hperm : (theirs.filter (fun h => !mine.contains h)).Perm
      (missing (stores x) (stores x.other)) := by
    have hsame : ∀ h, (!mine.contains h) = ((stores x).byHash.lookup h).isNone := by
      intro h
      rw [Bool.eq_iff_iff]
      simp [hmine.mem_iff, AList.lookup_eq_none, AList.mem_keys]
    unfold missing
    simp only [hsame]
    exact htheirs.filter _
  have hnodup := hperm.nodup_iff.mpr missing_nodup
  constructor
  · exact hnodup.sublist (List.take_sublist _ _)
  · intro h hh
    exact hperm.subset (List.mem_of_mem_take hh)
  · rw [wanted, List.length_take, hperm.length_eq]

/-- What a side pushes of what its peer asked for. -/
lemma collected_eq {theirWant : List BundleHash} (h : WantList cfg stores x theirWant) :
    collected (cfg x.other) (stores x.other) theirWant =
      (theirWant.take (cfg x.other).maxBundlesPerSession).map (stores x.other).bytesAt := by
  unfold collected
  rw [← List.filterMap_eq_map]
  apply List.filterMap_congr
  intro k hk
  obtain ⟨-, b, hb⟩ := mem_missing.mp (h.subset (List.mem_of_mem_take hk))
  simp [RelayStore.bytesAt, hb]

end Lists

lemma sweepExpired_eq_self {s : RelayStore} {order : IterOrder} {nowMs : UInt64}
    (h : ∀ k b, s.byHash.lookup k = some b → nowMs < b.expiryMs) :
    s.sweepExpired order nowMs = s := by
  have hnone : s.matching order (fun b => b.expiryMs ≤ nowMs) = [] := by
    rw [List.eq_nil_iff_forall_not_mem]
    intro k hk
    obtain ⟨b, hb, hle⟩ := RelayStore.mem_matching.mp hk
    exact absurd (h k b hb) (UInt64.not_lt.mpr (by simpa using hle))
  rw [RelayStore.sweepExpired, hnone]
  rfl

namespace SyncPair

section Flows

variable {c : Crates} {cfg : Side → RelayConfig} {json : SyncJson} {stores : Side → RelayStore}
  {x : Side} {e peer : SyncEnd} {nowMs : UInt64} {order : IterOrder} {message : SyncMessage}
  {bytes : Bytes} {got due : List BundleHash}

/-- A session that has not begun to store has left its store alone. -/
lemma Moved.untouched (h : Moved cfg json stores x e peer got due) (hgot : got.length = 0) :
    e.store = stores x := by
  rw [h.store, List.length_eq_zero_iff.mp hgot, pull_nil]

/-- Only the session of the peer matters. -/
lemma Flow.congr_peer (h : Flow cfg json stores x e peer) (peer' : SyncEnd)
    (hpc : peer'.pc = peer.pc) : Flow cfg json stores x e peer' := by
  obtain ⟨hfits, hmessages, got, due, hmoved⟩ := h
  refine ⟨hfits, hmessages, got, due, hmoved.store, ?_, hmoved.nodup, hmoved.subset, ?_,
    hmoved.counted⟩
  · rw [hpc]
    exact hmoved.owed
  · rw [hpc]
    exact hmoved.length

/-- The receiving end takes a step of its own. -/
lemma Flow.ran (h : Flow cfg json stores x e peer)
    (hlive : ∀ k b, (stores x).byHash.lookup k = some b → nowMs < b.expiryMs)
    (hwait : e.pc.waiting = false) (hfin : e.pc.isFinished = false) :
    Flow cfg json stores x
      (e.after (syncStep c (cfg x) e.store e.pc (.advance nowMs order))) peer := by
  obtain ⟨store, pc, inbox, dropped⟩ := e
  obtain ⟨hfits, hmessages, got, due, hmoved⟩ := h
  have hstore := hmoved.store
  have hcounted := hmoved.counted
  have hnext : ∀ pc' store', pc'.Fits cfg stores x → store' = store → pc'.Counted (cfg x) got.length →
      Flow cfg json stores x ⟨store', pc', inbox, dropped⟩ peer := by
    rintro pc' store' hfits' rfl hcounted'
    exact ⟨hfits', hmessages, got, due,
      ⟨hmoved.store, hmoved.owed, hmoved.nodup, hmoved.subset, hmoved.length, hcounted'⟩⟩
  cases pc with
  | sweep =>
    have huntouched : store = stores x := hmoved.untouched hcounted
    apply hnext
    · trivial
    · exact sweepExpired_eq_self (by rwa [huntouched])
    · exact hcounted
  | snapshot =>
    have huntouched : store = stores x := hmoved.untouched hcounted
    apply hnext
    · change (order.order store.byHash.keys).Perm _
      rw [← huntouched]
      exact order.order_perm _
    · rfl
    · exact hcounted
  | sendBundles toSend =>
    cases toSend with
    | nil =>
      have hgot : got.length = 0 := hcounted
      apply hnext
      · trivial
      · rfl
      · simp [syncStep, SyncPc.Counted, hgot]
    | cons bytes rest => exact hnext _ _ trivial rfl hcounted
  | sendHave mine => exact hnext _ _ hfits rfl hcounted
  | sendWant want => exact hnext _ _ trivial rfl hcounted
  | collect theirWant => exact hnext _ _ trivial rfl hcounted
  | recvHave mine => simp [SyncPc.waiting] at hwait
  | recvWant => simp [SyncPc.waiting] at hwait
  | admitting admitted budget => simp [SyncPc.waiting] at hwait
  | finished result => simp [SyncPc.isFinished] at hfin

/-- The sending end takes a step of its own that puts nothing on the link. -/
lemma Flow.peerRan (h : Flow cfg json stores x e peer) (hpeer : Flow cfg json stores x.other peer e)
    (hwait : peer.pc.waiting = false) (hfin : peer.pc.isFinished = false)
    (hsilent :
      (syncStep c (cfg x.other) peer.store peer.pc (.advance nowMs order)).2.2 = none) :
    Flow cfg json stores x e
      (peer.after (syncStep c (cfg x.other) peer.store peer.pc (.advance nowMs order))) := by
  obtain ⟨store, pc, inbox, dropped⟩ := peer
  obtain ⟨hfits, hmessages, got, due, hmoved⟩ := h
  obtain ⟨hpeerFits, -, got', due', hpeerMoved⟩ := hpeer
  have hpeerCounted := hpeerMoved.counted
  cases pc with
  | collect theirWant =>
    have huntouched : store = stores x.other := hpeerMoved.untouched hpeerCounted
    have hwant : WantList cfg stores x theirWant := by simpa [SyncPc.Fits] using hpeerFits
    have hnil : got ++ due = [] := List.length_eq_zero_iff.mp hmoved.length
    rw [List.append_eq_nil_iff] at hnil
    obtain ⟨rfl, rfl⟩ := hnil
    have hempty : bundlesIn (inFlight json e.inbox) = [] := by
      simpa [SyncPc.unsent] using hmoved.owed
    refine ⟨hfits, hmessages, [], theirWant.take (cfg x.other).maxBundlesPerSession, ?_⟩
    constructor
    · exact hmoved.store
    · simp [hempty, SyncEnd.after, syncStep, SyncPc.unsent, huntouched, collected_eq hwant]
    · exact hwant.nodup.sublist (List.take_sublist _ _)
    · intro k hk
      exact hwant.subset (List.mem_of_mem_take hk)
    · simp only [SyncEnd.after, syncStep, SyncPc.unsent, Option.isSome_some, if_true, exchanged,
        List.nil_append, List.length_take, hwant.length]
      omega
    · exact hmoved.counted
  | sweep =>
    exact ⟨hfits, hmessages, got, due,
      ⟨hmoved.store, hmoved.owed, hmoved.nodup, hmoved.subset, hmoved.length, hmoved.counted⟩⟩
  | snapshot =>
    exact ⟨hfits, hmessages, got, due,
      ⟨hmoved.store, hmoved.owed, hmoved.nodup, hmoved.subset, hmoved.length, hmoved.counted⟩⟩
  | sendBundles toSend => cases toSend with
    | _ => cases hsilent
  | sendHave mine => cases hsilent
  | sendWant want => cases hsilent
  | recvHave mine => simp [SyncPc.waiting] at hwait
  | recvWant => simp [SyncPc.waiting] at hwait
  | admitting admitted budget => simp [SyncPc.waiting] at hwait
  | finished result => simp [SyncPc.isFinished] at hfin

/-- The sending end puts a message on the link. -/
lemma Flow.peerSent (h : Flow cfg json stores x e peer) (hpeer : Flow cfg json stores x.other peer e)
    (hmessage : (syncStep c (cfg x.other) peer.store peer.pc (.advance nowMs order)).2.2 =
      some message) (hbytes : json.fromSlice bytes = .ok message) :
    Flow cfg json stores x { e with inbox := e.inbox ++ [bytes] }
      (peer.after (syncStep c (cfg x.other) peer.store peer.pc (.advance nowMs order))) := by
  obtain ⟨store, pc, inbox, dropped⟩ := peer
  obtain ⟨hfits, hmessages, got, due, hmoved⟩ := h
  have hpeerFits := hpeer.fits
  have howed := hmoved.owed
  have hlength := hmoved.length
  have hnext : ∀ pc', message.Fits cfg stores x.other →
      bundlesIn [message] ++ pc'.unsent.getD [] = pc.unsent.getD [] →
      pc'.unsent.isSome = pc.unsent.isSome →
      Flow cfg json stores x { e with inbox := e.inbox ++ [bytes] } ⟨store, pc', inbox, dropped⟩ := by
    intro pc' hmessageFits hunsent hsome
    refine ⟨hfits, ?_, got, due, ?_⟩
    · intro m hm
      rcases (by simpa [inFlight_concat hbytes] using hm :
        m ∈ inFlight json e.inbox ∨ m = message) with hold | rfl
      · exact hmessages m hold
      · exact hmessageFits
    · constructor
      · exact hmoved.store
      · rw [inFlight_concat hbytes, bundlesIn_append, List.append_assoc]
        exact (congrArg _ hunsent).trans howed
      · exact hmoved.nodup
      · exact hmoved.subset
      · rw [hlength, hsome]
      · exact hmoved.counted
  cases pc with
  | sendHave mine =>
    cases hmessage
    exact hnext _ hpeerFits rfl rfl
  | sendWant want =>
    cases hmessage
    exact hnext _ hpeerFits rfl rfl
  | sendBundles toSend =>
    cases toSend with
    | nil =>
      cases hmessage
      exact hnext _ trivial rfl rfl
    | cons b rest =>
      cases hmessage
      exact hnext _ trivial rfl rfl
  | _ => cases hmessage

/-- The sending end reads a message of the grammar. -/
lemma Flow.peerReceived {phase : SyncPhase} {rest : List Bytes} (h : Flow cfg json stores x e peer)
    (hwait : peer.pc.waiting = true) (hnext : peer.pc.readPhase.next message = some phase) :
    Flow cfg json stores x e ({ peer with inbox := rest }.after
      (syncStep c (cfg x.other) peer.store peer.pc (.receive nowMs (.ok message)))) := by
  obtain ⟨hfits, hmessages, got, due, hmoved⟩ := h
  have hunsent : (syncStep c (cfg x.other) peer.store peer.pc
      (.receive nowMs (.ok message))).1.unsent = peer.pc.unsent := by
    cases hpc : peer.pc with
    | recvHave mine =>
      rw [hpc] at hnext
      cases message with
      | haveHashes theirs => rfl
      | _ => cases hnext
    | recvWant =>
      rw [hpc] at hnext
      cases message with
      | want theirs => rfl
      | _ => cases hnext
    | admitting admitted budget =>
      rw [hpc] at hnext
      cases message with
      | bundle b =>
        change (syncAdmit c (cfg x.other) nowMs peer.store admitted budget b).1.unsent = _
        unfold syncAdmit
        cases peer.store.admitChecked c (cfg x.other) nowMs b (some budget) with
        | _ => rfl
      | done => rfl
      | _ => cases hnext
    | _ => simp [hpc, SyncPc.waiting] at hwait
  refine ⟨hfits, hmessages, got, due, ?_⟩
  constructor
  · exact hmoved.store
  · simpa [SyncEnd.after, hunsent] using hmoved.owed
  · exact hmoved.nodup
  · exact hmoved.subset
  · simpa [SyncEnd.after, hunsent] using hmoved.length
  · exact hmoved.counted

/-- The next bundle that is owed is stored when it arrives. -/
lemma Moved.admitted {k : BundleHash} (h : Moved cfg json stores x e peer got (k :: due))
    (hsource : ∀ k b, (stores x.other).byHash.lookup k = some b →
      k = hashBundle c b.bytes ∧ RelayStore.Decoded c b ∧ nowMs < b.expiryMs)
    (hroom : RelayStore.RoomFor (cfg x) (stores x) (stores x.other) (exchanged cfg stores x))
    (hunsent : peer.pc.unsent.isSome = true) (budget : ℕ)
    (hbudget : budget = (cfg x).maxBundlesPerSession - got.length) :
    e.store.admitChecked c (cfg x) nowMs ((stores x.other).bytesAt k) (some budget) =
      .ok ((stores x).pull (stores x.other) (got ++ [k])) := by
  have hlength := h.length
  rw [if_pos hunsent] at hlength
  have hsplit : got ++ k :: due = (got ++ [k]) ++ due := by simp
  have hnodup := h.nodup
  have hsubset := h.subset
  rw [hsplit] at hnodup hsubset
  rw [List.append_subset] at hsubset
  have hgotSubset := (List.append_subset.mp hsubset.1).1
  obtain ⟨hnone, b, hb⟩ := mem_missing.mp (hsubset.1 (by simp : k ∈ got ++ [k]))
  obtain ⟨hkey, hdec, hexp⟩ := hsource k b hb
  have hbytes : (stores x.other).bytesAt k = b.bytes := by simp [RelayStore.bytesAt, hb]
  have hgotNodup := (List.nodup_append.mp hnodup).1
  have hfew : (got ++ [k]).length ≤ exchanged cfg stores x := by
    rw [← hlength]
    simp
  have hcap : exchanged cfg stores x ≤ (cfg x).maxBundlesPerSession := by
    unfold exchanged
    omega
  obtain ⟨hcount, htotal⟩ := hroom _ hgotNodup hsubset.1 hfew
  have hnew : e.store.byHash.lookup (hashBundle c b.bytes) = none := by
    rw [← hkey, h.store, lookup_pull hgotSubset, if_neg, hnone]
    intro hmem
    exact (List.nodup_append.mp hgotNodup).2.2 k hmem k List.mem_cons_self rfl
  have hpull : (stores x).pull (stores x.other) (got ++ [k]) =
      ⟨e.store.byHash.insert (hashBundle c b.bytes) b, e.store.totalBytes + b.bytes.length⟩ := by
    rw [pull_concat, RelayStore.pullOne, hb, ← h.store, ← hkey]
  have hcounted : e.store.byHash.entries.length = (stores x).storedCount + got.length := by
    have hgot := storedCount_pull (List.nodup_append.mp hgotNodup).1 hgotSubset
    rwa [← h.store] at hgot
  rw [hpull] at htotal ⊢
  rw [storedCount_pull hgotNodup hsubset.1, List.length_append, List.length_singleton] at hcount
  rw [List.length_append, List.length_singleton] at hfew
  rw [hbytes]
  apply RelayStore.admitChecked_ok hdec hexp hnew
  · simp only [ne_eq, Option.some.injEq]
    omega
  · omega
  · exact htotal

/-- The receiving end reads a message of the grammar. -/
lemma Flow.received {phase : SyncPhase} {rest : List Bytes} (h : Flow cfg json stores x e peer)
    (hsource : ∀ k b, (stores x.other).byHash.lookup k = some b →
      k = hashBundle c b.bytes ∧ RelayStore.Decoded c b ∧ nowMs < b.expiryMs)
    (hroom : RelayStore.RoomFor (cfg x) (stores x) (stores x.other) (exchanged cfg stores x))
    (hinbox : e.inbox = bytes :: rest) (hbytes : json.fromSlice bytes = .ok message)
    (hwait : e.pc.waiting = true) (hnext : e.pc.readPhase.next message = some phase) :
    Flow cfg json stores x ({ e with inbox := rest }.after
      (syncStep c (cfg x) e.store e.pc (.receive nowMs (.ok message)))) peer := by
  obtain ⟨store, pc, inbox, dropped⟩ := e
  obtain ⟨hfits, hmessages, got, due, hmoved⟩ := h
  have hcounted := hmoved.counted
  have howed := hmoved.owed
  change inbox = bytes :: rest at hinbox
  subst hinbox
  change ∀ m ∈ inFlight json (bytes :: rest), m.Fits cfg stores x.other at hmessages
  rw [inFlight_cons hbytes] at hmessages howed
  rw [List.forall_mem_cons] at hmessages
  -- a message without a bundle moves the program counter only
  have hquiet : ∀ pc', bundlesIn [message] = [] → pc'.Fits cfg stores x →
      pc'.Counted (cfg x) got.length →
      Flow cfg json stores x ⟨store, pc', rest, dropped⟩ peer := by
    intro pc' hnone hfits' hcounted'
    refine ⟨hfits', hmessages.2, got, due, ?_⟩
    refine ⟨hmoved.store, ?_, hmoved.nodup, hmoved.subset, hmoved.length, hcounted'⟩
    rw [← howed, ← List.singleton_append, bundlesIn_append, hnone, List.nil_append]
  cases pc with
  | recvHave mine =>
    cases message with
    | haveHashes theirs => exact hquiet _ rfl (wantList_wanted hfits hmessages.1) hcounted
    | _ => cases hnext
  | recvWant =>
    cases message with
    | want theirs => exact hquiet _ rfl hmessages.1 hcounted
    | _ => cases hnext
  | admitting admitted budget =>
    cases message with
    | done => exact hquiet _ rfl trivial hcounted.1
    | bundle b =>
      have hcons : b :: (bundlesIn (inFlight json rest) ++ peer.pc.unsent.getD []) =
          due.map (stores x.other).bytesAt := howed
      obtain ⟨k, due, rfl⟩ : ∃ k due', due = k :: due' := by
        cases due with
        | nil => cases hcons
        | cons k due => exact ⟨k, due, rfl⟩
      rw [List.map_cons, List.cons.injEq] at hcons
      obtain ⟨rfl, hrest⟩ := hcons
      have hunsent : peer.pc.unsent.isSome = true := by
        by_contra hno
        have hlength := hmoved.length
        rw [if_neg hno] at hlength
        simp at hlength
      have hpulled : syncAdmit c (cfg x) nowMs store admitted budget ((stores x.other).bytesAt k) =
          (.admitting (admitted + 1) (budget - 1),
            (stores x).pull (stores x.other) (got ++ [k])) := by
        rw [syncAdmit, hmoved.admitted hsource hroom hunsent budget hcounted.2]
      have hsplit : got ++ [k] ++ due = got ++ k :: due := by simp
      change Flow cfg json stores x
        ⟨(syncAdmit c (cfg x) nowMs store admitted budget ((stores x.other).bytesAt k)).2,
          (syncAdmit c (cfg x) nowMs store admitted budget ((stores x.other).bytesAt k)).1,
          rest, dropped⟩ peer
      rw [hpulled]
      refine ⟨trivial, hmessages.2, got ++ [k], due, ?_⟩
      constructor
      · rfl
      · exact hrest
      · rw [hsplit]
        exact hmoved.nodup
      · rw [hsplit]
        exact hmoved.subset
      · rw [hsplit]
        exact hmoved.length
      · obtain ⟨hadmitted, hbudget⟩ := hcounted
        simp only [SyncPc.Counted, List.length_append, List.length_singleton]
        omega
    | _ => cases hnext
  | _ => simp [SyncPc.waiting] at hwait

end Flows

/-- The stores are accounted, and each has room for what a session moves to it. -/
structure Ready (c : Crates) (cfg : Side → RelayConfig) (stores : Side → RelayStore) : Prop where
  accounted : ∀ x, RelayStore.Accounted c (cfg x) (stores x)
  room : ∀ x, RelayStore.RoomFor (cfg x) (stores x) (stores x.other) (exchanged cfg stores x)

def Flowing (cfg : Side → RelayConfig) (json : SyncJson) (stores : Side → RelayStore)
    (w : SyncPair) : Prop :=
  w.Ordered json ∧ ∀ x, Flow cfg json stores x (w x) (w x.other)

section Runs

variable {c : Crates} {cfg : Side → RelayConfig} {json : SyncJson} {stores : Side → RelayStore}
  {w : SyncPair}

lemma flowing_start : Flowing cfg json stores (start stores) := by
  refine ⟨ordered_start stores, fun x => ⟨trivial, by simp [start, inFlight], [], [], ?_⟩⟩
  constructor
  · rfl
  · simp [start, inFlight, bundlesIn, SyncPc.unsent]
  · exact List.nodup_nil
  · exact List.nil_subset _
  · rfl
  · rfl

lemma Flowing.advanced {w' : SyncPair} {x : Side} {nowMs : UInt64} {order : IterOrder}
    (hready : Ready c cfg stores) (h : Flowing cfg json stores w)
    (hlive : Undisturbed stores (.advance x nowMs order))
    (hadv : Advanced c cfg json w x nowMs order w') :
    ∀ y, Flow cfg json stores y (w' y) (w' y.other) := by
  obtain ⟨hordered, hflow⟩ := h
  have hx := hflow x
  have hother := hflow x.other
  have hswap : Flow cfg json stores x.other.other (w x) (w x.other) := by
    rw [Side.other_other]
    exact hx
  rw [Side.other_other] at hother
  cases hadv with
  | idle _ => exact hflow
  | ran hwait hfin hsilent =>
    refine (Side.forall_iff x).mpr ⟨?_, ?_⟩
    · simpa using hx.ran (hlive x) hwait hfin
    · have hquiet : (syncStep c (cfg x.other.other) (w x).store (w x).pc
          (.advance nowMs order)).2.2 = none := by rwa [Side.other_other]
      simpa using hother.peerRan hswap hwait hfin hquiet
  | sent message bytes hwait hfin hmessage hbytes =>
    refine (Side.forall_iff x).mpr ⟨?_, ?_⟩
    · have hran : Flow cfg json stores x
          ((w x).after (syncStep c (cfg x) (w x).store (w x).pc (.advance nowMs order)))
          (w x.other) := hx.ran (hlive x) hwait hfin
      have hown := hran.congr_peer
        { w x.other with inbox := (w x.other).inbox ++ [bytes] } rfl
      simpa using hown
    · have hpeer := hother.peerSent hswap (by rwa [Side.other_other]) hbytes
      simpa using hpeer
  | received message bytes rest hwait hinbox hbytes =>
    have hcarries := (hordered x).carries
    rw [hinbox, inFlight_cons hbytes, Grammar.carries_cons] at hcarries
    obtain ⟨phase, hphase, -⟩ := hcarries
    refine (Side.forall_iff x).mpr ⟨?_, ?_⟩
    · have hsource : ∀ k b, (stores x.other).byHash.lookup k = some b →
          k = hashBundle c b.bytes ∧ RelayStore.Decoded c b ∧ nowMs < b.expiryMs := by
        intro k b hb
        exact ⟨(hready.accounted x.other).keyed k b hb, (hready.accounted x.other).decoded k b hb,
          hlive x.other k b hb⟩
      simpa using hx.received hsource (hready.room x) hinbox hbytes hwait hphase
    · have hpeer : Flow cfg json stores x.other (w x.other)
          ({ w x with inbox := rest }.after (syncStep c (cfg x.other.other) (w x).store (w x).pc
            (.receive nowMs (.ok message)))) := hother.peerReceived hwait hphase
      simpa using hpeer

lemma flowing_step (hjson : json.RoundTrip) (hready : Ready c cfg stores)
    (h : Flowing cfg json stores w) (label : PairLabel) (hlabel : Undisturbed stores label) :
    Flowing cfg json stores (w.step c cfg json label) := by
  refine ⟨ordered_step hjson h.1 label, ?_⟩
  cases label with
  | interfere x store => exact absurd hlabel not_false
  | advance x nowMs order => exact h.advanced hready hlabel (advance_cases hjson h.1 x nowMs order)
  | drop x =>
    by_cases hfin : (w x).pc.isFinished = true
    · rw [step, if_pos hfin]
      have hx := h.2 x
      have hother := h.2 x.other
      rw [Side.other_other] at hother
      refine (Side.forall_iff x).mpr ⟨?_, ?_⟩
      · obtain ⟨hfits, hmessages, got, due, hmoved⟩ := hx
        have hdropped : Flow cfg json stores x { w x with dropped := true } (w x.other) :=
          ⟨hfits, hmessages, got, due, hmoved.store, hmoved.owed, hmoved.nodup, hmoved.subset,
            hmoved.length, hmoved.counted⟩
        simpa using hdropped
      · have hpeer := hother.congr_peer { w x with dropped := true } rfl
        simpa using hpeer
    · rw [step, if_neg hfin]
      exact h.2

/-- An undisturbed session that has come to its end has moved to each side `exchanged` of
the bundles that it lacked, and nothing else has changed. -/
theorem pull_of_completed (hjson : json.RoundTrip) (hready : Ready c cfg stores)
    {labels : List PairLabel} (hlabels : ∀ label ∈ labels, Undisturbed stores label)
    (hdone : (run (step c cfg json) (start stores) labels).Completed) (x : Side) :
    ∃ got : List BundleHash, got.Nodup ∧ got ⊆ missing (stores x) (stores x.other) ∧
      got.length = exchanged cfg stores x ∧
      (run (step c cfg json) (start stores) labels x).store =
        (stores x).pull (stores x.other) got ∧
      (run (step c cfg json) (start stores) labels x).pc = .finished (.ok got.length) := by
  have hstep : ∀ w label, Flowing cfg json stores w → Undisturbed stores label →
      Flowing cfg json stores (w.step c cfg json label) :=
    fun w label h hlabel => flowing_step hjson hready h label hlabel
  have hrun := (everyState_of_everyStep hstep flowing_start
    (everyStep_of_forall_mem (start stores) hlabels)).last
  obtain ⟨got, due, hmoved⟩ := (hrun.2 x).moved
  obtain ⟨⟨admitted, hpc⟩, hinbox⟩ := hdone x
  obtain ⟨⟨admitted', hpeer⟩, -⟩ := hdone x.other
  have howed := hmoved.owed
  rw [hinbox, hpeer] at howed
  have hdue : due = [] := by simpa [inFlight, bundlesIn, SyncPc.unsent] using howed
  subst hdue
  have hnodup := hmoved.nodup
  have hsubset := hmoved.subset
  have hlength := hmoved.length
  have hcounted := hmoved.counted
  rw [List.append_nil] at hnodup hsubset hlength
  have hpushed : (SyncPc.finished (.ok admitted')).unsent.isSome = true := rfl
  rw [hpeer, if_pos hpushed] at hlength
  rw [hpc] at hcounted
  refine ⟨got, hnodup, hsubset, hlength, hmoved.store, ?_⟩
  rw [hpc]
  exact congrArg (fun n => SyncPc.finished (.ok n)) hcounted

end Runs

end SyncPair

end Parda.Mesh
