import Parda.Mesh.SyncOutcome

/-!
# Convergence of repeated sessions

Two relays that sync again and again, with nothing expiring and room for all bundles,
come to hold the union of what they started with after as many sessions as bundles were
missing, and then stay as they are.
-/

namespace Parda.Mesh

open Protocol Machine RelayStore

/-- One session, given its steps on both sides and left alone, takes `stores` to `stores'`. -/
def Syncs (c : Crates) (cfg : Side → RelayConfig) (json : SyncJson)
    (stores stores' : Side → RelayStore) : Prop :=
  ∃ labels : List PairLabel, (∀ label ∈ labels, Undisturbed stores label) ∧
    (run (SyncPair.step c cfg json) (SyncPair.start stores) labels).Completed ∧
    ∀ x, (run (SyncPair.step c cfg json) (SyncPair.start stores) labels x).store = stores' x

/-- `x` has all its bundles and `exchanged` of those that it lacked, as its peer has them. -/
def Gained (cfg : Side → RelayConfig) (stores stores' : Side → RelayStore) (x : Side) : Prop :=
  Keeps (stores x) (stores' x) ∧
    ∃ got : List BundleHash, got.Nodup ∧ got ⊆ missing (stores x) (stores x.other) ∧
      got.length = exchanged cfg stores x ∧
      ∀ h, (stores' x).byHash.lookup h =
        if h ∈ got then (stores x.other).byHash.lookup h else (stores x).byHash.lookup h

/-- The bundles of both stores and no others, each held once. -/
def IsUnion (stores : Side → RelayStore) (s : RelayStore) : Prop :=
  (∀ h b, s.byHash.lookup h = some b ↔ ∃ y, (stores y).byHash.lookup h = some b) ∧
    (s.byHash.entries.map (fun e => e.2.bytes)).Nodup

/-- Every missing bundle fits. -/
def RoomForAll (cfg : Side → RelayConfig) (stores : Side → RelayStore) (x : Side) : Prop :=
  RoomFor (cfg x) (stores x) (stores x.other) (missing (stores x) (stores x.other)).length

/-- The number of bundles that the two stores lack of each other. -/
def deficit (stores : Side → RelayStore) : ℕ :=
  (missing (stores .a) (stores .b)).length + (missing (stores .b) (stores .a)).length

section OneSession

variable {c : Crates} {cfg : Side → RelayConfig} {json : SyncJson}
  {stores stores' : Side → RelayStore} {x : Side} {got : List BundleHash}

lemma RoomForAll.session (h : RoomForAll cfg stores x) :
    RoomFor (cfg x) (stores x) (stores x.other) (exchanged cfg stores x) := by
  intro hashes hnodup hsubset hfew
  apply h hashes hnodup hsubset
  unfold exchanged at hfew
  omega

lemma Syncs.pull (hjson : json.RoundTrip) (hready : SyncPair.Ready c cfg stores)
    (h : Syncs c cfg json stores stores') (x : Side) :
    ∃ got : List BundleHash, got.Nodup ∧ got ⊆ missing (stores x) (stores x.other) ∧
      got.length = exchanged cfg stores x ∧ stores' x = (stores x).pull (stores x.other) got := by
  obtain ⟨labels, hlabels, hdone, hstores⟩ := h
  obtain ⟨got, hnodup, hsubset, hlength, hstore, -⟩ :=
    SyncPair.pull_of_completed hjson hready hlabels hdone x
  exact ⟨got, hnodup, hsubset, hlength, (hstores x).symm.trans hstore⟩

lemma keeps_pull (hsubset : got ⊆ missing (stores x) (stores x.other)) :
    Keeps (stores x) ((stores x).pull (stores x.other) got) := by
  intro h b hb
  rw [lookup_pull hsubset, if_neg, hb]
  intro hmem
  obtain ⟨hnone, -⟩ := mem_missing.mp (hsubset hmem)
  rw [hb] at hnone
  cases hnone

lemma Syncs.gained (hjson : json.RoundTrip) (hready : SyncPair.Ready c cfg stores)
    (h : Syncs c cfg json stores stores') (x : Side) : Gained cfg stores stores' x := by
  obtain ⟨got, hnodup, hsubset, hlength, hstore⟩ := h.pull hjson hready x
  refine ⟨?_, got, hnodup, hsubset, hlength, ?_⟩
  · rw [hstore]
    exact keeps_pull hsubset
  · intro k
    rw [hstore, lookup_pull hsubset]

lemma accounted_step {w : SyncPair} (hjson : json.RoundTrip) (hw : w.Ordered json)
    (haccounted : ∀ x, Accounted c (cfg x) (w x).store) (label : PairLabel)
    (hlabel : Undisturbed stores label) :
    ∀ x, Accounted c (cfg x) (w.step c cfg json label x).store := by
  cases label with
  | interfere x store => exact absurd hlabel not_false
  | drop x =>
    by_cases hfin : (w x).pc.isFinished = true
    · rw [SyncPair.step, if_pos hfin]
      refine (Side.forall_iff x).mpr ⟨?_, ?_⟩
      · simpa using haccounted x
      · simpa using haccounted x.other
    · rw [SyncPair.step, if_neg hfin]
      exact haccounted
  | advance x nowMs order =>
    have hevent : ∀ event,
        Accounted c (cfg x) (syncStep c (cfg x) (w x).store (w x).pc event).2.1 :=
      fun event => syncStep_accounted (haccounted x) _ event
    have hadv : SyncPair.Advanced c cfg json w x nowMs order (w.advance c cfg json x nowMs order) :=
      SyncPair.advance_cases hjson hw x nowMs order
    change ∀ y, Accounted c (cfg y) (w.advance c cfg json x nowMs order y).store
    generalize w.advance c cfg json x nowMs order = w' at hadv
    cases hadv with
    | idle _ => exact haccounted
    | ran hwait hfin hsilent =>
      refine (Side.forall_iff x).mpr ⟨?_, ?_⟩
      · simpa [SyncEnd.after] using hevent _
      · simpa using haccounted x.other
    | sent message bytes hwait hfin hmessage hbytes =>
      refine (Side.forall_iff x).mpr ⟨?_, ?_⟩
      · simpa [SyncEnd.after] using hevent _
      · simpa using haccounted x.other
    | received message bytes rest hwait hinbox hbytes =>
      refine (Side.forall_iff x).mpr ⟨?_, ?_⟩
      · simpa [SyncEnd.after] using hevent _
      · simpa using haccounted x.other

lemma Syncs.accounted (hjson : json.RoundTrip) (haccounted : ∀ x, Accounted c (cfg x) (stores x))
    (h : Syncs c cfg json stores stores') (x : Side) : Accounted c (cfg x) (stores' x) := by
  obtain ⟨labels, hlabels, -, hstores⟩ := h
  let inv : SyncPair → Prop :=
    fun w => w.Ordered json ∧ ∀ x, Accounted c (cfg x) (w x).store
  have hstep : ∀ w label, inv w → Undisturbed stores label → inv (w.step c cfg json label) :=
    fun w label hw hlabel =>
      ⟨SyncPair.ordered_step hjson hw.1 label, accounted_step hjson hw.1 hw.2 label hlabel⟩
  have hstart : inv (SyncPair.start stores) := ⟨SyncPair.ordered_start stores, haccounted⟩
  have hlast := (everyState_of_everyStep hstep hstart
    (everyStep_of_forall_mem (SyncPair.start stores) hlabels)).last
  rw [← hstores x]
  exact hlast.2 x

/-- A session neither invents a bundle nor loses one. -/
lemma Syncs.lookup_iff (hjson : json.RoundTrip) (hready : SyncPair.Ready c cfg stores)
    (h : Syncs c cfg json stores stores') (k : BundleHash) (b : StoredBundle) :
    (∃ y, (stores' y).byHash.lookup k = some b) ↔ ∃ y, (stores y).byHash.lookup k = some b := by
  constructor
  · rintro ⟨y, hb⟩
    obtain ⟨-, got, -, -, -, hlook⟩ := h.gained hjson hready y
    rw [hlook] at hb
    by_cases hk : k ∈ got
    · rw [if_pos hk] at hb
      exact ⟨y.other, hb⟩
    · rw [if_neg hk] at hb
      exact ⟨y, hb⟩
  · rintro ⟨y, hb⟩
    obtain ⟨hkeeps, -⟩ := h.gained hjson hready y
    exact ⟨y, hkeeps k b hb⟩

/-- What is still missing after a session was missing before and was not exchanged. -/
lemma missing_pull {got' : List BundleHash} (hgot : got ⊆ missing (stores x) (stores x.other))
    (hgot' : got' ⊆ missing (stores x.other) (stores x)) {k : BundleHash}
    (hk : k ∈ missing ((stores x).pull (stores x.other) got)
      ((stores x.other).pull (stores x) got')) :
    k ∈ missing (stores x) (stores x.other) ∧ k ∉ got ∧
      ((stores x.other).pull (stores x) got').byHash.lookup k =
        (stores x.other).byHash.lookup k := by
  obtain ⟨hnone, b, hb⟩ := mem_missing.mp hk
  have hnot : k ∉ got := by
    intro hmem
    obtain ⟨-, b', hb'⟩ := mem_missing.mp (hgot hmem)
    rw [lookup_pull hgot, if_pos hmem, hb'] at hnone
    cases hnone
  rw [lookup_pull hgot, if_neg hnot] at hnone
  rw [lookup_pull hgot'] at hb ⊢
  by_cases hmem : k ∈ got'
  · rw [if_pos hmem, hnone] at hb
    cases hb
  · rw [if_neg hmem] at hb ⊢
    exact ⟨mem_missing.mpr ⟨hnone, b, hb⟩, hnot, rfl⟩

lemma pull_append (mine theirs : RelayStore) (hashes hashes' : List BundleHash) :
    mine.pull theirs (hashes ++ hashes') = (mine.pull theirs hashes).pull theirs hashes' :=
  List.foldl_append

/-- Only what is stored under the hashes matters of the source. -/
lemma pull_congr {theirs theirs' : RelayStore} {hashes : List BundleHash} (mine : RelayStore)
    (h : ∀ k ∈ hashes, theirs'.byHash.lookup k = theirs.byHash.lookup k) :
    mine.pull theirs' hashes = mine.pull theirs hashes := by
  apply List.foldl_ext
  intro s k hk
  unfold pullOne
  rw [h k hk]

/-- The store that repeated sessions start from, and that each of them leaves. -/
structure Steady (c : Crates) (cfg : Side → RelayConfig) (stores : Side → RelayStore) : Prop where
  accounted : ∀ x, Accounted c (cfg x) (stores x)
  room : ∀ x, RoomForAll cfg stores x

lemma Steady.ready (h : Steady c cfg stores) : SyncPair.Ready c cfg stores :=
  ⟨h.accounted, fun x => (h.room x).session⟩

lemma Syncs.steady (hjson : json.RoundTrip) (hsteady : Steady c cfg stores)
    (h : Syncs c cfg json stores stores') : Steady c cfg stores' := by
  refine ⟨h.accounted hjson hsteady.accounted, fun x => ?_⟩
  obtain ⟨got, hnodup, hsubset, -, hstore⟩ := h.pull hjson hsteady.ready x
  obtain ⟨got', -, hsubset', -, hstore'⟩ := h.pull hjson hsteady.ready x.other
  rw [Side.other_other] at hsubset' hstore'
  intro hashes hhashes hmissing _
  rw [hstore, hstore'] at hmissing ⊢
  have hleft : ∀ k ∈ hashes, _ := fun k hk => missing_pull hsubset hsubset' (hmissing hk)
  have hsame : ((stores x).pull (stores x.other) got).pull
      ((stores x.other).pull (stores x) got') hashes =
      (stores x).pull (stores x.other) (got ++ hashes) := by
    rw [pull_append]
    exact pull_congr _ fun k hk => (hleft k hk).2.2
  rw [hsame]
  have hall : (got ++ hashes).Nodup := by
    apply hnodup.append hhashes
    intro k hk hk'
    exact (hleft k hk').2.1 hk
  have hallSubset : got ++ hashes ⊆ missing (stores x) (stores x.other) :=
    List.append_subset.mpr ⟨hsubset, fun k hk => (hleft k hk).1⟩
  exact hsteady.room x _ hall hallSubset (List.subperm_of_subset hall hallSubset).length_le

/-- A session makes up for as many missing bundles as it moves. -/
lemma Syncs.missing_le (hjson : json.RoundTrip) (hsteady : Steady c cfg stores)
    (h : Syncs c cfg json stores stores') (x : Side) :
    (missing (stores' x) (stores' x.other)).length + exchanged cfg stores x ≤
      (missing (stores x) (stores x.other)).length := by
  obtain ⟨got, hnodup, hsubset, hlength, hstore⟩ := h.pull hjson hsteady.ready x
  obtain ⟨got', -, hsubset', -, hstore'⟩ := h.pull hjson hsteady.ready x.other
  rw [Side.other_other] at hsubset' hstore'
  rw [hstore, hstore', ← hlength, ← List.length_append]
  have hleft : ∀ k ∈ missing ((stores x).pull (stores x.other) got)
      ((stores x.other).pull (stores x) got'), _ :=
    fun k hk => missing_pull hsubset hsubset' hk
  have hall := missing_nodup.append hnodup fun k hk hk' => (hleft k hk).2.1 hk'
  have hallSubset := List.append_subset.mpr ⟨fun k hk => (hleft k hk).1, hsubset⟩
  exact (List.subperm_of_subset hall hallSubset).length_le

lemma missing_of_deficit (h : deficit stores = 0) (x : Side) :
    missing (stores x) (stores x.other) = [] := by
  unfold deficit at h
  apply List.length_eq_zero_iff.mp
  cases x with
  | a =>
    change (missing (stores .a) (stores .b)).length = 0
    omega
  | b =>
    change (missing (stores .b) (stores .a)).length = 0
    omega

/-- Stores that lack nothing of each other stay as they are. -/
lemma Syncs.eq_of_deficit (hjson : json.RoundTrip) (hsteady : Steady c cfg stores)
    (h : Syncs c cfg json stores stores') (hnone : deficit stores = 0) : stores' = stores := by
  funext x
  obtain ⟨got, -, hsubset, -, hstore⟩ := h.pull hjson hsteady.ready x
  rw [missing_of_deficit hnone, List.subset_nil] at hsubset
  rw [hstore, hsubset, pull_nil]

/-- A session between stores that lack something of each other brings them nearer. -/
lemma Syncs.deficit_lt (hjson : json.RoundTrip) (hsteady : Steady c cfg stores)
    (h : Syncs c cfg json stores stores') (hcaps : ∀ x, 1 ≤ (cfg x).maxBundlesPerSession)
    (hsome : deficit stores ≠ 0) : deficit stores' < deficit stores := by
  have ha := h.missing_le hjson hsteady .a
  have hb := h.missing_le hjson hsteady .b
  have hcapA := hcaps .a
  have hcapB := hcaps .b
  unfold deficit exchanged at *
  simp only [Side.other] at ha hb
  omega

end OneSession

section Repeated

variable {c : Crates} {cfg : Side → RelayConfig} {json : SyncJson}
  {stores : Side → RelayStore}

/-- Along repeated sessions the union stays and the deficit shrinks to nothing. -/
lemma steady_trace (hjson : json.RoundTrip) (hsteady : Steady c cfg stores)
    (hcaps : ∀ x, 1 ≤ (cfg x).maxBundlesPerSession) {s : ℕ → Side → RelayStore}
    (hstart : s 0 = stores) (hsyncs : ∀ n, Syncs c cfg json (s n) (s (n + 1))) (n : ℕ) :
    Steady c cfg (s n) ∧ deficit (s n) ≤ deficit stores - n ∧
      ∀ k b, (∃ y, (s n y).byHash.lookup k = some b) ↔
        ∃ y, (stores y).byHash.lookup k = some b := by
  induction n with
  | zero =>
    rw [hstart]
    exact ⟨hsteady, le_rfl, fun _ _ => Iff.rfl⟩
  | succ n ih =>
    obtain ⟨hsteady', hle, hunion⟩ := ih
    refine ⟨(hsyncs n).steady hjson hsteady', ?_, ?_⟩
    · by_cases hnone : deficit (s n) = 0
      · rw [(hsyncs n).eq_of_deficit hjson hsteady' hnone, hnone]
        omega
      · have hlt := (hsyncs n).deficit_lt hjson hsteady' hcaps hnone
        omega
    · intro k b
      rw [(hsyncs n).lookup_iff hjson hsteady'.ready, hunion]

/-- Equal bytes are stored under one hash. -/
lemma RelayStore.Accounted.bytes_nodup {cfg : RelayConfig} {s : RelayStore} (h : Accounted c cfg s) :
    (s.byHash.entries.map (fun e => e.2.bytes)).Nodup := by
  have hkeys : (s.byHash.entries.map (fun e => e.2.bytes)).map (hashBundle c) = s.byHash.keys := by
    rw [List.map_map]
    apply List.map_congr_left
    intro e he
    exact (h.keyed e.1 e.2 (AList.mem_lookup_iff.mpr he)).symm
  apply List.Nodup.of_map (hashBundle c)
  rw [hkeys]
  exact s.byHash.keys_nodup

/-- Without a collision, a hash stands for one bundle. -/
lemma eq_of_lookup (haccounted : ∀ x, Accounted c (cfg x) (stores x))
    (hinj : Set.InjOn c.sha256 {bytes | ∃ y, (stores y).Holds bytes}) {y y' : Side}
    {k : BundleHash} {b b' : StoredBundle} (hb : (stores y).byHash.lookup k = some b)
    (hb' : (stores y').byHash.lookup k = some b') : b = b' := by
  have hkey := (haccounted y).keyed k b hb
  have hkey' := (haccounted y').keyed k b' hb'
  have hbytes : b.bytes = b'.bytes :=
    hinj ⟨y, k, b, hb, rfl⟩ ⟨y', k, b', hb', rfl⟩ (hkey.symm.trans hkey')
  have hdec := (haccounted y).decoded k b hb
  have hdec' := (haccounted y').decoded k b' hb'
  obtain ⟨bundle, hbundle, haddress⟩ := hdec.address
  obtain ⟨bundle', hbundle', haddress'⟩ := hdec'.address
  have hexpiry := hdec.expiry
  rw [hbytes, hdec'.expiry, Except.ok.injEq] at hexpiry
  rw [hbytes, hbundle', Except.ok.injEq] at hbundle
  subst hbundle
  rw [haddress', Except.ok.injEq] at haddress
  cases b
  cases b'
  simp_all

lemma isUnion_of_deficit {s : Side → RelayStore}
    (haccounted : ∀ x, Accounted c (cfg x) (stores x))
    (hinj : Set.InjOn c.sha256 {bytes | ∃ y, (stores y).Holds bytes})
    (hsteady : Steady c cfg s) (hnone : deficit s = 0)
    (hunion : ∀ k b, (∃ y, (s y).byHash.lookup k = some b) ↔
      ∃ y, (stores y).byHash.lookup k = some b) (x : Side) : IsUnion stores (s x) := by
  refine ⟨fun k b => ⟨fun hb => (hunion k b).mp ⟨x, hb⟩, ?_⟩,
    (hsteady.accounted x).bytes_nodup⟩
  rintro ⟨y, hb⟩
  obtain ⟨z, hz⟩ := (hunion k b).mpr ⟨y, hb⟩
  rcases Side.eq_or_eq_other x z with rfl | rfl
  · exact hz
  · cases hx : (s x).byHash.lookup k with
    | none =>
      have hmem : k ∈ missing (s x) (s x.other) := mem_missing.mpr ⟨hx, b, hz⟩
      rw [missing_of_deficit hnone] at hmem
      cases hmem
    | some b' =>
      obtain ⟨y', hb'⟩ := (hunion k b').mp ⟨x, hx⟩
      rw [eq_of_lookup haccounted hinj hb' hb]

end Repeated

/-- A session that ends moves to each side exactly the least of both caps and of what it
lacked, as its peer has it, and takes nothing from anyone; there is such a session from
all stores that nothing has expired in; and from stores with room for everything, after
at most `deficit` sessions both sides hold the union and no session changes anything. -/
theorem sync_converges (c : Crates) (cfg : Side → RelayConfig) (json : SyncJson)
    (hjson : json.RoundTrip) (stores : Side → RelayStore)
    (haccounted : ∀ x, Accounted c (cfg x) (stores x)) :
    ((∀ x, RoomFor (cfg x) (stores x) (stores x.other) (exchanged cfg stores x)) →
      ∀ stores', Syncs c cfg json stores stores' → ∀ x, Gained cfg stores stores' x) ∧
    (∀ nowMs, (∀ x h b, (stores x).byHash.lookup h = some b → nowMs < b.expiryMs) →
      ∃ stores', Syncs c cfg json stores stores') ∧
    ((∀ x, RoomForAll cfg stores x) → (∀ x, 1 ≤ (cfg x).maxBundlesPerSession) →
      Set.InjOn c.sha256 {bytes | ∃ y, (stores y).Holds bytes} →
      ∀ s : ℕ → Side → RelayStore, s 0 = stores → (∀ n, Syncs c cfg json (s n) (s (n + 1))) →
        ∀ n, deficit stores ≤ n → s n = s (deficit stores) ∧ ∀ x, IsUnion stores (s n x)) := by
  refine ⟨?_, ?_, ?_⟩
  · intro hroom stores' h x
    exact h.gained hjson ⟨haccounted, hroom⟩ x
  · intro nowMs hlive
    obtain ⟨labels, hlabels, hdone⟩ : ∃ labels : List PairLabel,
        (∀ label ∈ labels, ∃ x, label = .advance x nowMs .insertion) ∧
          (Machine.run (SyncPair.step c cfg json) (SyncPair.start stores) labels).Completed :=
      SyncPair.exists_completed hjson (SyncPair.ordered_start stores) nowMs .insertion
    refine ⟨_, labels, ?_, hdone, fun x => rfl⟩
    intro label hlabel
    obtain ⟨x, rfl⟩ := hlabels label hlabel
    exact hlive
  · intro hroom hcaps hinj s hstart hsyncs
    have htrace := steady_trace hjson ⟨haccounted, hroom⟩ hcaps hstart hsyncs
    have hdone : ∀ n, deficit stores ≤ n → deficit (s n) = 0 := by
      intro n hn
      obtain ⟨-, hle, -⟩ := htrace n
      omega
    intro n hn
    obtain ⟨hsteady, -, hunion⟩ := htrace n
    refine ⟨?_, isUnion_of_deficit haccounted hinj hsteady (hdone n hn) hunion⟩
    induction n, hn using Nat.le_induction with
    | base => rfl
    | succ n hn ih =>
      obtain ⟨hsteady', -, hunion'⟩ := htrace n
      rw [(hsyncs n).eq_of_deficit hjson hsteady' (hdone n hn)]
      exact ih hsteady' hunion'

section Sample

lemma carrying_accounted (bundles : List Bytes) : Accounted localCrates {} (carrying bundles) := by
  have hstep : ∀ (a : Agent) label, Accounted localCrates {} a.store →
      Accounted localCrates {} (agentStep localCrates {} a label).store :=
    agentStep_accounted
  exact run_invariant (s := {}) hstep accounted_empty _

lemma partitioned_accounted (x : Side) : Accounted localCrates {} (partitioned x) := by
  cases x with
  | _ => exact carrying_accounted _

lemma partitioned_injOn :
    Set.InjOn localCrates.sha256 {bytes | ∃ y, (partitioned y).Holds bytes} := by
  let held : List Bytes := [carriedBundle 0, carriedBundle 1, carriedBundle 2]
  have hheld : ∀ y, ∀ e ∈ (partitioned y).byHash.entries, e.2.bytes ∈ held := by
    intro y
    cases y <;> decide +kernel
  have hdistinct : ∀ b ∈ held, ∀ b' ∈ held, localCrates.sha256 b = localCrates.sha256 b' → b = b' := by
    decide +kernel
  rintro b ⟨y, hb⟩ b' ⟨y', hb'⟩
  obtain ⟨e, he, rfl⟩ := holds_iff.mp hb
  obtain ⟨e', he', rfl⟩ := holds_iff.mp hb'
  exact hdistinct _ (hheld y e he) _ (hheld y' e' he')

/-- Two relays that met two bundles and one apart agree after three sessions of one bundle
each way. -/
theorem sync_converges_partitioned :
    let cfg : Side → RelayConfig := fun _ => { maxBundlesPerSession := 1 }
    deficit partitioned = 3 ∧
    (∃ stores', Syncs localCrates cfg localSyncJson partitioned stores') ∧
    (∀ stores', Syncs localCrates cfg localSyncJson partitioned stores' →
      ∀ x, Gained cfg partitioned stores' x) ∧
    ∀ s : ℕ → Side → RelayStore, s 0 = partitioned →
      (∀ n, Syncs localCrates cfg localSyncJson (s n) (s (n + 1))) →
      ∀ n, 3 ≤ n → s n = s 3 ∧ ∀ x, IsUnion partitioned (s n x) := by
  intro cfg
  have haccounted : ∀ x, Accounted localCrates (cfg x) (partitioned x) := fun x =>
    { partitioned_accounted x with }
  have hroom : ∀ x n, RoomFor (cfg x) (partitioned x) (partitioned x.other) n := by
    intro x n
    apply roomFor_of_totals (haccounted x.other)
    · cases x <;> decide +kernel
    · cases x <;> decide +kernel
  have hdeficit : deficit partitioned = 3 := by decide +kernel
  obtain ⟨hgained, hexists, hconverges⟩ := sync_converges localCrates cfg localSyncJson
    localSyncJson_roundTrip partitioned haccounted
  refine ⟨hdeficit, hexists 2000 ?_, hgained fun x => hroom x _, ?_⟩
  · have hlive : ∀ y, ∀ e ∈ (partitioned y).byHash.entries, 2000 < e.2.expiryMs := by
      intro y
      cases y <;> decide +kernel
    intro x h b hb
    exact hlive x ⟨h, b⟩ (AList.mem_lookup_iff.mp hb)
  · rw [hdeficit] at hconverges
    exact hconverges (fun x => hroom x _) (fun _ => le_rfl) partitioned_injOn

end Sample

end Parda.Mesh
