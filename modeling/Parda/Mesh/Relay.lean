import Parda.Lib.Weight
import Parda.Mesh.Bundle

/-!
# The store-and-forward relay

Model of the store of `mesh/src/relay.rs`. Each function below is one locked section of
the source. The clock is an argument, and so is the order in which a hash map is
iterated, which the standard library leaves open.
-/

namespace Parda.Mesh

open Protocol

abbrev BundleHash := Bytes32

structure RelayConfig where
  maxTotalBundles : ℕ := 500
  maxTotalBytes : ℕ := 8 * 1024 * 1024
  maxBundlesPerSession : ℕ := 20
deriving DecidableEq, Repr

structure StoredBundle where
  bytes : Bytes
  address : Address
  expiryMs : UInt64
deriving DecidableEq

/-- The backing store. `totalBytes` is the counter the source keeps beside the map. -/
structure RelayStore where
  byHash : AList (fun _ : BundleHash => StoredBundle) := ∅
  totalBytes : ℕ := 0

/-- The order in which one pass over a hash map meets the keys. -/
structure IterOrder where
  order : List BundleHash → List BundleHash
  order_perm : ∀ l, (order l).Perm l

def IterOrder.insertion : IterOrder := ⟨id, fun _ => List.Perm.refl _⟩

def hashBundle (c : Crates) (bytes : Bytes) : BundleHash := c.sha256 bytes

namespace RelayStore

def storedCount (s : RelayStore) : ℕ := s.byHash.entries.length

/-- `admit_checked`. The session budget is read here and charged by the caller. -/
def admitChecked (c : Crates) (cfg : RelayConfig) (nowMs : UInt64) (s : RelayStore)
    (bytes : Bytes) (sessionBudget : Option ℕ) : Except MeshError RelayStore :=
  match expiryMs c bytes with
  | .error e => .error e
  | .ok expiry =>
    if expiry ≤ nowMs then .error (.relayRefused "bundle already expired on arrival")
    else
      match bytesAsBundle c bytes with
      | .error e => .error e
      | .ok bundle =>
        match destinationAddress bundle with
        | .error e => .error e
        | .ok address =>
          let hash := hashBundle c bytes
          if (s.byHash.lookup hash).isSome then .ok s
          else if sessionBudget = some 0 then
            .error (.relayRefused "per-session admission cap reached")
          else if cfg.maxTotalBundles ≤ s.byHash.entries.length ∨
              cfg.maxTotalBytes < s.totalBytes + bytes.length then
            .error (.relayRefused "global storage cap reached")
          else .ok ⟨s.byHash.insert hash ⟨bytes, address, expiry⟩, s.totalBytes + bytes.length⟩

/-- `admit`, for the device's own bundles: no session budget. -/
def admitBundle (c : Crates) (cfg : RelayConfig) (nowMs : UInt64) (s : RelayStore) (bytes : Bytes) :
    Except MeshError RelayStore :=
  s.admitChecked c cfg nowMs bytes none

/-- The hashes of the stored bundles that satisfy `p`, in iteration order. -/
def matching (order : IterOrder) (s : RelayStore) (p : StoredBundle → Bool) : List BundleHash :=
  (order.order s.byHash.keys).filter (fun h => ((s.byHash.lookup h).map p).getD false)

/-- One round of the removal loop, with the bytes taken so far. -/
def removeStep (acc : RelayStore × List Bytes) (hash : BundleHash) : RelayStore × List Bytes :=
  match acc.1.byHash.lookup hash with
  | some b => (⟨acc.1.byHash.erase hash, acc.1.totalBytes - b.bytes.length⟩, acc.2 ++ [b.bytes])
  | none => acc

def removeAll (s : RelayStore) (hashes : List BundleHash) : RelayStore × List Bytes :=
  hashes.foldl removeStep (s, [])

def takeForAddresses (order : IterOrder) (s : RelayStore) (addresses : List Address) :
    RelayStore × List Bytes :=
  s.removeAll (s.matching order (fun b => addresses.contains b.address))

def sweepExpired (order : IterOrder) (nowMs : UInt64) (s : RelayStore) : RelayStore :=
  (s.removeAll (s.matching order (fun b => b.expiryMs ≤ nowMs))).1

/-- The bytes stored under some hash. -/
def Holds (s : RelayStore) (bytes : Bytes) : Prop :=
  ∃ h b, s.byHash.lookup h = some b ∧ b.bytes = bytes

lemma holds_iff {s : RelayStore} {bytes : Bytes} :
    s.Holds bytes ↔ ∃ e ∈ s.byHash.entries, e.2.bytes = bytes := by
  constructor
  · rintro ⟨h, b, hb, heq⟩
    exact ⟨⟨h, b⟩, AList.mem_lookup_iff.mp hb, heq⟩
  · rintro ⟨⟨h, b⟩, he, heq⟩
    exact ⟨h, b, AList.mem_lookup_iff.mpr he, heq⟩

instance decidableHolds (s : RelayStore) (bytes : Bytes) : Decidable (s.Holds bytes) :=
  decidable_of_iff _ holds_iff.symm

section Admission

variable {c : Crates} {cfg : RelayConfig} {nowMs : UInt64} {s s' : RelayStore} {bytes : Bytes}
  {budget : Option ℕ}

/-- What is decoded from a bundle's bytes before it is stored. -/
structure Decoded (c : Crates) (b : StoredBundle) : Prop where
  expiry : Mesh.expiryMs c b.bytes = .ok b.expiryMs
  address : ∃ bundle, bytesAsBundle c b.bytes = .ok bundle ∧
    destinationAddress bundle = .ok b.address

/-- Everything an accepted admission did: nothing, for a bundle already held, or one
insertion under the bundle's own hash, within every cap. -/
lemma admitChecked_cases (h : s.admitChecked c cfg nowMs bytes budget = .ok s') :
    ∃ address expiry, Decoded c ⟨bytes, address, expiry⟩ ∧ nowMs < expiry ∧
      ((s' = s ∧ ∃ b, s.byHash.lookup (hashBundle c bytes) = some b) ∨
        (s.byHash.lookup (hashBundle c bytes) = none ∧ budget ≠ some 0 ∧
          s.byHash.entries.length < cfg.maxTotalBundles ∧
          s.totalBytes + bytes.length ≤ cfg.maxTotalBytes ∧
          s' = ⟨s.byHash.insert (hashBundle c bytes) ⟨bytes, address, expiry⟩,
            s.totalBytes + bytes.length⟩)) := by
  unfold admitChecked at h
  cases hexp : Mesh.expiryMs c bytes with
  | error e => simp [hexp] at h
  | ok expiry =>
    cases hbun : bytesAsBundle c bytes with
    | error e =>
      rw [hexp, hbun] at h
      by_cases hnow : expiry ≤ nowMs
      · simp [hnow] at h
      · simp [hnow] at h
    | ok bundle =>
      cases haddr : destinationAddress bundle with
      | error e =>
        rw [hexp, hbun] at h
        by_cases hnow : expiry ≤ nowMs
        · simp [hnow] at h
        · simp [hnow, haddr] at h
      | ok address =>
        rw [hexp, hbun] at h
        by_cases hnow : expiry ≤ nowMs
        · simp [hnow] at h
        simp only [hnow, haddr, if_false] at h
        refine ⟨address, expiry, ⟨hexp, bundle, hbun, haddr⟩, UInt64.not_le.mp hnow, ?_⟩
        cases hlook : s.byHash.lookup (hashBundle c bytes) with
        | some b =>
          left
          simp only [hlook, Option.isSome_some, if_true, Except.ok.injEq] at h
          exact ⟨h.symm, b, rfl⟩
        | none =>
          right
          simp only [hlook, Option.isSome_none, Bool.false_eq_true, if_false] at h
          by_cases hbud : budget = some 0
          · simp [hbud] at h
          by_cases hcap : cfg.maxTotalBundles ≤ s.byHash.entries.length ∨
              cfg.maxTotalBytes < s.totalBytes + bytes.length
          · simp [hbud, hcap] at h
          · simp only [hbud, hcap, if_false, Except.ok.injEq] at h
            refine ⟨rfl, hbud, ?_, ?_, h.symm⟩
            · omega
            · omega

/-- An admission never removes or alters a stored bundle. -/
theorem admitChecked_keeps (h : s.admitChecked c cfg nowMs bytes budget = .ok s')
    {hash : BundleHash} {b : StoredBundle} (hb : s.byHash.lookup hash = some b) :
    s'.byHash.lookup hash = some b := by
  obtain ⟨address, expiry, -, -, ⟨rfl, -⟩ | ⟨hnone, -, -, -, rfl⟩⟩ := admitChecked_cases h
  · exact hb
  · have hne : hash ≠ hashBundle c bytes := by
      intro heq
      rw [heq, hnone] at hb
      cases hb
    rw [AList.lookup_insert_ne hne]
    exact hb

/-- What is stored after an admission was stored before or is the admitted bundle. -/
lemma lookup_of_admitChecked (h : s.admitChecked c cfg nowMs bytes budget = .ok s')
    {hash : BundleHash} {b : StoredBundle} (hb : s'.byHash.lookup hash = some b) :
    s.byHash.lookup hash = some b ∨
      (hash = hashBundle c bytes ∧ b.bytes = bytes ∧ Decoded c b) := by
  obtain ⟨address, expiry, hdec, -, ⟨rfl, -⟩ | ⟨hnone, -, -, -, rfl⟩⟩ := admitChecked_cases h
  · exact Or.inl hb
  · by_cases heq : hash = hashBundle c bytes
    · right
      subst heq
      rw [AList.lookup_insert] at hb
      cases hb
      exact ⟨rfl, rfl, hdec⟩
    · left
      rwa [AList.lookup_insert_ne heq] at hb

/-- An unexpired dead-drop bundle within the caps is admitted. -/
lemma admitChecked_ok {b : StoredBundle} (hdec : Decoded c b) (hnow : nowMs < b.expiryMs)
    (hnew : s.byHash.lookup (hashBundle c b.bytes) = none) (hbudget : budget ≠ some 0)
    (hcount : s.byHash.entries.length < cfg.maxTotalBundles)
    (hbytes : s.totalBytes + b.bytes.length ≤ cfg.maxTotalBytes) :
    s.admitChecked c cfg nowMs b.bytes budget =
      .ok ⟨s.byHash.insert (hashBundle c b.bytes) b, s.totalBytes + b.bytes.length⟩ := by
  obtain ⟨hexp, bundle, hbun, haddr⟩ := hdec
  have hcap : ¬(cfg.maxTotalBundles ≤ s.byHash.entries.length ∨
      cfg.maxTotalBytes < s.totalBytes + b.bytes.length) := by omega
  unfold admitChecked
  simp only [hexp, hbun, haddr, UInt64.not_le.mpr hnow, hnew, hbudget, hcap, if_false,
    Option.isSome_none, Bool.false_eq_true]

end Admission

section Removal

variable {s : RelayStore} {order : IterOrder} {hash : BundleHash} {hashes : List BundleHash}

lemma mem_matching {p : StoredBundle → Bool} :
    hash ∈ s.matching order p ↔ ∃ b, s.byHash.lookup hash = some b ∧ p b = true := by
  unfold matching
  rw [List.mem_filter, (order.order_perm _).mem_iff, ← AList.mem_keys, ← AList.lookup_isSome]
  cases s.byHash.lookup hash with
  | none => simp
  | some b => simp

lemma matching_nodup {p : StoredBundle → Bool} : (s.matching order p).Nodup :=
  ((order.order_perm _).nodup_iff.mpr s.byHash.keys_nodup).filter _

lemma removeStep_lookup (acc : RelayStore × List Bytes) (h : BundleHash) :
    (removeStep acc h).1.byHash.lookup hash =
      if hash = h then none else acc.1.byHash.lookup hash := by
  unfold removeStep
  by_cases heq : hash = h
  · subst heq
    rw [if_pos rfl]
    cases hl : acc.1.byHash.lookup hash with
    | none => exact hl
    | some b => exact AList.lookup_erase _ _
  · rw [if_neg heq]
    cases acc.1.byHash.lookup h with
    | none => rfl
    | some b => exact AList.lookup_erase_ne heq

lemma removeStep_taken (acc : RelayStore × List Bytes) (h : BundleHash) :
    (removeStep acc h).2 =
      acc.2 ++ ((acc.1.byHash.lookup h).map StoredBundle.bytes).toList := by
  unfold removeStep
  cases acc.1.byHash.lookup h with
  | none => simp
  | some b => simp

/-- The removal loop erases exactly the listed hashes and hands out what they held. -/
lemma foldl_removeStep (acc : RelayStore × List Bytes) (hnodup : hashes.Nodup) :
    (∀ h, (hashes.foldl removeStep acc).1.byHash.lookup h =
      if h ∈ hashes then none else acc.1.byHash.lookup h) ∧
    (hashes.foldl removeStep acc).2 =
      acc.2 ++ hashes.filterMap (fun h => (acc.1.byHash.lookup h).map StoredBundle.bytes) := by
  induction hashes generalizing acc with
  | nil => simp
  | cons k hashes ih =>
    obtain ⟨hk, hnodup⟩ := List.nodup_cons.mp hnodup
    obtain ⟨hlook, htaken⟩ := ih (removeStep acc k) hnodup
    rw [List.foldl_cons]
    constructor
    · intro h
      rw [hlook, removeStep_lookup]
      by_cases hh : h ∈ hashes
      · simp [hh]
      · by_cases heq : h = k
        · simp [heq]
        · simp [hh, heq]
    · have hrest : hashes.filterMap
          (fun h => ((removeStep acc k).1.byHash.lookup h).map StoredBundle.bytes) =
          hashes.filterMap (fun h => (acc.1.byHash.lookup h).map StoredBundle.bytes) := by
        apply List.filterMap_congr
        intro h hh
        have hne : h ≠ k := fun heq => hk (heq ▸ hh)
        rw [removeStep_lookup, if_neg hne]
      rw [htaken, hrest, removeStep_taken, List.append_assoc]
      congr 1
      rw [List.filterMap_cons]
      cases acc.1.byHash.lookup k with
      | none => rfl
      | some b => rfl

lemma lookup_removeAll (hnodup : hashes.Nodup) :
    (s.removeAll hashes).1.byHash.lookup hash =
      if hash ∈ hashes then none else s.byHash.lookup hash :=
  (foldl_removeStep (s, []) hnodup).1 hash

lemma removeAll_taken (hnodup : hashes.Nodup) :
    (s.removeAll hashes).2 =
      hashes.filterMap (fun h => (s.byHash.lookup h).map StoredBundle.bytes) :=
  (foldl_removeStep (s, []) hnodup).2

/-- Taking removes exactly the bundles at a polled address. -/
theorem lookup_takeForAddresses {addresses : List Address} {b : StoredBundle} :
    (s.takeForAddresses order addresses).1.byHash.lookup hash = some b ↔
      s.byHash.lookup hash = some b ∧ b.address ∉ addresses := by
  unfold takeForAddresses
  rw [lookup_removeAll matching_nodup]
  by_cases hm : hash ∈ s.matching order (fun b => addresses.contains b.address)
  · rw [if_pos hm]
    obtain ⟨b', hb', hin⟩ := mem_matching.mp hm
    constructor
    · intro h
      cases h
    · rintro ⟨hb, hnot⟩
      rw [hb'] at hb
      cases hb
      exact absurd (by simpa using hin) hnot
  · rw [if_neg hm]
    constructor
    · intro hb
      refine ⟨hb, fun hin => hm (mem_matching.mpr ⟨b, hb, ?_⟩)⟩
      simpa using hin
    · exact fun h => h.1

theorem mem_taken {addresses : List Address} {bytes : Bytes} :
    bytes ∈ (s.takeForAddresses order addresses).2 ↔
      ∃ h b, s.byHash.lookup h = some b ∧ b.bytes = bytes ∧ b.address ∈ addresses := by
  unfold takeForAddresses
  rw [removeAll_taken matching_nodup, List.mem_filterMap]
  constructor
  · rintro ⟨h, hm, heq⟩
    obtain ⟨b, hb, hin⟩ := mem_matching.mp hm
    rw [hb, Option.map_some, Option.some.injEq] at heq
    exact ⟨h, b, hb, heq, by simpa using hin⟩
  · rintro ⟨h, b, hb, hbytes, hin⟩
    refine ⟨h, mem_matching.mpr ⟨b, hb, by simpa using hin⟩, ?_⟩
    rw [hb, Option.map_some, hbytes]

/-- Sweeping removes exactly the bundles whose lifetime has elapsed. -/
theorem lookup_sweepExpired {nowMs : UInt64} {b : StoredBundle} :
    (s.sweepExpired order nowMs).byHash.lookup hash = some b ↔
      s.byHash.lookup hash = some b ∧ nowMs < b.expiryMs := by
  unfold sweepExpired
  rw [lookup_removeAll matching_nodup]
  by_cases hm : hash ∈ s.matching order (fun b => b.expiryMs ≤ nowMs)
  · rw [if_pos hm]
    obtain ⟨b', hb', hin⟩ := mem_matching.mp hm
    constructor
    · intro h
      cases h
    · rintro ⟨hb, hlt⟩
      rw [hb'] at hb
      cases hb
      exact absurd hlt (UInt64.not_lt.mpr (by simpa using hin))
  · rw [if_neg hm]
    constructor
    · intro hb
      refine ⟨hb, UInt64.not_le.mp fun hle => hm (mem_matching.mpr ⟨b, hb, ?_⟩)⟩
      simpa using hle
    · exact fun h => h.1

end Removal

end RelayStore

end Parda.Mesh
