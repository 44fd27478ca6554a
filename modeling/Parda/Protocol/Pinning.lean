import Mathlib.Data.Set.Basic
import Mathlib.Data.Sym.Sym2
import Parda.Lib.Machine
import Parda.Lib.Sha256
import Parda.Protocol.Trust

/-!
# Pinned identities

Histories of verifications and session initiations of one device. HKDF collides on no two
inputs made of keys of a set `K`, and every key that is compared lies in `K`.
-/

namespace Parda.Protocol

open Machine

structure TrustState where
  store : SignalStore
  trust : InMemoryTrustStore

inductive TrustLabel where
  | recordVerified (peerId : String) (fingerprint : Fingerprint)
  | forgetVerification (peerId : String)
  | initiateSessionVerified (remoteAddress : ProtocolAddress) (bundle : PreKeyBundle)
      (draw : Bytes) (peerId : String)

namespace TrustLabel

def peerId : TrustLabel → String
  | .recordVerified peerId _ | .forgetVerification peerId => peerId
  | .initiateSessionVerified _ _ _ peerId => peerId

/-- The label records or forgets a verification of the peer. -/
def Sets (peer : String) : TrustLabel → Prop
  | .recordVerified peerId _ | .forgetVerification peerId => peerId = peer
  | .initiateSessionVerified _ _ _ _ => False

/-- The label records a verification of the peer. -/
def Records (peer : String) : TrustLabel → Prop
  | .recordVerified peerId _ => peerId = peer
  | .forgetVerification _ | .initiateSessionVerified _ _ _ _ => False

/-- The label initiates a session with the address. -/
def Reaches (key : String) : TrustLabel → Prop
  | .recordVerified _ _ | .forgetVerification _ => False
  | .initiateSessionVerified remoteAddress _ _ _ => remoteAddress.key = key

end TrustLabel

namespace TrustState

variable (c : SessionCrates) (hmac : Hmac)

def step (s : TrustState) : TrustLabel → TrustState
  | .recordVerified peerId fingerprint => { s with trust := s.trust.recordVerified peerId fingerprint }
  | .forgetVerification peerId => { s with trust := s.trust.forgetVerification peerId }
  | .initiateSessionVerified remoteAddress bundle draw peerId => { s with
      store := (s.store.initiateSessionVerified c hmac remoteAddress bundle draw s.trust peerId).1 }

/-- What a call of `initiate_session_verified` would return. -/
def outcome (s : TrustState) (remoteAddress : ProtocolAddress) (bundle : PreKeyBundle)
    (draw : Bytes) (peerId : String) : Except PardaError Unit :=
  (s.store.initiateSessionVerified c hmac remoteAddress bundle draw s.trust peerId).2

/-- The trust check rejects. -/
def Rejected : Except PardaError Unit → Prop
  | .error (.identityKeyChangedAfterVerification _ _ _) => True
  | _ => False

/-- HKDF tells apart the inputs made of keys of `K`. -/
def InjectiveOn (K : Set IdentityKey) : Prop :=
  ∀ x ∈ K, ∀ y ∈ K, ∀ x' ∈ K, ∀ y' ∈ K,
    Fingerprint.compute hmac x.toList y.toList = Fingerprint.compute hmac x'.toList y'.toList →
      Fingerprint.ikm x.toList y.toList = Fingerprint.ikm x'.toList y'.toList

/-- The properties of the histories from `start` of the device with identity key `own`. -/
structure Pinning (K : Set IdentityKey) (own : IdentityKey) (start : TrustState) : Prop where
  /-- From a verification of a key until the next one or a forget, just that key passes. -/
  pinned : ∀ before peer, ∀ k ∈ K, ∀ later : List TrustLabel, (∀ label ∈ later, ¬label.Sets peer) →
    ∀ remoteAddress bundle draw, ∀ k' ∈ K, c.bundleIdentityKey bundle = .ok k' →
      (¬Rejected (outcome c hmac (run (step c hmac) start (before ++ .recordVerified peer
        (Fingerprint.compute hmac own.toList k.toList) :: later)) remoteAddress bundle draw peer) ↔
        k' = k)
  rejected_unchanged : ∀ labels remoteAddress bundle draw peer,
    Rejected (outcome c hmac (run (step c hmac) start labels) remoteAddress bundle draw peer) →
      run (step c hmac) start (labels ++ [.initiateSessionVerified remoteAddress bundle draw peer]) =
        run (step c hmac) start labels
  /-- A peer without a record at the start passes until it is verified. -/
  unrecorded : ∀ labels peer, start.trust.verifiedFingerprint peer = none →
    (∀ label ∈ labels, ¬label.Records peer) → ∀ remoteAddress bundle draw,
      ¬Rejected (outcome c hmac (run (step c hmac) start labels) remoteAddress bundle draw peer)
  /-- So it does from a forget until it is verified again. -/
  forgotten : ∀ before peer, ∀ later : List TrustLabel, (∀ label ∈ later, ¬label.Records peer) →
    ∀ remoteAddress bundle draw, ¬Rejected (outcome c hmac (run (step c hmac) start
      (before ++ .forgetVerification peer :: later)) remoteAddress bundle draw peer)
  /-- The operations on other peers could as well not have happened. -/
  others : ∀ labels remoteAddress bundle draw peer,
    (Rejected (outcome c hmac (run (step c hmac) start labels) remoteAddress bundle draw peer) ↔
      Rejected (outcome c hmac (run (step c hmac) start
        (labels.filter (fun label => label.peerId = peer))) remoteAddress bundle draw peer))
  /-- With addresses of their own, they do not change what `libsignal` answers either. -/
  others_outcome : ∀ labels remoteAddress bundle draw peer,
    (∀ label ∈ labels, label.Reaches remoteAddress.key → label.peerId = peer) →
      outcome c hmac (run (step c hmac) start labels) remoteAddress bundle draw peer =
        outcome c hmac (run (step c hmac) start
          (labels.filter (fun label => label.peerId = peer))) remoteAddress bundle draw peer
  fingerprint_eq_iff : ∀ x ∈ K, ∀ y ∈ K, ∀ x' ∈ K, ∀ y' ∈ K,
    (Fingerprint.compute hmac x.toList y.toList = Fingerprint.compute hmac x'.toList y'.toList ↔
      s(x, y) = s(x', y'))

section Keys

variable {hmac} {K : Set IdentityKey}

/-- The input of HKDF is the unordered pair of the keys. -/
lemma ikm_eq_iff (x y x' y' : IdentityKey) :
    Fingerprint.ikm x.toList y.toList = Fingerprint.ikm x'.toList y'.toList ↔
      s(x, y) = s(x', y') := by
  rw [Sym2.eq_iff]
  have hlength : ∀ u v : IdentityKey, u.toList.length = v.toList.length := by
    intro u v
    rw [u.toList_length, v.toList_length]
  have hinj : ∀ {u v u' v' : IdentityKey}, u.toList ++ v.toList = u'.toList ++ v'.toList →
      u = u' ∧ v = v' := by
    intro u v u' v' h
    obtain ⟨hu, hv⟩ := List.append_inj h (hlength u u')
    exact ⟨List.Vector.toList_injective hu, List.Vector.toList_injective hv⟩
  constructor
  · intro h
    unfold Fingerprint.ikm at h
    split at h <;> split at h
    · exact Or.inl (hinj h)
    · exact Or.inr (hinj h)
    · exact Or.inr ((hinj h).symm)
    · exact Or.inl ((hinj h).symm)
  · rintro (⟨rfl, rfl⟩ | ⟨rfl, rfl⟩)
    · rfl
    · exact Fingerprint.ikm_comm _ _

lemma compute_eq_iff (hinj : InjectiveOn hmac K) {x y x' y' : IdentityKey} (hx : x ∈ K) (hy : y ∈ K)
    (hx' : x' ∈ K) (hy' : y' ∈ K) :
    Fingerprint.compute hmac x.toList y.toList = Fingerprint.compute hmac x'.toList y'.toList ↔
      s(x, y) = s(x', y') := by
  rw [← ikm_eq_iff]
  constructor
  · exact hinj x hx y hy x' hx' y' hy'
  · intro h
    unfold Fingerprint.compute
    simp only [h]

lemma injectiveOn_of_leftInverse (back : Fingerprint → Bytes) (h : ∀ x ∈ K, ∀ y ∈ K,
    back (Fingerprint.compute hmac x.toList y.toList) = Fingerprint.ikm x.toList y.toList) :
    InjectiveOn hmac K := by
  intro x hx y hy x' hx' y' hy' heq
  rw [← h x hx y hy, ← h x' hx' y' hy', heq]

end Keys

section Runs

variable {c hmac} {K : Set IdentityKey} {s t : TrustState} {peer : String}

/-- When the trust check rejects. -/
lemma rejected_iff {remoteAddress : ProtocolAddress} {bundle : PreKeyBundle} {draw : Bytes} :
    Rejected (outcome c hmac s remoteAddress bundle draw peer) ↔
      ∃ pair verified k, s.store.identityKeyPair = some pair ∧
        s.trust.verifiedFingerprint peer = some verified ∧ c.bundleIdentityKey bundle = .ok k ∧
        Fingerprint.compute hmac pair.identityKey.toList k.toList ≠ verified := by
  unfold outcome SignalStore.initiateSessionVerified SignalStore.getIdentityKeyPair checkIdentity
  cases hpair : s.store.identityKeyPair with
  | none => simp [signal, Rejected]
  | some pair =>
    cases hkey : c.bundleIdentityKey bundle with
    | error e => simp [signal, Rejected]
    | ok k =>
      cases hverified : s.trust.verifiedFingerprint peer with
      | none =>
        simp only [signal, SignalStore.initiateSession]
        cases (c.processPrekeyBundle _ _ _ _ _).2 <;> simp [Rejected]
      | some verified =>
        by_cases hsame : Fingerprint.compute hmac pair.identityKey.toList k.toList = verified
        · simp only [signal, hsame, if_true, SignalStore.initiateSession]
          cases (c.processPrekeyBundle _ _ _ _ _).2 <;> simp [Rejected, hsame]
        · simp [signal, Rejected, hsame]

lemma rejected_iff_of_pair {pair : IdentityKeyPair} (hpair : s.store.identityKeyPair = some pair)
    {remoteAddress : ProtocolAddress} {bundle : PreKeyBundle} {draw : Bytes} {k : IdentityKey}
    (hkey : c.bundleIdentityKey bundle = .ok k) :
    Rejected (outcome c hmac s remoteAddress bundle draw peer) ↔
      ∃ verified, s.trust.verifiedFingerprint peer = some verified ∧
        Fingerprint.compute hmac pair.identityKey.toList k.toList ≠ verified := by
  rw [rejected_iff]
  simp [hpair, hkey]

/-- A call that does not get past the trust check leaves the stores. -/
lemma store_of_rejected {remoteAddress : ProtocolAddress} {bundle : PreKeyBundle} {draw : Bytes}
    (h : Rejected (outcome c hmac s remoteAddress bundle draw peer)) :
    (s.store.initiateSessionVerified c hmac remoteAddress bundle draw s.trust peer).1 = s.store := by
  obtain ⟨pair, verified, k, hpair, hverified, hkey, hne⟩ := rejected_iff.mp h
  unfold SignalStore.initiateSessionVerified SignalStore.getIdentityKeyPair checkIdentity
  simp [hpair, hkey, hverified, hne, signal]

/-- A call writes at most the records of its address. -/
lemma store_initiateSessionVerified (c : SessionCrates) (hmac : Hmac) (store : SignalStore) (remoteAddress : ProtocolAddress)
    (bundle : PreKeyBundle) (draw : Bytes) (trust : InMemoryTrustStore) (peerId : String) :
    (store.initiateSessionVerified c hmac remoteAddress bundle draw trust peerId).1 = store ∨
      ∃ records, (store.initiateSessionVerified c hmac remoteAddress bundle draw trust peerId).1 =
        store.setRecords remoteAddress.key records := by
  unfold SignalStore.initiateSessionVerified
  split
  · exact Or.inl rfl
  · split
    · exact Or.inl rfl
    · split
      · exact Or.inl rfl
      · exact Or.inr ⟨_, rfl⟩

lemma identityKeyPair_step (s : TrustState) (label : TrustLabel) :
    (step c hmac s label).store.identityKeyPair = s.store.identityKeyPair := by
  cases label with
  | recordVerified peerId fingerprint => rfl
  | forgetVerification peerId => rfl
  | initiateSessionVerified remoteAddress bundle draw peerId =>
    simp only [step]
    obtain h | ⟨records, h⟩ := store_initiateSessionVerified c hmac s.store remoteAddress bundle draw
      s.trust peerId
    · rw [h]
    · rw [h]
      rfl

lemma identityKeyPair_run (s : TrustState) (labels : List TrustLabel) :
    (run (step c hmac) s labels).store.identityKeyPair = s.store.identityKeyPair := by
  induction labels generalizing s with
  | nil => rfl
  | cons label labels ih => rw [run_cons, ih, identityKeyPair_step]

lemma verifiedFingerprint_step {label : TrustLabel} (h : ¬label.Sets peer) (s : TrustState) :
    (step c hmac s label).trust.verifiedFingerprint peer = s.trust.verifiedFingerprint peer := by
  cases label with
  | recordVerified peerId fingerprint => exact Function.update_of_ne (Ne.symm h) _ _
  | forgetVerification peerId => exact Function.update_of_ne (Ne.symm h) _ _
  | initiateSessionVerified remoteAddress bundle draw peerId => rfl

lemma verifiedFingerprint_run {labels : List TrustLabel} (h : ∀ label ∈ labels, ¬label.Sets peer)
    (s : TrustState) :
    (run (step c hmac) s labels).trust.verifiedFingerprint peer =
      s.trust.verifiedFingerprint peer := by
  induction labels generalizing s with
  | nil => rfl
  | cons label labels ih =>
    rw [List.forall_mem_cons] at h
    rw [run_cons, ih h.2, verifiedFingerprint_step h.1]

lemma verifiedFingerprint_run_none {labels : List TrustLabel}
    (h : ∀ label ∈ labels, ¬label.Records peer) (hs : s.trust.verifiedFingerprint peer = none) :
    (run (step c hmac) s labels).trust.verifiedFingerprint peer = none := by
  induction labels generalizing s with
  | nil => exact hs
  | cons label labels ih =>
    rw [List.forall_mem_cons] at h
    apply ih h.2
    cases label with
    | recordVerified peerId fingerprint => exact (Function.update_of_ne (Ne.symm h.1) _ _).trans hs
    | forgetVerification peerId =>
      simp only [step, InMemoryTrustStore.forgetVerification, Function.update_apply, hs, ite_self]
    | initiateSessionVerified remoteAddress bundle draw peerId => exact hs

lemma not_rejected_of_none (hs : s.trust.verifiedFingerprint peer = none)
    (remoteAddress : ProtocolAddress) (bundle : PreKeyBundle) (draw : Bytes) :
    ¬Rejected (outcome c hmac s remoteAddress bundle draw peer) := by
  intro hrejected
  obtain ⟨-, verified, -, -, hverified, -⟩ := rejected_iff.mp hrejected
  rw [hs] at hverified
  cases hverified

lemma not_sets_of_ne {label : TrustLabel} (h : label.peerId ≠ peer) : ¬label.Sets peer := by
  cases label with
  | recordVerified peerId fingerprint => exact h
  | forgetVerification peerId => exact h
  | initiateSessionVerified remoteAddress bundle draw peerId => exact id

/-- Two states that a peer's trust check does not tell apart. -/
structure SameTrust (peer : String) (s t : TrustState) : Prop where
  verified : s.trust.verifiedFingerprint peer = t.trust.verifiedFingerprint peer
  pair : s.store.identityKeyPair = t.store.identityKeyPair

lemma SameTrust.step (h : SameTrust peer s t) (label : TrustLabel) :
    SameTrust peer (step c hmac s label) (step c hmac t label) := by
  refine ⟨?_, ?_⟩
  · cases label with
    | recordVerified peerId fingerprint =>
      simp only [TrustState.step, InMemoryTrustStore.recordVerified, Function.update_apply, h.verified]
    | forgetVerification peerId =>
      simp only [TrustState.step, InMemoryTrustStore.forgetVerification, Function.update_apply,
        h.verified]
    | initiateSessionVerified remoteAddress bundle draw peerId => exact h.verified
  · rw [identityKeyPair_step, identityKeyPair_step]
    exact h.pair

lemma SameTrust.step_left (h : SameTrust peer s t) {label : TrustLabel} (hlabel : label.peerId ≠ peer) :
    SameTrust peer (TrustState.step c hmac s label) t :=
  ⟨(verifiedFingerprint_step (not_sets_of_ne hlabel) s).trans h.verified,
    (identityKeyPair_step s label).trans h.pair⟩

lemma sameTrust_run_filter (h : SameTrust peer s t) (labels : List TrustLabel) :
    SameTrust peer (run (TrustState.step c hmac) s labels)
      (run (TrustState.step c hmac) t (labels.filter (fun label => label.peerId = peer))) := by
  induction labels generalizing s t with
  | nil => exact h
  | cons label labels ih =>
    by_cases hlabel : label.peerId = peer
    · rw [List.filter_cons_of_pos (by simpa using hlabel)]
      exact ih (h.step label)
    · rw [List.filter_cons_of_neg (by simpa using hlabel)]
      exact ih (h.step_left hlabel)

/-- Two states that a call for the peer at the address does not tell apart. -/
structure SameView (peer key : String) (s t : TrustState) : Prop extends SameTrust peer s t where
  registrationId : s.store.registrationId = t.store.registrationId
  records : s.store.records key = t.store.records key

lemma records_setRecords_self (store : SignalStore) (key : String) (records : AddressRecords) :
    (store.setRecords key records).records key = records := by
  simp [SignalStore.records, SignalStore.setRecords]

lemma records_setRecords_of_ne {key key' : String} (h : key' ≠ key) (store : SignalStore)
    (records : AddressRecords) : (store.setRecords key records).records key' = store.records key' := by
  simp [SignalStore.records, SignalStore.setRecords, Function.update_of_ne h]

/-- Two such states give the call the same answer and leave the same records. -/
lemma SameView.initiateSessionVerified {remoteAddress : ProtocolAddress}
    (h : SameView peer remoteAddress.key s t) (bundle : PreKeyBundle) (draw : Bytes) :
    outcome c hmac s remoteAddress bundle draw peer = outcome c hmac t remoteAddress bundle draw peer ∧
      (step c hmac s (.initiateSessionVerified remoteAddress bundle draw peer)).store.records
          remoteAddress.key =
        (step c hmac t (.initiateSessionVerified remoteAddress bundle draw peer)).store.records
          remoteAddress.key := by
  unfold outcome
  simp only [step, SignalStore.initiateSessionVerified, SignalStore.getIdentityKeyPair, checkIdentity,
    h.pair, h.verified, SignalStore.initiateSession, h.registrationId, h.records]
  split
  · exact ⟨rfl, h.records⟩
  · split
    · exact ⟨rfl, h.records⟩
    · split
      · exact ⟨rfl, h.records⟩
      · exact ⟨rfl, by rw [records_setRecords_self, records_setRecords_self]⟩

lemma records_step_of_not_reaches {label : TrustLabel} {key : String} (h : ¬label.Reaches key)
    (s : TrustState) : (step c hmac s label).store.records key = s.store.records key := by
  cases label with
  | recordVerified peerId fingerprint => rfl
  | forgetVerification peerId => rfl
  | initiateSessionVerified remoteAddress bundle draw peerId =>
    simp only [step]
    obtain hsame | ⟨records, hset⟩ := store_initiateSessionVerified c hmac s.store remoteAddress
      bundle draw s.trust peerId
    · rw [hsame]
    · rw [hset, records_setRecords_of_ne (Ne.symm h)]

lemma registrationId_step (s : TrustState) (label : TrustLabel) :
    (step c hmac s label).store.registrationId = s.store.registrationId := by
  cases label with
  | recordVerified peerId fingerprint => rfl
  | forgetVerification peerId => rfl
  | initiateSessionVerified remoteAddress bundle draw peerId =>
    simp only [step]
    obtain h | ⟨records, h⟩ := store_initiateSessionVerified c hmac s.store remoteAddress bundle draw
      s.trust peerId
    · rw [h]
    · rw [h]
      rfl

lemma SameView.step {key : String} (h : SameView peer key s t) {label : TrustLabel}
    (hlabel : label.peerId = peer) :
    SameView peer key (TrustState.step c hmac s label) (TrustState.step c hmac t label) := by
  refine ⟨h.toSameTrust.step label, ?_, ?_⟩
  · rw [registrationId_step, registrationId_step]
    exact h.registrationId
  · by_cases hreaches : label.Reaches key
    · cases label with
      | recordVerified peerId fingerprint => exact h.records
      | forgetVerification peerId => exact h.records
      | initiateSessionVerified remoteAddress bundle draw peerId =>
        obtain rfl : remoteAddress.key = key := hreaches
        obtain rfl : peerId = peer := hlabel
        exact (h.initiateSessionVerified bundle draw).2
    · rw [records_step_of_not_reaches hreaches, records_step_of_not_reaches hreaches]
      exact h.records

lemma SameView.step_left {key : String} (h : SameView peer key s t) {label : TrustLabel}
    (hlabel : label.peerId ≠ peer) (hreaches : ¬label.Reaches key) :
    SameView peer key (TrustState.step c hmac s label) t :=
  ⟨h.toSameTrust.step_left hlabel, (registrationId_step s label).trans h.registrationId,
    (records_step_of_not_reaches hreaches s).trans h.records⟩

lemma sameView_run_filter {key : String} (h : SameView peer key s t) {labels : List TrustLabel}
    (hown : ∀ label ∈ labels, label.Reaches key → label.peerId = peer) :
    SameView peer key (run (TrustState.step c hmac) s labels)
      (run (TrustState.step c hmac) t (labels.filter (fun label => label.peerId = peer))) := by
  induction labels generalizing s t with
  | nil => exact h
  | cons label labels ih =>
    rw [List.forall_mem_cons] at hown
    by_cases hlabel : label.peerId = peer
    · rw [List.filter_cons_of_pos (by simpa using hlabel)]
      exact ih (h.step hlabel) hown.2
    · rw [List.filter_cons_of_neg (by simpa using hlabel)]
      exact ih (h.step_left hlabel fun hreaches => hlabel (hown.1 hreaches)) hown.2

lemma rejected_congr (h : SameTrust peer s t) (remoteAddress : ProtocolAddress) (bundle : PreKeyBundle)
    (draw : Bytes) : Rejected (outcome c hmac s remoteAddress bundle draw peer) ↔
      Rejected (outcome c hmac t remoteAddress bundle draw peer) := by
  rw [rejected_iff, rejected_iff, h.pair, h.verified]

/-- Verified identities are pinned in every history of a device. -/
theorem pinning (c : SessionCrates) (hmac : Hmac) (K : Set IdentityKey) (hinj : InjectiveOn hmac K)
    (start : TrustState) (pair : IdentityKeyPair) (hpair : start.store.identityKeyPair = some pair)
    (hown : pair.identityKey ∈ K) : Pinning c hmac K pair.identityKey start where
  pinned before peer k hk later hlater remoteAddress bundle draw k' hk' hkey := by
    rw [rejected_iff_of_pair ((identityKeyPair_run _ _).trans hpair) hkey, run_append, run_cons,
      verifiedFingerprint_run hlater]
    have hverified : (step c hmac (run (step c hmac) start before) (.recordVerified peer
        (Fingerprint.compute hmac pair.identityKey.toList k.toList))).trust.verifiedFingerprint peer =
        some (Fingerprint.compute hmac pair.identityKey.toList k.toList) :=
      Function.update_self _ _ _
    rw [hverified]
    simp only [Option.some.injEq, exists_eq_left', not_not, ne_eq]
    rw [compute_eq_iff hinj hown hk' hown hk]
    exact Sym2.congr_right
  rejected_unchanged labels remoteAddress bundle draw peer hrejected := by
    rw [run_append, run_cons, run_nil]
    exact congrArg (fun store => TrustState.mk store _) (store_of_rejected hrejected)
  unrecorded labels peer hnone hlabels :=
    not_rejected_of_none (verifiedFingerprint_run_none hlabels hnone)
  forgotten before peer later hlater := by
    apply not_rejected_of_none
    rw [run_append, run_cons]
    exact verifiedFingerprint_run_none hlater (Function.update_self _ _ _)
  others labels remoteAddress bundle draw peer :=
    rejected_congr (sameTrust_run_filter ⟨rfl, rfl⟩ labels) remoteAddress bundle draw
  others_outcome labels remoteAddress bundle draw peer hlabels :=
    ((sameView_run_filter ⟨⟨rfl, rfl⟩, rfl, rfl⟩ hlabels).initiateSessionVerified bundle draw).1
  fingerprint_eq_iff x hx y hy x' hx' y' hy' := compute_eq_iff hinj hx hy hx' hy'

end Runs

section TwoKeys

def sampleKey (b : UInt8) : IdentityKey := ⟨5 :: List.replicate 32 b, rfl⟩

def sampleKeys : Set IdentityKey := {k | k = sampleKey 1 ∨ k = sampleKey 2}

/-- The pair of sample keys that a fingerprint is of, by its first byte. -/
def samplePair (fingerprint : Fingerprint) : UInt8 × UInt8 :=
  match fingerprint.bytes.toList.head? with
  | some 191 => (1, 1)
  | some 13 => (1, 2)
  | _ => (2, 2)

lemma injectiveOn_sampleKeys : InjectiveOn Sha256.hmac sampleKeys := by
  let back (fingerprint : Fingerprint) : Bytes :=
    Fingerprint.ikm (sampleKey (samplePair fingerprint).1).toList
      (sampleKey (samplePair fingerprint).2).toList
  have hall : ∀ i ∈ ([1, 2] : List UInt8), ∀ j ∈ ([1, 2] : List UInt8),
      back (Fingerprint.compute Sha256.hmac (sampleKey i).toList (sampleKey j).toList) =
        Fingerprint.ikm (sampleKey i).toList (sampleKey j).toList := by decide +kernel
  apply injectiveOn_of_leftInverse back
  rintro x (rfl | rfl) y (rfl | rfl) <;> exact hall _ (by decide) _ (by decide)

/-- `libsignal` with pin-on-first-use and a session record of the drawn bytes. -/
def pinFirstUse : SessionCrates where
  bundleIdentityKey bundle :=
    if h : bundle.identityKey.length = 33 then .ok ⟨bundle.identityKey, h⟩ else .error "bad key"
  invalidState function info := "invalid state for call to " ++ function ++ " to succeed: " ++ info
  processPrekeyBundle _ _ records bundle draw :=
    if h : bundle.identityKey.length = 33 then
      if records.trustedIdentity.all (fun k => k.toList = bundle.identityKey) then
        (⟨some ⟨bundle.identityKey, h⟩, some draw⟩, .ok ())
      else (records, .error "untrusted identity")
    else (records, .error "bad key")

theorem pinning_sampleKeys :
    Pinning pinFirstUse Sha256.hmac sampleKeys (sampleKey 1)
      ⟨{ identityKeyPair := some ⟨sampleKey 1, List.Vector.replicate 32 9⟩, registrationId := 7 }, {}⟩ :=
  pinning pinFirstUse Sha256.hmac sampleKeys injectiveOn_sampleKeys _
    ⟨sampleKey 1, List.Vector.replicate 32 9⟩ rfl (Or.inl rfl)

end TwoKeys

end TrustState

end Parda.Protocol
