import Parda.Mesh.Retention

/-!
# Declared lifetimes

The expiry that carriers act on is creation time plus lifetime, as a `u64` sum. When it is the
sum that the sender declared, and when it is no later than the deadline of the message inside.
-/

namespace Parda.Mesh

open Protocol

variable {c : Crates} {cfg : RelayConfig} {bytes : Bytes} {bundle : Bundle}

def expiredOnArrival : MeshError := .relayRefused "bundle already expired on arrival"

/-- The expiry a bundle declares, as a number. -/
def declaredExpiry (bundle : Bundle) : ℕ :=
  bundle.primary.creationTimestamp.toNat + bundle.primary.lifetime.toNat

/-- No sum wraps, and every admission and every sweep of every run decides by the declared
expiry. -/
structure DecidesByDeclaredExpiry (c : Crates) (cfg : RelayConfig) (bytes : Bytes)
    (bundle : Bundle) : Prop where
  no_wrap : ∃ expiry, expiryMs c bytes = .ok expiry ∧ expiry.toNat = declaredExpiry bundle
  refused_iff : ∀ (s : RelayStore) (nowMs : UInt64) (sessionBudget : Option ℕ),
    s.admitChecked c cfg nowMs bytes sessionBudget = .error expiredOnArrival ↔
      declaredExpiry bundle ≤ nowMs.toNat
  swept_iff : ∀ (labels : List AgentLabel) (label : AgentLabel) (nowMs : UInt64),
    (Machine.run (agentStep c cfg) {} labels).sweepsAt label = some nowMs →
      (Machine.run (agentStep c cfg) {} labels).store.Holds bytes →
        (¬(Machine.run (agentStep c cfg) {} (labels ++ [label])).store.Holds bytes ↔
          declaredExpiry bundle ≤ nowMs.toNat)

lemma expiryMs_of_bundle (h : bytesAsBundle c bytes = .ok bundle) :
    expiryMs c bytes = .ok (bundle.primary.creationTimestamp + bundle.primary.lifetime) := by
  unfold expiryMs
  rw [h]

lemma destinationAddress_error {e : MeshError} (h : destinationAddress bundle = .error e) :
    ∃ message, e = .bundleCodec message := by
  unfold destinationAddress at h
  cases hpre : stripPrefix deadDropUriPrefix bundle.primary.destination with
  | none =>
    simp only [hpre, Except.error.injEq] at h
    exact ⟨_, h.symm⟩
  | some hexPart =>
    simp only [hpre] at h
    cases hhex : hexDecode hexPart with
    | error e' =>
      simp only [hhex, Except.error.injEq] at h
      exact ⟨_, h.symm⟩
    | ok bytes =>
      simp only [hhex] at h
      cases hvec : toBytes32 bytes with
      | none =>
        simp only [hvec, Except.error.injEq] at h
        exact ⟨_, h.symm⟩
      | some address => simp [hvec] at h

/-- A bundle is refused as expired exactly when the expiry read from it has passed. -/
lemma admitChecked_expired_iff {s : RelayStore} {expiry nowMs : UInt64}
    (hexp : expiryMs c bytes = .ok expiry) (sessionBudget : Option ℕ) :
    s.admitChecked c cfg nowMs bytes sessionBudget = .error expiredOnArrival ↔ expiry ≤ nowMs := by
  constructor
  · intro h
    by_contra hnot
    unfold RelayStore.admitChecked at h
    simp only [hexp, hnot, if_false] at h
    unfold bytesAsBundle at h
    cases hbundle : c.bundleFromCbor bytes with
    | error e => simp [hbundle, expiredOnArrival] at h
    | ok bundle =>
      simp only [hbundle] at h
      cases haddr : destinationAddress bundle with
      | error e =>
        obtain ⟨message, rfl⟩ := destinationAddress_error haddr
        simp [haddr, expiredOnArrival] at h
      | ok address =>
        simp only [haddr] at h
        split_ifs at h
        · simp [expiredOnArrival] at h
        · simp [expiredOnArrival] at h
  · intro h
    unfold RelayStore.admitChecked
    simp only [hexp, h, if_true]
    rfl

lemma toNat_add_eq_iff (a b : UInt64) :
    (a + b).toNat = a.toNat + b.toNat ↔ a.toNat + b.toNat < 2 ^ 64 := by
  rw [UInt64.toNat_add]
  omega

/-- Carriers decide by the declared expiry exactly when it is a `u64`. -/
theorem decidesByDeclaredExpiry_iff (c : Crates) (cfg : RelayConfig)
    (hbundle : bytesAsBundle c bytes = .ok bundle) :
    DecidesByDeclaredExpiry c cfg bytes bundle ↔ declaredExpiry bundle < 2 ^ 64 := by
  have hexp := expiryMs_of_bundle hbundle
  constructor
  · intro h
    obtain ⟨expiry, heq, hsum⟩ := h.no_wrap
    rw [hexp, Except.ok.injEq] at heq
    rw [← heq] at hsum
    exact (toNat_add_eq_iff _ _).mp hsum
  · intro hlt
    have hsum := (toNat_add_eq_iff _ _).mpr hlt
    refine ⟨⟨_, hexp, hsum⟩, ?_, ?_⟩
    · intro s nowMs sessionBudget
      rw [admitChecked_expired_iff hexp, UInt64.le_iff_toNat_le, hsum]
      rfl
    · intro labels label nowMs hsweep hheld
      have haccounted : RelayStore.Accounted c cfg
          (Machine.run (agentStep c cfg) {} labels).store :=
        run_accounted RelayStore.accounted_empty labels
      obtain ⟨order, hstore⟩ := agentStep_of_sweepsAt c cfg hsweep
      rw [Machine.run_append, Machine.run_cons, Machine.run_nil, hstore,
        RelayStore.holds_sweepExpired_iff haccounted hexp, not_and, UInt64.not_lt,
        UInt64.le_iff_toNat_le, hsum]
      exact ⟨fun h => h hheld, fun h _ => h⟩

section Wrapping

/-- A bundle created at 1000 that declares the longest lifetime of all. -/
def endlessBundle : Bundle :=
  ⟨⟨deadDropUri (List.Vector.replicate 32 9), 1000, 18446744073709551615⟩, some []⟩

lemma bytesAsBundle_endless :
    bytesAsBundle localCrates (localCrates.bundleToCbor endlessBundle) = .ok endlessBundle := by
  unfold bytesAsBundle
  have hround := localCrates_framing.cbor_round_trip (List.Vector.replicate 32 9) 1000
    18446744073709551615 []
  unfold endlessBundle
  rw [hround]

theorem decidesByDeclaredExpiry_iff_endless :
    DecidesByDeclaredExpiry localCrates {} (localCrates.bundleToCbor endlessBundle)
        endlessBundle ↔ declaredExpiry endlessBundle < 2 ^ 64 :=
  decidesByDeclaredExpiry_iff localCrates {} bytesAsBundle_endless

/-- The bundle is refused as expired at a time long before the expiry it declares. -/
theorem not_decidesByDeclaredExpiry_endless :
    RelayStore.admitChecked localCrates {} 2000 {} (localCrates.bundleToCbor endlessBundle)
        (some 20) = .error expiredOnArrival ∧
      ¬DecidesByDeclaredExpiry localCrates {} (localCrates.bundleToCbor endlessBundle)
        endlessBundle := by
  have hrefused : RelayStore.admitChecked localCrates {} 2000 {}
      (localCrates.bundleToCbor endlessBundle) (some 20) = .error expiredOnArrival :=
    (admitChecked_expired_iff (expiryMs_of_bundle bytesAsBundle_endless) _).mpr (by decide)
  refine ⟨hrefused, fun h => ?_⟩
  have hpassed := (h.refused_iff {} 2000 (some 20)).mp hrefused
  exact absurd hpassed (by decide)

end Wrapping

section Deadlines

/-- The expiry of a bundle is no later than `deadlineMs`, and no sweep of any carrier from then on
leaves it. -/
def GoneBy (c : Crates) (bytes : Bytes) (deadlineMs : UInt64) : Prop :=
  (∃ expiry, expiryMs c bytes = .ok expiry ∧ expiry ≤ deadlineMs) ∧
    ∀ (cfg : RelayConfig) (labels : List AgentLabel) (label : AgentLabel) (nowMs : UInt64),
      (Machine.run (agentStep c cfg) {} labels).sweepsAt label = some nowMs → deadlineMs ≤ nowMs →
        ¬(Machine.run (agentStep c cfg) {} (labels ++ [label])).store.Holds bytes

lemma goneBy_iff_le {expiry : UInt64} (hexp : expiryMs c bytes = .ok expiry) (deadlineMs : UInt64) :
    GoneBy c bytes deadlineMs ↔ expiry ≤ deadlineMs := by
  constructor
  · rintro ⟨⟨expiry', heq, hle⟩, -⟩
    rw [hexp, Except.ok.injEq] at heq
    rwa [heq]
  · intro hle
    refine ⟨⟨expiry, hexp, hle⟩, ?_⟩
    intro cfg labels label nowMs hsweep hlate hholds
    have haccounted : RelayStore.Accounted c cfg
        (Machine.run (agentStep c cfg) {} labels).store :=
      run_accounted RelayStore.accounted_empty labels
    obtain ⟨order, hstore⟩ := agentStep_of_sweepsAt c cfg hsweep
    rw [Machine.run_append, Machine.run_cons, Machine.run_nil, hstore,
      RelayStore.holds_sweepExpired_iff haccounted hexp] at hholds
    exact UInt64.not_le.mpr hholds.2 (UInt64.le_trans hle hlate)

variable {nowMs deadlineMs : UInt64} {envelope : MessageEnvelope} {address : Address}

lemma wrapLifetimeMs_toNat (h : envelope.selfDestructAt = some deadlineMs) :
    (wrapLifetimeMs envelope).toNat = deadlineMs.toNat - envelope.timestampMs.toNat := by
  unfold wrapLifetimeMs
  rw [h]
  dsimp only
  split
  · rename_i hle
    exact UInt64.toNat_sub_of_le _ _ hle
  · rename_i hnot
    have hlt := UInt64.lt_iff_toNat_lt.mp (UInt64.not_le.mp hnot)
    rw [Nat.sub_eq_zero_of_le hlt.le]
    rfl

/-- A wrapped message is gone by its deadline exactly when it was wrapped by both the time it was
composed at and its deadline, or when the sum of its bundle wraps. -/
theorem goneBy_of_wrap_iff (laws : FramingLaws c)
    (hdeadline : envelope.selfDestructAt = some deadlineMs)
    (hwrap : wrap c nowMs envelope address = .ok bytes) :
    GoneBy c bytes deadlineMs ↔
      nowMs ≤ envelope.timestampMs ∧ nowMs ≤ deadlineMs ∨
        2 ^ 64 ≤ nowMs.toNat + (deadlineMs.toNat - envelope.timestampMs.toNat) := by
  obtain ⟨bytes', -, hwrap', -, -, -, hexp⟩ := wrap_spec laws nowMs envelope address
  rw [hwrap, Except.ok.injEq] at hwrap'
  rw [← hwrap'] at hexp
  have hlifetime := wrapLifetimeMs_toNat hdeadline
  have hnow := nowMs.toNat_lt
  have hend := deadlineMs.toNat_lt
  rw [goneBy_iff_le hexp, UInt64.le_iff_toNat_le, UInt64.le_iff_toNat_le, UInt64.le_iff_toNat_le,
    UInt64.toNat_add, hlifetime]
  by_cases hwraps : 2 ^ 64 ≤ nowMs.toNat + (deadlineMs.toNat - envelope.timestampMs.toNat)
  · -- the wrapped sum is below the deadline
    rw [Nat.mod_eq_sub_mod hwraps, Nat.mod_eq_of_lt (by omega)]
    omega
  · rw [Nat.mod_eq_of_lt (by omega)]
    omega

/-- A message composed at 1000 with a deadline at 2000. -/
def timedEnvelope : MessageEnvelope := { sampleEnvelope 7 with selfDestructAt := some 2000 }

/-- The bundle of a wrap at `nowMs`. -/
def timedBundle (nowMs : UInt64) : Bytes :=
  (wrap localCrates nowMs timedEnvelope (List.Vector.replicate 32 9)).toOption.getD []

lemma wrap_timed (nowMs : UInt64) :
    wrap localCrates nowMs timedEnvelope (List.Vector.replicate 32 9) = .ok (timedBundle nowMs) := by
  obtain ⟨bytes, -, hwrap, -⟩ :=
    wrap_spec localCrates_framing nowMs timedEnvelope (List.Vector.replicate 32 9)
  unfold timedBundle
  rw [hwrap]
  rfl

theorem goneBy_of_wrap_iff_timed :
    GoneBy localCrates (timedBundle 900) 2000 ↔
      (900 : UInt64) ≤ timedEnvelope.timestampMs ∧ (900 : UInt64) ≤ 2000 ∨
        2 ^ 64 ≤ (900 : UInt64).toNat + ((2000 : UInt64).toNat - timedEnvelope.timestampMs.toNat) :=
  goneBy_of_wrap_iff localCrates_framing rfl (wrap_timed 900)

/-- Wrapped half a second after it was composed, the message outlives its deadline by as much. -/
theorem not_goneBy_of_wrap_late :
    wrap localCrates 1500 timedEnvelope (List.Vector.replicate 32 9) = .ok (timedBundle 1500) ∧
      timedEnvelope.selfDestructAt = some 2000 ∧
      expiryMs localCrates (timedBundle 1500) = .ok 2500 ∧
      ¬GoneBy localCrates (timedBundle 1500) 2000 := by
  have hexp : expiryMs localCrates (timedBundle 1500) = .ok 2500 := by
    obtain ⟨bytes, -, hwrap, -, -, -, hexp⟩ :=
      wrap_spec localCrates_framing 1500 timedEnvelope (List.Vector.replicate 32 9)
    rw [wrap_timed, Except.ok.injEq] at hwrap
    rw [hwrap, hexp]
    rfl
  exact ⟨wrap_timed 1500, rfl, hexp, fun h => absurd ((goneBy_iff_le hexp 2000).mp h) (by decide)⟩

end Deadlines

end Parda.Mesh
