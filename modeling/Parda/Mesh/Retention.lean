import Parda.Mesh.Channel

/-!
# Retention of foreign bundles

A carrier sweeps a bundle once the lifetime that its sender declared is over. Nothing
bounds what a sender declares: `defaultMaxLifetimeMs` is only what `wrap` declares for
an envelope without a deadline.
-/

namespace Parda.Mesh

open Protocol

/-- The bundle a step offers for admission, with the clock reading and the budget of the
session it came from. -/
def Agent.admission (a : Agent) : AgentLabel → Option (UInt64 × Bytes × Option ℕ)
  | .admitBundle nowMs bytes => some (nowMs, bytes, none)
  | .session i (.receive nowMs (.ok (.bundle bytes))) =>
    match a.sessions i with
    | .admitting _ budget => some (nowMs, bytes, some budget)
    | _ => none
  | _ => none

/-- The step admits the bundle at `nowMs`, and the bundle is held after it. -/
structure Agent.Admits (c : Crates) (cfg : RelayConfig) (a : Agent) (label : AgentLabel)
    (nowMs : UInt64) (bytes : Bytes) : Prop where
  accepted : ∃ budget, a.admission label = some (nowMs, bytes, budget) ∧
    (a.store.admitChecked c cfg nowMs bytes budget).isOk = true
  held : (agentStep c cfg a label).store.Holds bytes

/-- Whatever the agent does next, no sweep that runs at the maximum lifetime past
`admittedMs` or later leaves the bundle. -/
def Agent.SweptByMaxLifetime (c : Crates) (cfg : RelayConfig) (a : Agent) (admittedMs : UInt64)
    (bytes : Bytes) : Prop :=
  ∀ labels label nowMs, (Machine.run (agentStep c cfg) a labels).sweepsAt label = some nowMs →
    admittedMs.toNat + defaultMaxLifetimeMs.toNat ≤ nowMs.toNat →
    ¬(Machine.run (agentStep c cfg) a (labels ++ [label])).store.Holds bytes

variable {c : Crates} {cfg : RelayConfig}

namespace RelayStore

/-- A sweep keeps a held bundle exactly when its declared lifetime is not over. -/
lemma holds_sweepExpired_iff {s : RelayStore} (hs : Accounted c cfg s) {bytes : Bytes}
    {expiry nowMs : UInt64} (hexp : expiryMs c bytes = .ok expiry) (order : IterOrder) :
    (s.sweepExpired order nowMs).Holds bytes ↔ s.Holds bytes ∧ nowMs < expiry := by
  have hexpiry : ∀ h b, s.byHash.lookup h = some b → b.bytes = bytes → b.expiryMs = expiry := by
    intro h b hb hbytes
    have hdec := (hs.decoded h b hb).expiry
    rw [hbytes, hexp, Except.ok.injEq] at hdec
    exact hdec.symm
  constructor
  · rintro ⟨h, b, hb, hbytes⟩
    rw [lookup_sweepExpired] at hb
    refine ⟨⟨h, b, hb.1, hbytes⟩, ?_⟩
    rw [← hexpiry h b hb.1 hbytes]
    exact hb.2
  · rintro ⟨⟨h, b, hb, hbytes⟩, hlt⟩
    refine ⟨h, b, lookup_sweepExpired.mpr ⟨hb, ?_⟩, hbytes⟩
    rw [hexpiry h b hb hbytes]
    exact hlt

end RelayStore

lemma run_accounted {a : Agent} (ha : RelayStore.Accounted c cfg a.store)
    (labels : List AgentLabel) :
    RelayStore.Accounted c cfg (Machine.run (agentStep c cfg) a labels).store :=
  (Machine.everyState_of_step agentStep_accounted ha labels).last

lemma Agent.Admits.decodes {a : Agent} {label : AgentLabel} {nowMs : UInt64} {bytes : Bytes}
    (h : a.Admits c cfg label nowMs bytes) : ∃ expiry, expiryMs c bytes = .ok expiry := by
  obtain ⟨budget, -, hok⟩ := h.accepted
  cases had : a.store.admitChecked c cfg nowMs bytes budget with
  | error e =>
    rw [had] at hok
    cases hok
  | ok s =>
    obtain ⟨address, expiry, hdec, -, -⟩ := RelayStore.admitChecked_cases had
    exact ⟨expiry, hdec.expiry⟩

/-- A held bundle is swept by the maximum lifetime exactly when it declares an expiry
within it. -/
lemma sweptByMaxLifetime_iff {a : Agent} (ha : RelayStore.Accounted c cfg a.store)
    {bytes : Bytes} (hheld : a.store.Holds bytes) {expiry : UInt64}
    (hexp : expiryMs c bytes = .ok expiry) (admittedMs : UInt64) :
    a.SweptByMaxLifetime c cfg admittedMs bytes ↔
      expiry.toNat ≤ admittedMs.toNat + defaultMaxLifetimeMs.toNat := by
  constructor
  · intro h
    by_contra hlate
    have hlt := expiry.toNat_lt
    -- a sweep at the very end of the maximum lifetime still finds the bundle unexpired
    have hend : (admittedMs + defaultMaxLifetimeMs).toNat =
        admittedMs.toNat + defaultMaxLifetimeMs.toNat := by
      rw [UInt64.toNat_add, Nat.mod_eq_of_lt]
      omega
    have hswept := h [] (.sweep .insertion (admittedMs + defaultMaxLifetimeMs))
      (admittedMs + defaultMaxLifetimeMs) rfl (by omega)
    apply hswept
    refine (RelayStore.holds_sweepExpired_iff ha hexp .insertion).mpr ⟨hheld, ?_⟩
    rw [UInt64.lt_iff_toNat_lt]
    omega
  · intro hle labels label nowMs hsweep hlate hholds
    rw [Machine.run_append, Machine.run_cons, Machine.run_nil] at hholds
    obtain ⟨order, hstore⟩ := agentStep_of_sweepsAt c cfg hsweep
    rw [hstore, RelayStore.holds_sweepExpired_iff (run_accounted ha labels) hexp] at hholds
    have hlt := UInt64.lt_iff_toNat_lt.mp hholds.2
    omega

/-- A bundle admitted at any point of any run is gone after every sweep that runs at the
maximum lifetime past its admission or later exactly when it declares an expiry within
the maximum lifetime. -/
theorem retention_bounded_iff (c : Crates) (cfg : RelayConfig) (labels : List AgentLabel)
    (label : AgentLabel) (admittedMs : UInt64) (bytes : Bytes)
    (h : (Machine.run (agentStep c cfg) {} labels).Admits c cfg label admittedMs bytes) :
    (Machine.run (agentStep c cfg) {} (labels ++ [label])).SweptByMaxLifetime c cfg admittedMs
        bytes ↔
      ∀ expiry, expiryMs c bytes = .ok expiry →
        expiry.toNat ≤ admittedMs.toNat + defaultMaxLifetimeMs.toNat := by
  obtain ⟨expiry, hexp⟩ := h.decodes
  have hheld := h.held
  have ha : RelayStore.Accounted c cfg
      (Machine.run (agentStep c cfg) {} (labels ++ [label])).store :=
    run_accounted RelayStore.accounted_empty _
  have hend : (Machine.run (agentStep c cfg) {} (labels ++ [label])).store.Holds bytes := by
    rw [Machine.run_append]
    exact hheld
  rw [sweptByMaxLifetime_iff ha hend hexp, hexp]
  constructor
  · intro hle expiry' heq
    rw [Except.ok.injEq] at heq
    rwa [← heq]
  · exact fun hall => hall expiry rfl

section LongLived

/-- A bundle that declares a lifetime of 2^40 milliseconds, some 35 years. -/
def longLivedBundle : Bytes :=
  localCrates.bundleToCbor
    ⟨⟨deadDropUri (List.Vector.replicate 32 9), 1000, 1099511627776⟩, some []⟩

def longLivedAdmission : AgentLabel :=
  .session 0 (.receive 2000 (.ok (.bundle longLivedBundle)))

/-- A session up to its admission loop. -/
def longLivedSession : List AgentLabel :=
  let advance := AgentLabel.session 0 (.advance 2000 .insertion)
  let receive := fun m => AgentLabel.session 0 (.receive 2000 (.ok m))
  [advance, advance, advance, receive (.haveHashes []), advance, receive (.want []), advance,
    advance]

lemma admits_longLived :
    (Machine.run (agentStep localCrates {}) {} longLivedSession).Admits localCrates {}
      longLivedAdmission 2000 longLivedBundle where
  accepted := ⟨some 20, rfl, by decide +kernel⟩
  held := by decide +kernel

theorem not_sweptByMaxLifetime_longLived :
    (Machine.run (agentStep localCrates {}) {} longLivedSession).Admits localCrates {}
      longLivedAdmission 2000 longLivedBundle ∧
    ¬(Machine.run (agentStep localCrates {}) {}
      (longLivedSession ++ [longLivedAdmission])).SweptByMaxLifetime localCrates {} 2000
      longLivedBundle := by
  refine ⟨admits_longLived, fun h => ?_⟩
  have hswept := h [] (.sweep .insertion 604802000) 604802000 rfl (by decide)
  exact hswept (by decide +kernel)

theorem retention_bounded_iff_longLived :
    (Machine.run (agentStep localCrates {}) {}
      (longLivedSession ++ [longLivedAdmission])).SweptByMaxLifetime localCrates {} 2000
        longLivedBundle ↔
      ∀ expiry, expiryMs localCrates longLivedBundle = .ok expiry →
        expiry.toNat ≤ (2000 : UInt64).toNat + defaultMaxLifetimeMs.toNat :=
  retention_bounded_iff localCrates {} longLivedSession longLivedAdmission 2000 longLivedBundle
    admits_longLived

end LongLived

end Parda.Mesh
