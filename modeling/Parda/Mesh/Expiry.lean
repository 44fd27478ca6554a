import Parda.Lib.Ledger
import Parda.Mesh.Delivery

/-!
# Delivery of expired bundles

A mesh node is a relay agent, the transports that poll it and one clock. An admission
refuses an expired bundle and a sweep removes one, but neither `take_for_addresses` nor
`receive` looks at the expiry, so what they hand out depends on the sweeps before them.
The node keeps a ledger of what was stored and what removed it.
-/

namespace Parda.Mesh

open Protocol

/-- What happened to a relay store. -/
inductive StoreEvent where
  | stored (hash : BundleHash) (bundle : StoredBundle)
  | swept (nowMs : UInt64)
  | taken (addresses : List Address)

def StoreEvent.puts (e : StoreEvent) (hash : BundleHash) (b : StoredBundle) : Prop :=
  e = .stored hash b

/-- The event removes the bundle if it is stored. -/
def StoreEvent.clears : StoreEvent → BundleHash → StoredBundle → Prop
  | .stored _ _, _, _ => False
  | .swept nowMs, _, b => b.expiryMs ≤ nowMs
  | .taken addresses, _, b => b.address ∈ addresses

/-- The bundles stored in `after` under hashes that are free in `before`. -/
def arrivals (before after : RelayStore) : List StoreEvent :=
  (after.byHash.entries.filter (fun e => (before.byHash.lookup e.1).isNone)).map
    (fun e => .stored e.1 e.2)

structure MeshNode where
  agent : Agent := {}
  transports : ℕ → MeshTransport
  nowMs : UInt64 := 0
  ledger : List StoreEvent := []

/-- The label of a step of the relay agent leaves its clock readings to the node. A send
also gives the reading of its `wrap`. -/
inductive NodeLabel where
  | tick (nowMs : UInt64)
  | relay (label : AgentLabel)
  | send (i : ℕ) (wrapMs : UInt64) (envelope : MessageEnvelope)
  | receive (i : ℕ) (rng : PollRng) (order : IterOrder)

def SyncEvent.readAt (nowMs : UInt64) : SyncEvent → SyncEvent
  | .advance _ order => .advance nowMs order
  | .receive _ message => .receive nowMs message
  | .broken e => .broken e

def AgentLabel.readAt (nowMs : UInt64) : AgentLabel → AgentLabel
  | .admitBundle _ bytes => .admitBundle nowMs bytes
  | .session i event => .session i (event.readAt nowMs)
  | .take order addresses => .take order addresses
  | .sweep order _ => .sweep order nowMs

/-- The events of a step of the relay agent that ends in `after`. -/
def Agent.events (a : Agent) (label : AgentLabel) (after : RelayStore) : List StoreEvent :=
  match label with
  | .take _ addresses => [.taken addresses]
  | label =>
    match a.sweepsAt label with
    | some nowMs => [.swept nowMs]
    | none => arrivals a.store after

namespace MeshNode

def relayStep (c : Crates) (cfg : RelayConfig) (n : MeshNode) (label : AgentLabel) : MeshNode :=
  let label := label.readAt n.nowMs
  let agent := agentStep c cfg n.agent label
  { n with agent := agent, ledger := n.agent.events label agent.store ++ n.ledger }

def sendStep (c : Crates) (cfg : RelayConfig) (n : MeshNode) (i : ℕ) (wrapMs : UInt64)
    (envelope : MessageEnvelope) : MeshNode :=
  match (n.transports i).send c cfg wrapMs n.nowMs n.agent.store envelope with
  | .ok (t, s) =>
    { n with
      agent := { n.agent with store := s }
      transports := Function.update n.transports i t
      ledger := arrivals n.agent.store s ++ n.ledger }
  | .error _ => n

def receiveStep (c : Crates) (n : MeshNode) (i : ℕ) (rng : PollRng) (order : IterOrder) :
    MeshNode :=
  let result := (n.transports i).receive c rng order n.agent.store
  { n with
    agent := { n.agent with store := result.2.1 }
    transports := Function.update n.transports i result.1
    ledger := .taken ((n.transports i).pollSet c rng) :: n.ledger }

def step (c : Crates) (cfg : RelayConfig) (n : MeshNode) : NodeLabel → MeshNode
  | .tick nowMs => { n with nowMs := if n.nowMs ≤ nowMs then nowMs else n.nowMs }
  | .relay label => n.relayStep c cfg label
  | .send i wrapMs envelope => n.sendStep c cfg i wrapMs envelope
  | .receive i rng order => n.receiveStep c i rng order

/-- The bundle's declared lifetime is over. -/
def Lapsed (c : Crates) (nowMs : UInt64) (bytes : Bytes) : Prop :=
  ∃ expiry, expiryMs c bytes = .ok expiry ∧ expiry ≤ nowMs

instance decidableLapsed (c : Crates) (nowMs : UInt64) (bytes : Bytes) :
    Decidable (Lapsed c nowMs bytes) :=
  match h : expiryMs c bytes with
  | .ok expiry => decidable_of_iff (expiry ≤ nowMs) (by simp [Lapsed, h])
  | .error _ => isFalse (by simp [Lapsed, h])

/-- No bundle that the step takes, and no bundle behind an envelope it returns, has
lapsed at the time of the step. -/
def DeliversFresh (c : Crates) (n : MeshNode) : NodeLabel → Prop
  | .relay (.take order addresses) =>
    ∀ bytes ∈ (n.agent.store.takeForAddresses order addresses).2, ¬Lapsed c n.nowMs bytes
  | .receive i rng order =>
    (∀ bytes ∈ (n.agent.store.takeForAddresses order ((n.transports i).pollSet c rng)).2,
      ¬Lapsed c n.nowMs bytes) ∧
    ∀ claim ∈ ((n.transports i).receive c rng order n.agent.store).2.2,
      ¬Lapsed c n.nowMs claim.bytes
  | _ => True

instance decidableDeliversFresh (c : Crates) (n : MeshNode) :
    ∀ label, Decidable (n.DeliversFresh c label)
  | .relay (.take order addresses) => inferInstanceAs (Decidable
      (∀ bytes ∈ (n.agent.store.takeForAddresses order addresses).2, ¬Lapsed c n.nowMs bytes))
  | .receive i rng order => inferInstanceAs (Decidable
      ((∀ bytes ∈ (n.agent.store.takeForAddresses order ((n.transports i).pollSet c rng)).2,
        ¬Lapsed c n.nowMs bytes) ∧
      ∀ claim ∈ ((n.transports i).receive c rng order n.agent.store).2.2,
        ¬Lapsed c n.nowMs claim.bytes))
  | .tick _ => isTrue trivial
  | .send _ _ _ => isTrue trivial
  | .relay (.admitBundle _ _) => isTrue trivial
  | .relay (.session _ _) => isTrue trivial
  | .relay (.sweep _ _) => isTrue trivial

/-- The addresses a step takes bundles for. -/
def polls (c : Crates) (n : MeshNode) : NodeLabel → List Address
  | .relay (.take _ addresses) => addresses
  | .receive i rng _ => (n.transports i).pollSet c rng
  | _ => []

/-- Each time a bundle for a polled address was stored that has lapsed by now, it was
taken since, or a sweep ran since at or past its expiry. -/
def SweptInTime (c : Crates) (n : MeshNode) (label : NodeLabel) : Prop :=
  ∀ since hash b older, n.ledger = since ++ .stored hash b :: older →
    b.address ∈ n.polls c label → b.expiryMs ≤ n.nowMs → ∃ e ∈ since, e.clears hash b

/-- The ledger tells what is stored. -/
structure Inv (c : Crates) (cfg : RelayConfig) (n : MeshNode) : Prop where
  accounted : RelayStore.Accounted c cfg n.agent.store
  stored : ∀ h b, n.agent.store.byHash.lookup h = some b ↔
    Ledger.Remains StoreEvent.puts StoreEvent.clears h b n.ledger

section Ledger

variable {s s' : RelayStore} {hash : BundleHash} {b : StoredBundle}

lemma mem_arrivals {e : StoreEvent} : e ∈ arrivals s s' ↔
    ∃ h b, e = .stored h b ∧ s.byHash.lookup h = none ∧ s'.byHash.lookup h = some b := by
  unfold arrivals
  rw [List.mem_map]
  constructor
  · rintro ⟨⟨h, b⟩, hmem, rfl⟩
    rw [List.mem_filter, Option.isNone_iff_eq_none] at hmem
    exact ⟨h, b, rfl, hmem.2, AList.mem_lookup_iff.mpr hmem.1⟩
  · rintro ⟨h, b, rfl, hnone, hb⟩
    refine ⟨⟨h, b⟩, ?_, rfl⟩
    rw [List.mem_filter, Option.isNone_iff_eq_none]
    exact ⟨AList.mem_lookup_iff.mp hb, hnone⟩

/-- A step that removes nothing is described by the arrivals. -/
lemma remains_arrivals (hkeeps : RelayStore.Keeps s s') {ledger : List StoreEvent}
    (hstored : s.byHash.lookup hash = some b ↔
      Ledger.Remains StoreEvent.puts StoreEvent.clears hash b ledger) :
    s'.byHash.lookup hash = some b ↔
      Ledger.Remains StoreEvent.puts StoreEvent.clears hash b (arrivals s s' ++ ledger) := by
  have hclears : ∀ e ∈ arrivals s s', ¬e.clears hash b := by
    intro e he
    obtain ⟨h, b', rfl, -, -⟩ := mem_arrivals.mp he
    exact id
  rw [Ledger.remains_append ledger hclears, ← hstored]
  constructor
  · intro hb
    cases hold : s.byHash.lookup hash with
    | none => exact Or.inl ⟨.stored hash b, mem_arrivals.mpr ⟨hash, b, rfl, hold, hb⟩, rfl⟩
    | some b' =>
      have hb' := hkeeps hash b' hold
      rw [hb] at hb'
      exact Or.inr hb'.symm
  · rintro (⟨e, he, hput⟩ | hold)
    · obtain ⟨h, b', rfl, -, hb'⟩ := mem_arrivals.mp he
      cases hput
      exact hb'
    · exact hkeeps hash b hold

/-- A step that removes what an event clears is described by the event. -/
lemma remains_clears {e : StoreEvent} (hputs : ¬e.puts hash b)
    (hlookup : s'.byHash.lookup hash = some b ↔ s.byHash.lookup hash = some b ∧ ¬e.clears hash b)
    {ledger : List StoreEvent} (hstored : s.byHash.lookup hash = some b ↔
      Ledger.Remains StoreEvent.puts StoreEvent.clears hash b ledger) :
    s'.byHash.lookup hash = some b ↔
      Ledger.Remains StoreEvent.puts StoreEvent.clears hash b (e :: ledger) := by
  rw [hlookup, Ledger.remains_cons, hstored]
  simp [hputs, and_comm]

end Ledger

section Steps

variable {c : Crates} {cfg : RelayConfig}

/-- The events of a step of the relay agent describe what it does to the store. -/
lemma remains_events (a : Agent) (label : AgentLabel) {hash : BundleHash} {b : StoredBundle}
    {ledger : List StoreEvent} (hstored : a.store.byHash.lookup hash = some b ↔
      Ledger.Remains StoreEvent.puts StoreEvent.clears hash b ledger) :
    (agentStep c cfg a label).store.byHash.lookup hash = some b ↔
      Ledger.Remains StoreEvent.puts StoreEvent.clears hash b
        (a.events label (agentStep c cfg a label).store ++ ledger) := by
  by_cases htake : ∃ order addresses, label = .take order addresses
  · obtain ⟨order, addresses, rfl⟩ := htake
    have hputs : ¬(StoreEvent.taken addresses).puts hash b := nofun
    exact remains_clears hputs RelayStore.lookup_takeForAddresses hstored
  have hnotake : ∀ order addresses, label ≠ .take order addresses :=
    fun order addresses h => htake ⟨order, addresses, h⟩
  have hevents : ∀ after, a.events label after =
      match a.sweepsAt label with
      | some nowMs => [.swept nowMs]
      | none => arrivals a.store after := by
    intro after
    cases label with
    | take order addresses => exact absurd rfl (hnotake order addresses)
    | _ => rfl
  rw [hevents]
  cases hsweep : a.sweepsAt label with
  | some nowMs =>
    obtain ⟨order, hstore⟩ := agentStep_of_sweepsAt c cfg hsweep
    have hputs : ¬(StoreEvent.swept nowMs).puts hash b := nofun
    have hlookup : (agentStep c cfg a label).store.byHash.lookup hash = some b ↔
        a.store.byHash.lookup hash = some b ∧ ¬(StoreEvent.swept nowMs).clears hash b := by
      rw [hstore, RelayStore.lookup_sweepExpired]
      simp only [StoreEvent.clears, UInt64.not_le]
    exact remains_clears hputs hlookup hstored
  | none =>
    have hkeeps : RelayStore.Keeps a.store (agentStep c cfg a label).store := by
      intro h b hb
      refine agentStep_lookup a label hb hnotake fun nowMs hnow => ?_
      rw [hsweep] at hnow
      cases hnow
    exact remains_arrivals hkeeps hstored

lemma inv_start (transports : ℕ → MeshTransport) : Inv c cfg { transports := transports } where
  accounted := RelayStore.accounted_empty
  stored h b := by simp [Ledger.Remains]

theorem inv_step (n : MeshNode) (label : NodeLabel) (hn : Inv c cfg n) :
    Inv c cfg (n.step c cfg label) := by
  cases label with
  | tick nowMs => exact ⟨hn.accounted, hn.stored⟩
  | relay label =>
    constructor
    · exact agentStep_accounted _ _ hn.accounted
    · intro h b
      exact remains_events n.agent (label.readAt n.nowMs) (hn.stored h b)
  | send i wrapMs envelope =>
    change Inv c cfg (n.sendStep c cfg i wrapMs envelope)
    unfold sendStep
    cases hsend : (n.transports i).send c cfg wrapMs n.nowMs n.agent.store envelope with
    | error e => exact hn
    | ok result =>
      obtain ⟨t, s⟩ := result
      obtain ⟨-, bytes, -, -, had, -⟩ := MeshTransport.send_cases hsend
      constructor
      · exact hn.accounted.admitChecked had
      · intro h b
        have hkeeps : RelayStore.Keeps n.agent.store s :=
          fun _ _ hb => RelayStore.admitChecked_keeps had hb
        exact remains_arrivals hkeeps (hn.stored h b)
  | receive i rng order =>
    constructor
    · exact hn.accounted.removeAll _
    · intro h b
      have hputs : ¬(StoreEvent.taken ((n.transports i).pollSet c rng)).puts h b := nofun
      exact remains_clears hputs RelayStore.lookup_takeForAddresses (hn.stored h b)

end Steps

section Delivery

variable {c : Crates} {cfg : RelayConfig} {n : MeshNode} (hn : Inv c cfg n)

include hn

/-- A take returns nothing lapsed exactly when nothing lapsed is stored for it. -/
lemma taken_fresh_iff (order : IterOrder) (addresses : List Address) :
    (∀ bytes ∈ (n.agent.store.takeForAddresses order addresses).2, ¬Lapsed c n.nowMs bytes) ↔
      ∀ h b, n.agent.store.byHash.lookup h = some b → b.address ∈ addresses →
        ¬b.expiryMs ≤ n.nowMs := by
  constructor
  · intro h hash b hb haddr hle
    have htaken : b.bytes ∈ (n.agent.store.takeForAddresses order addresses).2 :=
      RelayStore.mem_taken.mpr ⟨hash, b, hb, rfl, haddr⟩
    exact h b.bytes htaken ⟨b.expiryMs, (hn.accounted.decoded hash b hb).expiry, hle⟩
  · rintro h bytes hmem ⟨expiry, hexp, hle⟩
    obtain ⟨hash, b, hb, rfl, haddr⟩ := RelayStore.mem_taken.mp hmem
    rw [(hn.accounted.decoded hash b hb).expiry, Except.ok.injEq] at hexp
    rw [← hexp] at hle
    exact h hash b hb haddr hle

lemma sweptInTime_iff (label : NodeLabel) :
    n.SweptInTime c label ↔
      ∀ h b, n.agent.store.byHash.lookup h = some b → b.address ∈ n.polls c label →
        ¬b.expiryMs ≤ n.nowMs := by
  constructor
  · intro h hash b hb haddr hle
    rw [hn.stored, Ledger.remains_iff] at hb
    obtain ⟨since, e, older, heq, rfl, hsince⟩ := hb
    obtain ⟨e, he, hclears⟩ := h since hash b older heq haddr hle
    exact hsince e he hclears
  · intro h since hash b older heq haddr hle
    by_contra hnone
    have hsince : ∀ e ∈ since, ¬e.clears hash b := fun e he hclears => hnone ⟨e, he, hclears⟩
    have hb : n.agent.store.byHash.lookup hash = some b := by
      rw [hn.stored, Ledger.remains_iff]
      exact ⟨since, .stored hash b, older, heq, rfl, hsince⟩
    exact h hash b hb haddr hle

lemma deliversFresh_iff (label : NodeLabel) : n.DeliversFresh c label ↔ n.SweptInTime c label := by
  rw [sweptInTime_iff hn]
  cases label with
  | relay label =>
    cases label with
    | take order addresses => exact taken_fresh_iff hn order addresses
    | _ => simp [DeliversFresh, polls]
  | receive i rng order =>
    rw [DeliversFresh, taken_fresh_iff hn]
    refine and_iff_left_of_imp fun h claim hclaim => ?_
    exact (taken_fresh_iff hn order _).mpr h _ (MeshTransport.bytes_mem_of_mem_claims hclaim)
  | _ => simp [DeliversFresh, polls]

end Delivery

/-- A node delivers nothing that has lapsed exactly when, before every take and receive,
the lapsed bundles for its addresses were swept or taken after they were last stored. -/
theorem everyStep_deliversFresh_iff (c : Crates) (cfg : RelayConfig)
    (transports : ℕ → MeshTransport) (labels : List NodeLabel) :
    Machine.EveryStep (step c cfg) (DeliversFresh c) { transports := transports } labels ↔
      Machine.EveryStep (step c cfg) (SweptInTime c) { transports := transports } labels :=
  Machine.everyStep_congr inv_step (fun _ label hn => deliversFresh_iff hn label)
    (inv_start transports) labels

/-- A bundle that is admitted in time and polled for when its lifetime is over. -/
def lateReceiveRun : List NodeLabel :=
  [.tick 2000, .relay (.admitBundle 0 (Channel.sampleBundle 0)), .tick 604801000,
    .receive 0 samplePollRng .insertion]

theorem not_everyStep_deliversFresh_late :
    ¬Machine.EveryStep (step localCrates {}) (DeliversFresh localCrates)
      { transports := fun _ => { tagKey := Channel.sampleTagKey } } lateReceiveRun := by
  decide +kernel

end MeshNode

end Parda.Mesh
