import Parda.Mesh.Accounting
import Parda.Mesh.PairedSync
import Parda.Mesh.Radio

/-!
# Nodes on one air

Model of `MeshNode` of `mesh/src/transport.rs` over the radio of
`mesh/src/radio/simulated.rs`, with the controls of `SimHarness` of `mesh/src/sim.rs`.
Node `i` has device `i` and store `i`. A link is opened by a pass of `sync_once` at its
dialer and taken up by the accept loop of its target, and its two sessions run on the two
stores, one locked section, send or receive at a time, between all other steps.
-/

namespace Parda.Mesh

open Protocol Machine

/-- A session on a link, and the channel towards it. -/
structure LinkEnd where
  pc : SyncPc := .sweep
  inbox : List Bytes := []
  dropped : Bool := false

structure SimLink where
  dialer : ℕ
  target : ℕ
  accepted : Bool := false
  near : LinkEnd := {}
  far : LinkEnd := {}

namespace SimLink

/-- The dialer is on side `a`. -/
def node (link : SimLink) : Side → ℕ
  | .a => link.dialer
  | .b => link.target

def side (link : SimLink) : Side → LinkEnd
  | .a => link.near
  | .b => link.far

/-- The link with the ends of `pair`, whose stores are elsewhere. -/
def save (link : SimLink) (pair : SyncPair) : SimLink :=
  { link with
    near := ⟨(pair .a).pc, (pair .a).inbox, (pair .a).dropped⟩
    far := ⟨(pair .b).pc, (pair .b).inbox, (pair .b).dropped⟩ }

end SimLink

/-- A call of `sync_once`: the sightings it has not come to, and the link of the session
that it waits for. -/
structure Pass where
  node : ℕ
  rest : List PeerSighting
  link : Option ℕ := none
  totalAdmitted : ℕ := 0

def Pass.returned (pass : Pass) : Bool := pass.rest.isEmpty && pass.link.isNone

structure MeshNet where
  network : SimNetwork := {}
  stores : List RelayStore := []
  links : List SimLink := []
  passes : List Pass := []

inductive NetLabel where
  | register (fresh : AdvertToken)
  | sever (a b : ℕ)
  | heal (a b : ℕ)
  | setOnline (device : ℕ) (online : Bool)
  | advertise (device : ℕ) (token : AdvertToken)
  | admitBundle (node : ℕ) (nowMs : UInt64) (bytes : Bytes)
  | take (node : ℕ) (order : IterOrder) (addresses : List Address)
  | sweep (node : ℕ) (order : IterOrder) (nowMs : UInt64)
  | scan (node : ℕ) (order : ScanOrder)
  | dial (pass : ℕ)
  | accept (node : ℕ)
  | advance (link : ℕ) (x : Side) (nowMs : UInt64) (order : IterOrder)
  /-- `sync_with_peer` has returned to the pass. -/
  | settle (pass : ℕ)
  /-- `sync_with_peer` has returned to the task of the accept loop. -/
  | hangUp (link : ℕ)

/-- The steps that leave the devices, their power and the severed pairs alone. -/
def NetLabel.staysPut : NetLabel → Bool
  | .register _ | .sever _ _ | .heal _ _ | .setOnline _ _ => false
  | _ => true

namespace MeshNet

def store (w : MeshNet) (node : ℕ) : RelayStore := (w.stores[node]?).getD {}

def setStore (w : MeshNet) (node : ℕ) (s : RelayStore) : MeshNet :=
  { w with stores := w.stores.set node s }

/-- The two sessions of a link over the stores they run on. -/
def pair (w : MeshNet) (link : SimLink) : SyncPair := fun x =>
  ⟨w.store (link.node x), (link.side x).pc, (link.side x).inbox, (link.side x).dropped⟩

/-- A device's own operation on its store. -/
def onStore (w : MeshNet) (node : ℕ) (f : RelayStore → RelayStore) : MeshNet :=
  w.setStore node (f (w.store node))

section Step

variable (c : Crates) (cfg : ℕ → RelayConfig) (json : SyncJson)

def onLink (w : MeshNet) (k : ℕ) (label : PairLabel) : MeshNet :=
  match w.links[k]? with
  | none => w
  | some link =>
    let pair := (w.pair link).step c (cfg ∘ link.node) json label
    { (w.setStore link.dialer (pair .a).store).setStore link.target (pair .b).store with
      links := w.links.set k (link.save pair) }

/-- `sync_once` comes to its next sighting. -/
def dial (w : MeshNet) (p : ℕ) (pass : Pass) : MeshNet :=
  match pass.rest with
  | [] => w
  | sighting :: rest =>
    match w.network.connect pass.node sighting.handle w.links.length, sighting.handle with
    | .ok network, .simulated target =>
      { w with
        network := network
        links := w.links ++ [{ dialer := pass.node, target := target }]
        passes := w.passes.set p { pass with rest := rest, link := some w.links.length } }
    | _, _ => { w with passes := w.passes.set p { pass with rest := rest } }

/-- `sync_once` goes on after a session, whatever came of it. -/
def settle (w : MeshNet) (p : ℕ) (pass : Pass) (k : ℕ) : MeshNet :=
  match (w.links[k]?).map fun link : SimLink => link.near.pc with
  | some (SyncPc.finished result) =>
    let admitted := match result with
      | .ok admitted => admitted
      | .error _ => 0
    let pass := { pass with link := none, totalAdmitted := pass.totalAdmitted + admitted }
    { w.onLink c cfg json k (.drop .a) with passes := w.passes.set p pass }
  | _ => w

def step (w : MeshNet) : NetLabel → MeshNet
  | .register fresh => { w with network := w.network.register fresh, stores := w.stores ++ [{}] }
  | .sever a b => { w with network := w.network.sever a b }
  | .heal a b => { w with network := w.network.heal a b }
  | .setOnline device online => { w with network := w.network.setOnline device online }
  | .advertise device token =>
    match w.network.advertise device token with
    | .ok network => { w with network }
    | .error _ => w
  | .admitBundle node nowMs bytes =>
    w.onStore node fun s => ((s.admitBundle c (cfg node) nowMs bytes).toOption).getD s
  | .take node order addresses => w.onStore node fun s => (s.takeForAddresses order addresses).1
  | .sweep node order nowMs => w.onStore node fun s => s.sweepExpired order nowMs
  | .scan node order =>
    if node < w.stores.length then
      { w with passes := w.passes ++ [{ node, rest := w.network.scan order node }] }
    else w
  | .dial p =>
    match w.passes[p]? with
    | some pass => if pass.link.isNone then w.dial p pass else w
    | none => w
  | .accept node =>
    match w.network.accept node with
    | some (k, network) =>
      { w with network, links := w.links.modify k fun link => { link with accepted := true } }
    | none => w
  | .advance k x nowMs order =>
    if x = .b ∧ ((w.links[k]?).map SimLink.accepted) ≠ some true then w
    else w.onLink c cfg json k (.advance x nowMs order)
  | .settle p =>
    match (w.passes[p]?).bind fun pass => pass.link.map (pass, ·) with
    | some (pass, k) => w.settle c cfg json p pass k
    | none => w
  | .hangUp k => w.onLink c cfg json k (.drop .b)

end Step

/-- Every link joins two registered devices, its queues fit its sessions, and a pass waits
for a link that it has dialed. -/
structure Wired (json : SyncJson) (w : MeshNet) : Prop where
  registered : w.stores.length = w.network.devices.length
  advertised : w.network.Advertised
  apart : ∀ link ∈ w.links, link.dialer ≠ link.target
  known : ∀ link ∈ w.links, ∀ x, link.node x < w.stores.length
  ordered : ∀ link ∈ w.links, (w.pair link).Ordered json
  dialed : ∀ pass ∈ w.passes, ∀ k, pass.link = some k →
    ∃ link, w.links[k]? = some link ∧ link.dialer = pass.node

section Stores

variable {w : MeshNet} {node i : ℕ} {s : RelayStore}

lemma store_setStore : (w.setStore node s).store i =
    if i = node ∧ node < w.stores.length then s else w.store i := by
  unfold store setStore
  rw [List.getElem?_set]
  by_cases hi : node = i
  · subst hi
    by_cases hlt : node < w.stores.length
    · simp [hlt]
    · simp [hlt]
  · simp [hi, Ne.symm hi]

lemma store_of_stores {w' : MeshNet} (h : w'.stores = w.stores) (i : ℕ) : w'.store i = w.store i := by
  unfold store
  rw [h]

lemma store_registered (i : ℕ) :
    (({ w with stores := w.stores ++ [{}] } : MeshNet)).store i = w.store i := by
  unfold store
  rw [List.getElem?_append]
  split_ifs with hlt
  · rfl
  · rw [List.getElem?_eq_none (Nat.le_of_not_lt hlt)]
    rcases Nat.eq_zero_or_pos (i - w.stores.length) with hzero | hpos
    · simp [hzero]
    · rw [List.getElem?_eq_none (by rw [List.length_singleton]; omega)]

end Stores

section Links

variable {c : Crates} {cfg : ℕ → RelayConfig} {json : SyncJson} {w w' : MeshNet} {k : ℕ}
  {link : SimLink} {label : PairLabel}

lemma onLink_of_some (h : w.links[k]? = some link) : w.onLink c cfg json k label =
    let pair := (w.pair link).step c (cfg ∘ link.node) json label
    { (w.setStore link.dialer (pair .a).store).setStore link.target (pair .b).store with
      links := w.links.set k (link.save pair) } := by
  unfold onLink
  rw [h]

@[simp] lemma node_save (pair : SyncPair) : (link.save pair).node = link.node := by
  funext x
  cases x <;> rfl

lemma pair_save {pair : SyncPair} (h : ∀ x, w'.store (link.node x) = (pair x).store) :
    w'.pair (link.save pair) = pair := by
  funext x
  unfold MeshNet.pair
  rw [node_save, h]
  cases x <;> rfl

/-- The order of a link's traffic has nothing to do with the stores. -/
lemma ordered_pair (w' : MeshNet) (h : (w.pair link).Ordered json) : (w'.pair link).Ordered json :=
  fun x => ⟨(h x).decodes, (h x).carries, (h x).dropped, (h x).fine⟩

lemma Wired.of_getElem? (h : Wired json w) (hk : w.links[k]? = some link) :
    link.dialer ≠ link.target ∧ (∀ x, link.node x < w.stores.length) ∧
      (w.pair link).Ordered json := by
  have hmem := List.mem_of_getElem? hk
  exact ⟨h.apart link hmem, h.known link hmem, h.ordered link hmem⟩

@[simp] lemma length_stores_onLink :
    (w.onLink c cfg json k label).stores.length = w.stores.length := by
  unfold onLink
  cases w.links[k]? with
  | none => rfl
  | some link => simp [setStore]

@[simp] lemma network_onLink : (w.onLink c cfg json k label).network = w.network := by
  unfold onLink
  cases w.links[k]? with
  | _ => rfl

@[simp] lemma passes_onLink : (w.onLink c cfg json k label).passes = w.passes := by
  unfold onLink
  cases w.links[k]? with
  | _ => rfl

/-- A link's step leaves the two stores of its pair, and every other store alone. -/
lemma store_onLink (c : Crates) (cfg : ℕ → RelayConfig) (label : PairLabel) (h : Wired json w)
    (hk : w.links[k]? = some link) :
    (∀ x, (w.onLink c cfg json k label).store (link.node x) =
      ((w.pair link).step c (cfg ∘ link.node) json label x).store) ∧
    ∀ i, (∀ x, i ≠ link.node x) → (w.onLink c cfg json k label).store i = w.store i := by
  obtain ⟨hapart, hknown, -⟩ := h.of_getElem? hk
  have hdialer := hknown .a
  have htarget := hknown .b
  have hlength : (w.setStore link.dialer
      ((w.pair link).step c (cfg ∘ link.node) json label .a).store).stores.length =
      w.stores.length := by simp [setStore]
  have hstore : ∀ i, (w.onLink c cfg json k label).store i =
      if i = link.target then ((w.pair link).step c (cfg ∘ link.node) json label .b).store
      else if i = link.dialer then ((w.pair link).step c (cfg ∘ link.node) json label .a).store
      else w.store i := by
    intro i
    rw [onLink_of_some hk]
    change ((w.setStore link.dialer _).setStore link.target _).store i = _
    rw [store_setStore, store_setStore, hlength]
    simp only [show link.target < w.stores.length from htarget,
      show link.dialer < w.stores.length from hdialer, and_true]
  constructor
  · intro x
    rw [hstore]
    cases x with
    | a => simp [SimLink.node, hapart]
    | b => simp [SimLink.node]
  · intro i hi
    have hdialer' : i ≠ link.dialer := hi .a
    have htarget' : i ≠ link.target := hi .b
    rw [hstore, if_neg htarget', if_neg hdialer']

/-- A link's step is a step of its pair. -/
lemma pair_onLink (c : Crates) (cfg : ℕ → RelayConfig) (label : PairLabel) (h : Wired json w)
    (hk : w.links[k]? = some link) :
    (w.onLink c cfg json k label).links[k]? =
        some (link.save ((w.pair link).step c (cfg ∘ link.node) json label)) ∧
      (w.onLink c cfg json k label).pair
        (link.save ((w.pair link).step c (cfg ∘ link.node) json label)) =
        (w.pair link).step c (cfg ∘ link.node) json label := by
  refine ⟨?_, pair_save (store_onLink c cfg label h hk).1⟩
  have hlt : k < w.links.length := (List.getElem?_eq_some_iff.mp hk).1
  rw [onLink_of_some hk]
  simp [hlt]

lemma wired_onLink (hjson : json.RoundTrip) (h : Wired json w) :
    Wired json (w.onLink c cfg json k label) := by
  cases hk : w.links[k]? with
  | none =>
    have hsame : w.onLink c cfg json k label = w := by
      unfold onLink
      rw [hk]
    rwa [hsame]
  | some link =>
    obtain ⟨hapart, hknown, hordered⟩ := h.of_getElem? hk
    have hlinks : (w.onLink c cfg json k label).links =
        w.links.set k (link.save ((w.pair link).step c (cfg ∘ link.node) json label)) := by
      rw [onLink_of_some hk]
    have hcases : ∀ link' ∈ (w.onLink c cfg json k label).links, link' ∈ w.links ∨
        link' = link.save ((w.pair link).step c (cfg ∘ link.node) json label) := by
      intro link' hmem
      rw [hlinks] at hmem
      exact List.mem_or_eq_of_mem_set hmem
    constructor
    · rw [length_stores_onLink, network_onLink]
      exact h.registered
    · rw [network_onLink]
      exact h.advertised
    · intro link' hmem
      rcases hcases link' hmem with hold | rfl
      · exact h.apart link' hold
      · exact hapart
    · intro link' hmem x
      rw [length_stores_onLink]
      rcases hcases link' hmem with hold | rfl
      · exact h.known link' hold x
      · rw [node_save]
        exact hknown x
    · intro link' hmem
      rcases hcases link' hmem with hold | rfl
      · exact ordered_pair _ (h.ordered link' hold)
      · rw [(pair_onLink c cfg label h hk).2]
        exact SyncPair.ordered_step hjson hordered label
    · intro pass hpass j hj
      rw [passes_onLink] at hpass
      obtain ⟨link', hlink', hdialer⟩ := h.dialed pass hpass j hj
      by_cases hjk : j = k
      · subst hjk
        rw [hk, Option.some.injEq] at hlink'
        subst hlink'
        exact ⟨_, (pair_onLink c cfg label h hk).1, hdialer⟩
      · refine ⟨link', ?_, hdialer⟩
        rw [hlinks, List.getElem?_set_ne (Ne.symm hjk)]
        exact hlink'

end Links

section Wiring

variable {c : Crates} {cfg : ℕ → RelayConfig} {json : SyncJson} {w w' : MeshNet}

lemma wired_start : Wired json {} where
  registered := rfl
  advertised state hmem := by cases hmem
  apart link hmem := by cases hmem
  known link hmem := by cases hmem
  ordered link hmem := by cases hmem
  dialed pass hmem := by cases hmem

/-- What is wired stays so when links and passes are left alone. -/
lemma Wired.congr (h : Wired json w) (hregistered : w'.stores.length = w'.network.devices.length)
    (hadvertised : w'.network.Advertised) (hstores : w.stores.length ≤ w'.stores.length)
    (hlinks : w'.links = w.links) (hpasses : w'.passes = w.passes) : Wired json w' := by
  refine ⟨hregistered, hadvertised, ?_, ?_, ?_, ?_⟩
  · rw [hlinks]
    exact h.apart
  · rw [hlinks]
    exact fun link hmem x => (h.known link hmem x).trans_le hstores
  · rw [hlinks]
    exact fun link hmem => ordered_pair w' (h.ordered link hmem)
  · rw [hlinks, hpasses]
    exact h.dialed

lemma Wired.onStore (h : Wired json w) (node : ℕ) (f : RelayStore → RelayStore) :
    Wired json (w.onStore node f) := by
  apply h.congr
  · simpa [MeshNet.onStore, setStore] using h.registered
  · exact h.advertised
  · simp [MeshNet.onStore, setStore]
  · rfl
  · rfl

/-- A pass is replaced by one that waits for nothing, or for a link it has dialed. -/
lemma Wired.setPass (h : Wired json w) (p : ℕ) (pass : Pass)
    (hlink : ∀ k, pass.link = some k → ∃ link, w.links[k]? = some link ∧ link.dialer = pass.node) :
    Wired json { w with passes := w.passes.set p pass } := by
  refine ⟨h.registered, h.advertised, h.apart, h.known,
    fun link hmem => ordered_pair _ (h.ordered link hmem), ?_⟩
  intro pass' hmem k hk
  rcases List.mem_or_eq_of_mem_set hmem with hold | rfl
  · exact h.dialed pass' hold k hk
  · exact hlink k hk

/-- A link of which neither session has begun. -/
lemma pair_fresh (w : MeshNet) (dialer target : ℕ) : w.pair { dialer, target } =
    SyncPair.start (fun x => w.store (SimLink.node { dialer, target } x)) := by
  funext x
  cases x <;> rfl

/-- A new link. -/
lemma Wired.opened (h : Wired json w) (pass : Pass) {network : SimNetwork} {target p : ℕ}
    (hlength : network.devices.length = w.network.devices.length)
    (hadvertised : network.Advertised) (hne : pass.node ≠ target)
    (hnode : pass.node < w.stores.length) (htarget : target < w.stores.length)
    (hlink : pass.link = some w.links.length) :
    Wired json { w with
      network := network
      links := w.links ++ [{ dialer := pass.node, target := target }]
      passes := w.passes.set p pass } := by
  have hcases : ∀ link ∈ w.links ++ [{ dialer := pass.node, target := target }],
      link ∈ w.links ∨ link = { dialer := pass.node, target := target } := by
    intro link hmem
    rwa [List.mem_append, List.mem_singleton] at hmem
  constructor
  · exact h.registered.trans hlength.symm
  · exact hadvertised
  · intro link hmem
    rcases hcases link hmem with hold | rfl
    · exact h.apart link hold
    · exact hne
  · intro link hmem x
    rcases hcases link hmem with hold | rfl
    · exact h.known link hold x
    · cases x with
      | a => exact hnode
      | b => exact htarget
  · intro link hmem
    rcases hcases link hmem with hold | rfl
    · exact ordered_pair _ (h.ordered link hold)
    · rw [pair_fresh]
      exact SyncPair.ordered_start _
  · intro pass' hmem k hk
    rcases List.mem_or_eq_of_mem_set hmem with hold | rfl
    · obtain ⟨link, hget, hdialer⟩ := h.dialed pass' hold k hk
      refine ⟨link, ?_, hdialer⟩
      rw [List.getElem?_append_left (List.getElem?_eq_some_iff.mp hget).1]
      exact hget
    · rw [hlink, Option.some.injEq] at hk
      subst hk
      exact ⟨{ dialer := pass'.node, target := target }, by simp, rfl⟩

/-- What coming to the next sighting can do: there is none, its device is not reached, or
a link is opened to it. -/
lemma dial_cases (w : MeshNet) (p : ℕ) (pass : Pass) :
    (pass.rest = [] ∧ w.dial p pass = w) ∨
    (∃ sighting rest, pass.rest = sighting :: rest ∧
      (∀ target, sighting.handle = .simulated target →
        w.network.reachable pass.node target = false) ∧
      w.dial p pass = { w with passes := w.passes.set p { pass with rest := rest } }) ∨
    ∃ target token rest state, pass.rest = ⟨.simulated target, token⟩ :: rest ∧
      w.network.reachable pass.node target = true ∧ w.network.devices[target]? = some state ∧
      w.dial p pass = { w with
        network := w.network.setDevice target
          { state with acceptQueue := state.acceptQueue ++ [w.links.length] }
        links := w.links ++ [{ dialer := pass.node, target := target }]
        passes := w.passes.set p { pass with rest := rest, link := some w.links.length } } := by
  cases hrest : pass.rest with
  | nil =>
    left
    exact ⟨rfl, by simp [dial, hrest]⟩
  | cons sighting rest =>
    right
    obtain ⟨handle, token⟩ := sighting
    cases hconnect : w.network.connect pass.node handle w.links.length with
    | error e =>
      left
      refine ⟨⟨handle, token⟩, rest, rfl, ?_, by simp [dial, hrest, hconnect]⟩
      rintro target rfl
      rw [← Bool.not_eq_true, ← SimNetwork.connect_isOk_iff w.links.length]
      rintro ⟨network, hok⟩
      rw [hok] at hconnect
      cases hconnect
    | ok network =>
      right
      obtain ⟨target, state, rfl, hreach, hstate, rfl⟩ := SimNetwork.connect_cases hconnect
      exact ⟨target, token, rest, state, rfl, hreach, hstate, by simp [dial, hrest, hconnect]⟩

lemma Wired.dial (h : Wired json w) {p : ℕ} {pass : Pass} (hpass : pass.link = none) :
    Wired json (w.dial p pass) := by
  rcases w.dial_cases p pass with
    ⟨-, hdial⟩ | ⟨_, rest, -, -, hdial⟩ | ⟨target, _, rest, state, -, hreach, hstate, hdial⟩
  · rwa [hdial]
  · rw [hdial]
    apply h.setPass p
    intro k hk
    rw [hpass] at hk
    cases hk
  · obtain ⟨hne, hnode, htarget, -⟩ := SimNetwork.reachable_iff.mp hreach
    have hnode' := SimNetwork.lt_of_isOnline hnode
    have htarget' := SimNetwork.lt_of_isOnline htarget
    rw [← h.registered] at hnode' htarget'
    have hstate' := h.advertised.of_getElem? hstate
    rw [hdial]
    exact h.opened { pass with rest := rest, link := some w.links.length }
      SimNetwork.length_setDevice (h.advertised.setDevice hstate') hne hnode' htarget' rfl

/-- What the accept loop can do: wait, or take up the link at the head of its queue. -/
lemma accept_cases (c : Crates) (cfg : ℕ → RelayConfig) (json : SyncJson) (w : MeshNet) (node : ℕ) :
    w.step c cfg json (.accept node) = w ∨
    ∃ k state rest, w.network.devices[node]? = some state ∧ state.acceptQueue = k :: rest ∧
      w.step c cfg json (.accept node) = { w with
        network := w.network.setDevice node { state with acceptQueue := rest }
        links := w.links.modify k fun link => { link with accepted := true } } := by
  cases haccept : w.network.accept node with
  | none =>
    left
    simp [step, haccept]
  | some next =>
    right
    obtain ⟨k, network⟩ := next
    obtain ⟨state, rest, hstate, hqueue, rfl⟩ := SimNetwork.accept_cases haccept
    exact ⟨k, state, rest, hstate, hqueue, by simp [step, haccept]⟩

/-- Taking a link up changes neither its devices nor its sessions. -/
lemma getElem?_accepted {links : List SimLink} {k j : ℕ} {link : SimLink}
    (h : (links.modify k fun link => { link with accepted := true })[j]? = some link) :
    ∃ old, links[j]? = some old ∧ link.node = old.node ∧ link.side = old.side := by
  rw [List.getElem?_modify] at h
  obtain ⟨old, hold, rfl⟩ := Option.map_eq_some_iff.mp h
  refine ⟨old, hold, ?_⟩
  split_ifs with hk
  · exact ⟨rfl, rfl⟩
  · exact ⟨rfl, rfl⟩

lemma Wired.accept (h : Wired json w) (node : ℕ) :
    Wired json (w.step c cfg json (.accept node)) := by
  rcases w.accept_cases c cfg json node with
    hstep | ⟨k, state, rest, hstate, -, hstep⟩
  · rwa [hstep]
  · rw [hstep]
    have hcases : ∀ link ∈ w.links.modify k fun link => { link with accepted := true },
        ∃ old ∈ w.links, link.node = old.node ∧ link.side = old.side := by
      intro link hmem
      obtain ⟨j, hj⟩ := List.mem_iff_getElem?.mp hmem
      obtain ⟨old, hold, hnode, hside⟩ := getElem?_accepted hj
      exact ⟨old, List.mem_of_getElem? hold, hnode, hside⟩
    constructor
    · simpa using h.registered
    · have hstate' := h.advertised.of_getElem? hstate
      exact h.advertised.setDevice hstate'
    · intro link hmem
      obtain ⟨old, hold, hnode, -⟩ := hcases link hmem
      change link.node .a ≠ link.node .b
      rw [hnode]
      exact h.apart old hold
    · intro link hmem x
      obtain ⟨old, hold, hnode, -⟩ := hcases link hmem
      rw [hnode]
      exact h.known old hold x
    · intro link hmem
      obtain ⟨old, hold, hnode, hside⟩ := hcases link hmem
      have hpair : ∀ w' : MeshNet, w'.pair link = w'.pair old := by
        intro w'
        unfold MeshNet.pair
        rw [hnode, hside]
      rw [hpair]
      exact ordered_pair _ (h.ordered old hold)
    · intro pass hmem j hj
      obtain ⟨link, hlink, hdialer⟩ := h.dialed pass hmem j hj
      by_cases hk : k = j
      · exact ⟨{ link with accepted := true }, by simp [hk, hlink], hdialer⟩
      · exact ⟨link, by simp [hk, hlink], hdialer⟩

/-- What going on after a session can do: nothing, while the session runs. -/
lemma settle_cases (c : Crates) (cfg : ℕ → RelayConfig) (json : SyncJson) (w : MeshNet) (p : ℕ)
    (pass : Pass) (k : ℕ) :
    w.settle c cfg json p pass k = w ∨
    ∃ link totalAdmitted, w.links[k]? = some link ∧ link.near.pc.isFinished = true ∧
      w.settle c cfg json p pass k = { w.onLink c cfg json k (.drop .a) with
        passes := w.passes.set p { pass with link := none, totalAdmitted := totalAdmitted } } := by
  cases hlink : w.links[k]? with
  | none =>
    left
    simp [settle, hlink]
  | some link =>
    cases hpc : link.near.pc with
    | finished result =>
      right
      cases result with
      | ok admitted =>
        exact ⟨link, pass.totalAdmitted + admitted, rfl, by rw [hpc]; rfl,
          by simp [settle, hlink, hpc]⟩
      | error e =>
        exact ⟨link, pass.totalAdmitted, rfl, by rw [hpc]; rfl, by simp [settle, hlink, hpc]⟩
    | _ =>
      left
      simp [settle, hlink, hpc]

lemma Wired.settle (hjson : json.RoundTrip) (h : Wired json w) (p : ℕ) (pass : Pass) (k : ℕ) :
    Wired json (w.settle c cfg json p pass k) := by
  rcases w.settle_cases c cfg json p pass k with
    hsettle | ⟨link, totalAdmitted, -, -, hsettle⟩
  · rwa [hsettle]
  · have hrun : Wired json (w.onLink c cfg json k (.drop .a)) := wired_onLink hjson h
    have hset := hrun.setPass p { pass with link := none, totalAdmitted } nofun
    rw [hsettle]
    rwa [passes_onLink] at hset

theorem wired_step (hjson : json.RoundTrip) (h : Wired json w) (label : NetLabel) :
    Wired json (w.step c cfg json label) := by
  cases label with
  | register fresh =>
    apply h.congr
    · simpa [step, SimNetwork.register] using h.registered
    · exact h.advertised.register
    · simp [step]
    · rfl
    · rfl
  | sever a b => exact h.congr h.registered h.advertised le_rfl rfl rfl
  | heal a b => exact h.congr h.registered h.advertised le_rfl rfl rfl
  | setOnline device online =>
    apply h.congr
    · simpa [step, SimNetwork.setOnline] using h.registered
    · exact h.advertised.setOnline online
    · rfl
    · rfl
    · rfl
  | advertise device token =>
    cases hadv : w.network.advertise device token with
    | error e => simpa [step, hadv] using h
    | ok network =>
      obtain ⟨state, hstate, rfl⟩ := SimNetwork.advertise_cases hadv
      simp only [step, hadv]
      apply h.congr
      · simpa using h.registered
      · exact h.advertised.setDevice rfl
      · rfl
      · rfl
      · rfl
  | admitBundle node nowMs bytes => exact h.onStore node _
  | take node order addresses =>
    exact h.onStore node fun s => (s.takeForAddresses order addresses).1
  | sweep node order nowMs => exact h.onStore node _
  | scan node order =>
    simp only [step]
    split_ifs with hnode
    · refine ⟨h.registered, h.advertised, h.apart, h.known,
        fun link hmem => ordered_pair _ (h.ordered link hmem), ?_⟩
      intro pass hmem k hk
      rcases List.mem_append.mp hmem with hold | hnew
      · exact h.dialed pass hold k hk
      · rw [List.mem_singleton.mp hnew] at hk
        cases hk
    · exact h
  | dial p =>
    cases hpass : w.passes[p]? with
    | none => simpa [step, hpass] using h
    | some pass =>
      cases hlink : pass.link with
      | some k => simpa [step, hpass, hlink] using h
      | none => simpa [step, hpass, hlink] using h.dial hlink
  | accept node => exact h.accept node
  | advance k x nowMs order =>
    simp only [step]
    split_ifs with hwaiting
    · exact h
    · exact wired_onLink hjson h
  | settle p =>
    simp only [step]
    split
    · exact h.settle hjson _ _ _
    · exact h
  | hangUp k => exact wired_onLink hjson h

/-- Every state of every run is wired. -/
theorem wired_run (c : Crates) (cfg : ℕ → RelayConfig) (hjson : json.RoundTrip) (labels : List NetLabel) :
    Wired json (run (step c cfg json) {} labels) := by
  have hstep : ∀ (w : MeshNet) label, Wired json w → Wired json (w.step c cfg json label) :=
    fun w label h => wired_step hjson h label
  exact run_invariant hstep wired_start labels

end Wiring

section Air

variable {c : Crates} {cfg : ℕ → RelayConfig} {json : SyncJson} {label : NetLabel}

/-- Only the controls of the harness change who reaches whom. -/
lemma reachable_step (w : MeshNet) (hlabel : label.staysPut = true) (a b : ℕ) :
    (w.step c cfg json label).network.reachable a b = w.network.reachable a b := by
  cases label with
  | register fresh => cases hlabel
  | sever a b => cases hlabel
  | heal a b => cases hlabel
  | setOnline device online => cases hlabel
  | advertise device token =>
    cases hadv : w.network.advertise device token with
    | error e => simp [step, hadv]
    | ok network =>
      obtain ⟨state, hstate, rfl⟩ := SimNetwork.advertise_cases hadv
      simp only [step, hadv]
      apply SimNetwork.reachable_setDevice hstate
      rfl
  | scan node order =>
    simp only [step]
    split_ifs with hnode
    · rfl
    · rfl
  | dial p =>
    simp only [step]
    split
    · split_ifs with hlink
      · rename_i pass _
        rcases w.dial_cases p pass with
          ⟨-, hdial⟩ | ⟨_, rest, -, -, hdial⟩ | ⟨target, _, rest, state, -, -, hstate, hdial⟩
        · rw [hdial]
        · rw [hdial]
        · rw [hdial]
          apply SimNetwork.reachable_setDevice hstate
          rfl
      · rfl
    · rfl
  | accept node =>
    rcases w.accept_cases c cfg json node with
      hstep | ⟨k, state, rest, hstate, -, hstep⟩
    · rw [hstep]
    · rw [hstep]
      apply SimNetwork.reachable_setDevice hstate
      rfl
  | advance k x nowMs order =>
    simp only [step]
    split_ifs with hwaiting
    · rfl
    · rw [network_onLink]
  | settle p =>
    simp only [step]
    split
    · rename_i pass k _
      rcases w.settle_cases c cfg json p pass k with
        hsettle | ⟨link, totalAdmitted, -, -, hsettle⟩
      · rw [hsettle]
      · rw [hsettle]
        change (w.onLink c cfg json k (.drop .a)).network.reachable a b = _
        rw [network_onLink]
    · rfl
  | hangUp k =>
    change (w.onLink c cfg json k (.drop .b)).network.reachable a b = _
    rw [network_onLink]
  | _ => rfl

end Air

/-- What a node's own operation makes of its store. -/
inductive OwnOp (c : Crates) (cfg : ℕ → RelayConfig) (node : ℕ) (s : RelayStore) :
    NetLabel → RelayStore → Prop where
  | admitBundle {nowMs : UInt64} {bytes : Bytes} {s' : RelayStore}
      (h : s.admitBundle c (cfg node) nowMs bytes = .ok s') :
      OwnOp c cfg node s (.admitBundle node nowMs bytes) s'
  | take {order : IterOrder} {addresses : List Address} :
      OwnOp c cfg node s (.take node order addresses) (s.takeForAddresses order addresses).1
  | sweep {order : IterOrder} {nowMs : UInt64} :
      OwnOp c cfg node s (.sweep node order nowMs) (s.sweepExpired order nowMs)

/-- What a step can do to the stores and the links: nothing, open a link between two
devices that reach each other, an operation of one node on its store, or a step of the two
sessions on a link. -/
inductive Effect (c : Crates) (cfg : ℕ → RelayConfig) (json : SyncJson) (w : MeshNet)
    (label : NetLabel) (w' : MeshNet) : Prop where
  | still (hstores : ∀ i, w'.store i = w.store i) (hlength : w'.links.length = w.links.length)
      (hlinks : ∀ (j : ℕ) (link : SimLink), w'.links[j]? = some link →
        ∃ old : SimLink, w.links[j]? = some old ∧ link.node = old.node ∧ link.side = old.side)
  | opened (dialer target : ℕ) (hreach : w.network.reachable dialer target = true)
      (hstores : ∀ i, w'.store i = w.store i)
      (hlinks : w'.links = w.links ++ [({ dialer, target } : SimLink)])
  | own (node : ℕ) (s : RelayStore) (hop : OwnOp c cfg node (w.store node) label s)
      (hw' : w' = w.setStore node s)
  | ran (k : ℕ) (link : SimLink) (pairLabel : PairLabel) (hk : w.links[k]? = some link)
      (hlabel : (∃ x nowMs order, label = .advance k x nowMs order ∧
        pairLabel = .advance x nowMs order) ∨ ∃ x, pairLabel = .drop x)
      (hstores : w'.stores = (w.onLink c cfg json k pairLabel).stores)
      (hlinks : w'.links = (w.onLink c cfg json k pairLabel).links)

/-- How a pass has come to be what it is after a step. -/
inductive PassEffect (w w' : MeshNet) (p : ℕ) (pass' : Pass) : Prop where
  | still (h : w.passes[p]? = some pass')
  | began (hfresh : w.passes[p]? = none) (node : ℕ) (order : ScanOrder)
      (h : pass' = { node, rest := w.network.scan order node })
  | skipped (pass : Pass) (sighting : PeerSighting) (rest : List PeerSighting)
      (hpass : w.passes[p]? = some pass) (hlink : pass.link = none)
      (hrest : pass.rest = sighting :: rest)
      (hunreached : ∀ target, sighting.handle = .simulated target →
        w.network.reachable pass.node target = false)
      (h : pass' = { pass with rest })
  | dialed (pass : Pass) (target : ℕ) (token : AdvertToken) (rest : List PeerSighting)
      (hpass : w.passes[p]? = some pass) (hlink : pass.link = none)
      (hrest : pass.rest = ⟨.simulated target, token⟩ :: rest)
      (hlinks : w'.links = w.links ++ [({ dialer := pass.node, target } : SimLink)])
      (h : pass' = { pass with rest, link := some w.links.length })
  | settled (pass : Pass) (k : ℕ) (link : SimLink) (totalAdmitted : ℕ)
      (hpass : w.passes[p]? = some pass) (hlink : pass.link = some k)
      (hk : w.links[k]? = some link) (hfin : link.near.pc.isFinished = true)
      (h : pass' = { pass with link := none, totalAdmitted })

section Effects

variable {c : Crates} {cfg : ℕ → RelayConfig} {json : SyncJson} {w w' : MeshNet} {label : NetLabel}

lemma Effect.refl : Effect c cfg json w label w :=
  .still (fun _ => rfl) rfl fun _ link hlink => ⟨link, hlink, rfl, rfl⟩

lemma Effect.of_eq (hstores : w'.stores = w.stores) (hlinks : w'.links = w.links) :
    Effect c cfg json w label w' := by
  apply Effect.still
  · exact store_of_stores hstores
  · rw [hlinks]
  · intro j link hlink
    rw [hlinks] at hlink
    exact ⟨link, hlink, rfl, rfl⟩

lemma setStore_store (w : MeshNet) (node : ℕ) : w.setStore node (w.store node) = w := by
  unfold setStore store
  cases hnode : w.stores[node]? with
  | none =>
    rw [List.set_eq_of_length_le (List.getElem?_eq_none_iff.mp hnode)]
  | some s =>
    obtain ⟨hlt, rfl⟩ := List.getElem?_eq_some_iff.mp hnode
    rw [Option.getD_some, List.set_getElem_self]

lemma effect_onLink (k : ℕ) (pairLabel : PairLabel)
    (hlabel : (∃ x nowMs order, label = .advance k x nowMs order ∧
      pairLabel = .advance x nowMs order) ∨ ∃ x, pairLabel = .drop x)
    (hstores : w'.stores = (w.onLink c cfg json k pairLabel).stores)
    (hlinks : w'.links = (w.onLink c cfg json k pairLabel).links) :
    Effect c cfg json w label w' := by
  cases hk : w.links[k]? with
  | none =>
    have hsame : w.onLink c cfg json k pairLabel = w := by
      unfold onLink
      rw [hk]
    rw [hsame] at hstores hlinks
    exact .of_eq hstores hlinks
  | some link => exact .ran k link pairLabel hk hlabel hstores hlinks

theorem effect_step (c : Crates) (cfg : ℕ → RelayConfig) (json : SyncJson) (w : MeshNet)
    (label : NetLabel) : Effect c cfg json w label (w.step c cfg json label) := by
  cases label with
  | register fresh => exact .still store_registered rfl fun _ link hlink => ⟨link, hlink, rfl, rfl⟩
  | sever a b => exact .of_eq rfl rfl
  | heal a b => exact .of_eq rfl rfl
  | setOnline device online => exact .of_eq rfl rfl
  | advertise device token =>
    cases hadv : w.network.advertise device token with
    | _ => exact .of_eq (by simp [step, hadv]) (by simp [step, hadv])
  | admitBundle node nowMs bytes =>
    cases hadmit : (w.store node).admitBundle c (cfg node) nowMs bytes with
    | error e =>
      have hsame : w.step c cfg json (.admitBundle node nowMs bytes) = w := by
        simp [step, onStore, hadmit, Except.toOption, setStore_store]
      rw [hsame]
      exact .refl
    | ok s => exact .own node s (.admitBundle hadmit) (by simp [step, onStore, hadmit, Except.toOption])
  | take node order addresses => exact .own node _ .take rfl
  | sweep node order nowMs => exact .own node _ .sweep rfl
  | scan node order =>
    simp only [step]
    split_ifs with hnode
    · exact .of_eq rfl rfl
    · exact .refl
  | dial p =>
    cases hpass : w.passes[p]? with
    | none =>
      simp only [step, hpass]
      exact .refl
    | some pass =>
      cases hlink : pass.link with
      | some k =>
        have hsame : w.step c cfg json (.dial p) = w := by simp [step, hpass, hlink]
        rw [hsame]
        exact .refl
      | none =>
        have hdial : w.step c cfg json (.dial p) = w.dial p pass := by simp [step, hpass, hlink]
        rw [hdial]
        rcases w.dial_cases p pass with
          ⟨-, hnext⟩ | ⟨_, rest, -, -, hnext⟩ | ⟨target, _, rest, state, -, hreach, -, hnext⟩
        · rw [hnext]
          exact .refl
        · rw [hnext]
          exact .of_eq rfl rfl
        · rw [hnext]
          exact .opened pass.node target hreach (fun _ => rfl) rfl
  | accept node =>
    rcases w.accept_cases c cfg json node with
      hnext | ⟨k, state, rest, -, -, hnext⟩
    · rw [hnext]
      exact .refl
    · rw [hnext]
      exact .still (fun _ => rfl) (List.length_modify _ _ _) fun _ _ hlink =>
        getElem?_accepted hlink
  | advance k x nowMs order =>
    simp only [step]
    split_ifs with hwaiting
    · exact .refl
    · exact effect_onLink k _ (Or.inl ⟨x, nowMs, order, rfl, rfl⟩) rfl rfl
  | settle p =>
    simp only [step]
    split
    · rename_i pass k hpass
      rcases w.settle_cases c cfg json p pass k with
        hnext | ⟨link, totalAdmitted, -, -, hnext⟩
      · rw [hnext]
        exact .refl
      · rw [hnext]
        exact effect_onLink k (.drop .a) (Or.inr ⟨.a, rfl⟩) rfl rfl
    · exact .refl
  | hangUp k => exact effect_onLink k (.drop .b) (Or.inr ⟨.b, rfl⟩) rfl rfl

/-- A link keeps its number and its two devices. -/
lemma Effect.node_persists (h : Effect c cfg json w label w') {k : ℕ} {link : SimLink}
    (hk : w.links[k]? = some link) :
    ∃ link' : SimLink, w'.links[k]? = some link' ∧ link'.node = link.node := by
  cases h with
  | still _ hlength hlinks =>
    have hlt : k < w'.links.length := hlength ▸ (List.getElem?_eq_some_iff.mp hk).1
    obtain ⟨old, hold, hnode, -⟩ := hlinks k _ (List.getElem?_eq_getElem hlt)
    rw [hk, Option.some.injEq] at hold
    subst hold
    exact ⟨_, List.getElem?_eq_getElem hlt, hnode⟩
  | opened dialer target _ _ hlinks =>
    refine ⟨link, ?_, rfl⟩
    rw [hlinks, List.getElem?_append_left (List.getElem?_eq_some_iff.mp hk).1]
    exact hk
  | own node s _ hw' =>
    rw [hw']
    exact ⟨link, hk, rfl⟩
  | ran j link' pairLabel hj _ _ hlinks =>
    rw [hlinks, onLink_of_some hj]
    have hlt := (List.getElem?_eq_some_iff.mp hk).1
    by_cases hjk : j = k
    · subst hjk
      rw [hk, Option.some.injEq] at hj
      subst hj
      exact ⟨_, List.getElem?_set_self hlt, node_save _⟩
    · refine ⟨link, ?_, rfl⟩
      rw [List.getElem?_set_ne hjk]
      exact hk

lemma Effect.length_le (h : Effect c cfg json w label w') : w.links.length ≤ w'.links.length := by
  cases h with
  | still _ hlength _ => exact hlength.ge
  | opened _ _ _ _ hlinks => simp [hlinks]
  | own _ _ _ hw' => exact hw' ▸ le_rfl
  | ran k link pairLabel hk _ _ hlinks =>
    rw [hlinks, onLink_of_some hk]
    exact (List.length_set).ge

lemma getElem?_passes_set {passes : List Pass} {p j : ℕ} {pass pass' : Pass}
    (h : (passes.set p pass)[j]? = some pass') : passes[j]? = some pass' ∨ j = p ∧ pass' = pass := by
  by_cases hjp : p = j
  · subst hjp
    rw [List.getElem?_set_self'] at h
    obtain ⟨_, -, rfl⟩ := Option.map_eq_some_iff.mp h
    exact Or.inr ⟨rfl, rfl⟩
  · rw [List.getElem?_set_ne hjp] at h
    exact Or.inl h

theorem passEffect_step (c : Crates) (cfg : ℕ → RelayConfig) (json : SyncJson) (w : MeshNet)
    (label : NetLabel) {j : ℕ} {pass' : Pass}
    (h : (w.step c cfg json label).passes[j]? = some pass') :
    PassEffect w (w.step c cfg json label) j pass' := by
  cases label with
  | advertise device token =>
    cases hadv : w.network.advertise device token with
    | _ => exact .still (by simpa [step, hadv] using h)
  | scan node order =>
    by_cases hnode : node < w.stores.length
    · have happend : (w.passes ++ [({ node, rest := w.network.scan order node } : Pass)])[j]? =
          some pass' := by simpa [step, hnode] using h
      rw [List.getElem?_append] at happend
      split_ifs at happend with hlt
      · exact .still happend
      · rw [List.getElem?_singleton] at happend
        split_ifs at happend with hzero
        · rw [Option.some.injEq] at happend
          exact .began (List.getElem?_eq_none (by omega)) node order happend.symm
    · exact .still (by simpa [step, hnode] using h)
  | dial p =>
    cases hpass : w.passes[p]? with
    | none => exact .still (by simpa [step, hpass] using h)
    | some pass =>
      cases hlink : pass.link with
      | some k => exact .still (by simpa [step, hpass, hlink] using h)
      | none =>
        have hdial : w.step c cfg json (.dial p) = w.dial p pass := by simp [step, hpass, hlink]
        rw [hdial] at h ⊢
        rcases w.dial_cases p pass with
          ⟨-, hnext⟩ | ⟨sighting, rest, hrest, hunreached, hnext⟩ |
            ⟨target, token, rest, state, hrest, -, -, hnext⟩
        · rw [hnext] at h ⊢
          exact .still h
        · rw [hnext] at h ⊢
          rcases getElem?_passes_set h with hold | ⟨rfl, heq⟩
          · exact .still hold
          · exact .skipped pass sighting rest hpass hlink hrest hunreached heq
        · rw [hnext] at h ⊢
          rcases getElem?_passes_set h with hold | ⟨rfl, heq⟩
          · exact .still hold
          · exact .dialed pass target token rest hpass hlink hrest rfl heq
  | accept node =>
    rcases w.accept_cases c cfg json node with hnext | ⟨k, state, rest, -, -, hnext⟩
    · rw [hnext] at h ⊢
      exact .still h
    · rw [hnext] at h ⊢
      exact .still h
  | advance k x nowMs order =>
    refine .still ?_
    simp only [step] at h
    split_ifs at h with hwaiting
    · exact h
    · rwa [passes_onLink] at h
  | settle p =>
    cases hpass : w.passes[p]? with
    | none => exact .still (by simpa [step, hpass] using h)
    | some pass =>
      cases hlink : pass.link with
      | none => exact .still (by simpa [step, hpass, hlink] using h)
      | some k =>
        have hsettle : w.step c cfg json (.settle p) = w.settle c cfg json p pass k := by
          simp [step, hpass, hlink]
        rw [hsettle] at h ⊢
        rcases w.settle_cases c cfg json p pass k with
          hnext | ⟨link, totalAdmitted, hk, hfin, hnext⟩
        · rw [hnext] at h ⊢
          exact .still h
        · rw [hnext] at h ⊢
          rcases getElem?_passes_set h with hold | ⟨rfl, heq⟩
          · exact .still hold
          · exact .settled pass k link totalAdmitted hpass hlink hk hfin heq
  | hangUp k =>
    refine .still ?_
    change (w.onLink c cfg json k (.drop .b)).passes[j]? = some pass' at h
    rwa [passes_onLink] at h
  | _ => exact .still h

end Effects

end MeshNet

end Parda.Mesh
