import Mathlib.Combinatorics.SimpleGraph.Basic
import Mathlib.Data.Finset.Basic
import Parda.Protocol.Envelope

/-!
# The simulated radio

Model of `mesh/src/radio/simulated.rs`, and of the handles and tokens of
`mesh/src/radio/mod.rs` that it uses. Devices are numbered in the order of their
registration. A link is a number: the two ends of its channels are elsewhere, and what the
network keeps of it is its place in the queue of the device that has to accept it.
-/

namespace Parda.Mesh

open Protocol

def advertTokenLen : ℕ := 16

/-- The random bytes that a device advertises. -/
abbrev AdvertToken := List.Vector UInt8 advertTokenLen

/-- `MeshError`, restricted to the variants a radio returns. -/
inductive RadioError where
  | peerUnreachable
  | radioUnavailable (message : String)
  | link (message : String)
deriving DecidableEq, Repr

inductive PeerHandle where
  | simulated (index : ℕ)
  | bytes (contents : Bytes)
deriving DecidableEq

structure PeerSighting where
  handle : PeerHandle
  token : AdvertToken
deriving DecidableEq

structure DeviceState where
  token : Option AdvertToken
  online : Bool
  /-- The links sent on `accept_tx` that the device has not accepted yet. -/
  acceptQueue : List ℕ
deriving DecidableEq

/-- An order in which a pass over the devices may meet them. -/
structure ScanOrder where
  order : List ℕ → List ℕ
  order_perm : ∀ l, (order l).Perm l

def ScanOrder.insertion : ScanOrder := ⟨id, fun _ => List.Perm.refl _⟩

structure SimNetwork where
  devices : List DeviceState := []
  severed : Finset (ℕ × ℕ) := ∅

namespace SimNetwork

/-- `register`. A device has a token and is online from the start. -/
def register (net : SimNetwork) (fresh : AdvertToken) : SimNetwork :=
  { net with devices := net.devices ++ [⟨some fresh, true, []⟩] }

def pair (a b : ℕ) : ℕ × ℕ := if a ≤ b then (a, b) else (b, a)

def sever (net : SimNetwork) (a b : ℕ) : SimNetwork :=
  { net with severed := insert (pair a b) net.severed }

def heal (net : SimNetwork) (a b : ℕ) : SimNetwork :=
  { net with severed := net.severed.erase (pair a b) }

def setOnline (net : SimNetwork) (device : ℕ) (online : Bool) : SimNetwork :=
  { net with devices := net.devices.modify device fun state => { state with online } }

def isOnline (net : SimNetwork) (device : ℕ) : Bool :=
  (net.devices[device]?.map DeviceState.online).getD false

def reachable (net : SimNetwork) (a b : ℕ) : Bool :=
  if a = b then false
  else if !net.isOnline a || !net.isOnline b then false
  else pair a b ∉ net.severed

def advertise (net : SimNetwork) (device : ℕ) (token : AdvertToken) : Except RadioError SimNetwork :=
  match net.devices[device]? with
  | none => .error (.radioUnavailable "device not registered")
  | some state => .ok { net with devices := net.devices.set device { state with token := some token } }

/-- The filter of `scan`, which does not call `reachable`. -/
def sees (net : SimNetwork) (device idx : ℕ) : Bool :=
  idx != device && net.isOnline device && net.isOnline idx && pair device idx ∉ net.severed

def scan (order : ScanOrder) (net : SimNetwork) (device : ℕ) : List PeerSighting :=
  ((order.order (List.range net.devices.length)).filter (net.sees device)).filterMap fun idx =>
    (net.devices[idx]?.bind DeviceState.token).map fun token => ⟨.simulated idx, token⟩

/-- `connect`, which puts the far end of the new link into the target's accept queue. -/
def connect (net : SimNetwork) (device : ℕ) (peer : PeerHandle) (link : ℕ) :
    Except RadioError SimNetwork :=
  match peer with
  | .bytes _ => .error .peerUnreachable
  | .simulated target =>
    if !net.reachable device target then .error .peerUnreachable
    else
      match net.devices[target]? with
      | none => .error .peerUnreachable
      | some state =>
        .ok { net with
          devices := net.devices.set target { state with acceptQueue := state.acceptQueue ++ [link] } }

/-- `accept`. It waits while the queue is empty. -/
def accept (net : SimNetwork) (device : ℕ) : Option (ℕ × SimNetwork) :=
  match net.devices[device]? with
  | none => none
  | some state =>
    match state.acceptQueue with
    | [] => none
    | link :: rest =>
      some (link, { net with devices := net.devices.set device { state with acceptQueue := rest } })

section Reach

variable {net : SimNetwork} {a b device : ℕ}

lemma pair_comm (a b : ℕ) : pair a b = pair b a := by
  unfold pair
  rcases Nat.lt_trichotomy a b with h | rfl | h
  · rw [if_pos h.le, if_neg (by omega)]
  · rfl
  · rw [if_neg (by omega), if_pos h.le]

lemma reachable_iff : net.reachable a b = true ↔
    a ≠ b ∧ net.isOnline a = true ∧ net.isOnline b = true ∧ pair a b ∉ net.severed := by
  unfold reachable
  by_cases hab : a = b
  · simp [hab]
  · cases net.isOnline a <;> cases net.isOnline b <;> simp [hab]

lemma reachable_comm (a b : ℕ) : net.reachable a b = net.reachable b a := by
  rw [Bool.eq_iff_iff, reachable_iff, reachable_iff, pair_comm b a, ne_comm]
  tauto

lemma lt_of_isOnline (h : net.isOnline device = true) : device < net.devices.length := by
  by_contra hlt
  rw [isOnline, List.getElem?_eq_none (by omega)] at h
  cases h

/-- The filter of `scan` asks what `reachable` asks. -/
lemma sees_eq_reachable (a b : ℕ) : net.sees a b = net.reachable a b := by
  rw [Bool.eq_iff_iff, reachable_iff, sees]
  simp only [Bool.and_eq_true, bne_iff_ne, decide_eq_true_eq, and_assoc, ne_comm]

/-- Who can reach whom. -/
def graph (net : SimNetwork) : SimpleGraph ℕ where
  Adj a b := net.reachable a b = true
  symm := ⟨fun a b h => by rwa [reachable_comm]⟩
  loopless := ⟨fun a h => (reachable_iff.mp h).1 rfl⟩

/-- Every registered device advertises something. -/
def Advertised (net : SimNetwork) : Prop :=
  ∀ state ∈ net.devices, state.token.isSome = true

lemma connect_isOk_iff (link : ℕ) :
    (∃ net', net.connect a (.simulated b) link = .ok net') ↔ net.reachable a b = true := by
  unfold connect
  by_cases h : net.reachable a b = true
  · have hlt := lt_of_isOnline (reachable_iff.mp h).2.2.1
    simp [h, List.getElem?_eq_getElem hlt]
  · simp [h]

lemma mem_scan {order : ScanOrder} {sighting : PeerSighting} :
    sighting ∈ net.scan order a ↔ ∃ b state, sighting.handle = .simulated b ∧
      net.reachable a b = true ∧ net.devices[b]? = some state ∧ state.token = some sighting.token := by
  obtain ⟨handle, token⟩ := sighting
  simp only [scan, List.mem_filterMap, List.mem_filter, (order.order_perm _).mem_iff, List.mem_range,
    sees_eq_reachable, Option.map_eq_some_iff, Option.bind_eq_some_iff, PeerSighting.mk.injEq]
  constructor
  · rintro ⟨idx, ⟨-, hreach⟩, token', ⟨state, hstate, htoken⟩, rfl, rfl⟩
    exact ⟨idx, state, rfl, hreach, hstate, htoken⟩
  · rintro ⟨b, state, rfl, hreach, hstate, htoken⟩
    exact ⟨b, ⟨lt_of_isOnline (reachable_iff.mp hreach).2.2.1, hreach⟩, token,
      ⟨state, hstate, htoken⟩, rfl, rfl⟩

/-- A scan shows exactly the devices that a connection would reach. -/
lemma handle_mem_scan (h : net.Advertised) {order : ScanOrder} :
    (∃ token, ⟨.simulated b, token⟩ ∈ net.scan order a) ↔ net.reachable a b = true := by
  simp only [mem_scan]
  constructor
  · rintro ⟨token, idx, state, hidx, hreach, -⟩
    cases hidx
    exact hreach
  · intro hreach
    have hlt := lt_of_isOnline (reachable_iff.mp hreach).2.2.1
    obtain ⟨token, htoken⟩ := Option.isSome_iff_exists.mp (h _ (List.getElem_mem hlt))
    exact ⟨token, b, net.devices[b], rfl, hreach, List.getElem?_eq_getElem hlt, htoken⟩

end Reach

section Operations

variable {net net' : SimNetwork} {a b device link : ℕ} {state state' : DeviceState}
  {token fresh : AdvertToken} {peer : PeerHandle}

/-- Rewriting the record of a device. -/
def setDevice (net : SimNetwork) (device : ℕ) (state : DeviceState) : SimNetwork :=
  { net with devices := net.devices.set device state }

lemma connect_cases (h : net.connect a peer link = .ok net') : ∃ target state,
    peer = .simulated target ∧ net.reachable a target = true ∧
      net.devices[target]? = some state ∧
      net' = net.setDevice target { state with acceptQueue := state.acceptQueue ++ [link] } := by
  cases peer with
  | bytes contents => cases h
  | simulated target =>
    by_cases hreach : net.reachable a target = true
    · cases hstate : net.devices[target]? with
      | none => simp [connect, hreach, hstate] at h
      | some state =>
        have hnet' : net.setDevice target { state with acceptQueue := state.acceptQueue ++ [link] } =
            net' := by simpa [connect, hreach, hstate, setDevice] using h
        exact ⟨target, state, rfl, hreach, hstate, hnet'.symm⟩
    · simp [connect, hreach] at h

lemma accept_cases (h : net.accept device = some (link, net')) : ∃ state rest,
    net.devices[device]? = some state ∧ state.acceptQueue = link :: rest ∧
      net' = net.setDevice device { state with acceptQueue := rest } := by
  cases hstate : net.devices[device]? with
  | none => simp [accept, hstate] at h
  | some state =>
    cases hqueue : state.acceptQueue with
    | nil => simp [accept, hstate, hqueue] at h
    | cons link' rest =>
      have hnext : link' = link ∧ net.setDevice device { state with acceptQueue := rest } = net' := by
        simpa [accept, hstate, hqueue, setDevice] using h
      obtain ⟨rfl, hnet'⟩ := hnext
      exact ⟨state, rest, rfl, hqueue, hnet'.symm⟩

lemma advertise_cases (h : net.advertise device token = .ok net') : ∃ state,
    net.devices[device]? = some state ∧
      net' = net.setDevice device { state with token := some token } := by
  cases hstate : net.devices[device]? with
  | none => simp [advertise, hstate] at h
  | some state =>
    have hnet' : net.setDevice device { state with token := some token } = net' := by
      simpa [advertise, hstate, setDevice] using h
    exact ⟨state, rfl, hnet'.symm⟩

@[simp] lemma length_setDevice :
    (net.setDevice device state).devices.length = net.devices.length := by
  simp [setDevice]

/-- Tokens and queues have nothing to do with who reaches whom. -/
lemma reachable_setDevice (hstate : net.devices[device]? = some state)
    (honline : state'.online = state.online) (a b : ℕ) :
    (net.setDevice device state').reachable a b = net.reachable a b := by
  have hsame : ∀ i, (net.setDevice device state').isOnline i = net.isOnline i := by
    intro i
    unfold isOnline setDevice
    rw [List.getElem?_set]
    by_cases hi : device = i
    · subst hi
      have hlt := (List.getElem?_eq_some_iff.mp hstate).1
      rw [if_pos rfl, if_pos hlt, hstate]
      simp [honline]
    · simp [hi]
  rw [Bool.eq_iff_iff, reachable_iff, reachable_iff, hsame, hsame]
  rfl

lemma Advertised.setDevice (h : net.Advertised) (hstate : state.token.isSome = true) :
    (net.setDevice device state).Advertised := by
  intro state' hmem
  rcases List.mem_or_eq_of_mem_set hmem with hold | rfl
  · exact h state' hold
  · exact hstate

lemma Advertised.of_getElem? (h : net.Advertised) (hstate : net.devices[device]? = some state) :
    state.token.isSome = true :=
  h state (List.mem_of_getElem? hstate)

lemma Advertised.register (h : net.Advertised) : (net.register fresh).Advertised := by
  intro state hmem
  rcases List.mem_append.mp hmem with hold | hnew
  · exact h state hold
  · rw [List.mem_singleton.mp hnew]
    rfl

lemma Advertised.setOnline (h : net.Advertised) (online : Bool) :
    (net.setOnline device online).Advertised := by
  intro state hmem
  obtain ⟨i, hlt, hget⟩ := List.mem_iff_getElem.mp hmem
  have hlt' : i < net.devices.length := by simpa [SimNetwork.setOnline] using hlt
  have htoken : state.token = net.devices[i].token := by
    rw [← hget]
    simp only [SimNetwork.setOnline, List.getElem_modify]
    split_ifs with hi
    · rfl
    · rfl
  rw [htoken]
  exact h _ (List.getElem_mem hlt')

end Operations

end SimNetwork

end Parda.Mesh
