import Parda.Mesh.Hybrid
import Parda.Mesh.LocalCrates
import Parda.Mesh.Transport

/-!
# Addresses across the hybrid handoff

A `HybridTransport` over a networked primary and the mesh transport: envelopes are composed with
the next dead-drop address and the recipient's id, and sent in any order and any number of times.
What counts is what the primary sees of them, and what the mesh does.
-/

namespace Parda.Mesh

open Protocol

/-- The networked transport as its operator sees it: the envelopes it was handed. Whether it
reports success is its own affair. -/
def observed (result : Except PardaError Unit) : TransportLayer (List MessageEnvelope) where
  send envelope handed := (result, envelope :: handed)
  receive _ handed := (result.map fun _ => [], handed)

/-- The mesh transport of a device, its relay store, and the bundles its own sends brought into
the store. -/
structure MeshSender where
  transport : MeshTransport
  store : RelayStore := {}
  bundles : List Bytes := []

/-- The bundle that a send of the envelope makes. -/
def framed (c : Crates) (wrapMs : UInt64) (envelope : MessageEnvelope) : Option Bytes :=
  envelope.deadDropAddress.bind fun address => (wrap c wrapMs envelope address).toOption

/-- The clock readings and random choices of one call. -/
structure MeshCall where
  wrapMs : UInt64 := 0
  admitMs : UInt64 := 0
  rng : PollRng
  order : IterOrder := .insertion

def MeshSender.layer (c : Crates) (cfg : RelayConfig) (call : MeshCall) :
    TransportLayer MeshSender where
  send envelope s :=
    match s.transport.send c cfg call.wrapMs call.admitMs s.store envelope with
    | .ok (transport, store) =>
      (.ok (), ⟨transport, store, (framed c call.wrapMs envelope).toList ++ s.bundles⟩)
    | .error e => (.error e, s)
  receive _ s :=
    let claimed := s.transport.receive c call.rng call.order s.store
    (.ok (claimed.2.2.map Claim.envelope), { s with transport := claimed.1, store := claimed.2.1 })

/-- An envelope as it is composed for a recipient, but for its address. -/
structure Draft where
  envelope : MessageEnvelope
  recipient_ne : envelope.recipientId ≠ ""

structure Handoff where
  handed : List MessageEnvelope := []
  sender : MeshSender
  composed : List MessageEnvelope := []
  falling : List MessageEnvelope := []

/-- `relay` is whatever else the device does with its relay store. -/
inductive HandoffLabel where
  | compose (draft : Draft)
  | send (index : ℕ) (result : Except PardaError Unit)
  | fallBack (index : ℕ) (call : MeshCall)
  | receive (recipientId : String) (result : Except PardaError Unit) (call : MeshCall)
  | relay (store : RelayStore)

namespace Handoff

open HybridTransport

variable (c : Crates) (cfg : RelayConfig)

def step (s : Handoff) : HandoffLabel → Handoff
  | .compose draft =>
    let envelope :=
      { draft.envelope with deadDropAddress := some (s.sender.transport.nextSendAddress c) }
    { s with composed := s.composed ++ [envelope] }
  | .send index result =>
    match s.composed[index]? with
    | none => s
    | some envelope =>
      match trySend (observed result) envelope s.handed with
      | (none, handed) => { s with handed := handed }
      | (some meshEnvelope, handed) =>
        { s with handed := handed, falling := s.falling ++ [meshEnvelope] }
  | .fallBack index call =>
    match s.falling[index]? with
    | none => s
    | some meshEnvelope =>
      { s with
        sender := ((MeshSender.layer c cfg call).send meshEnvelope s.sender).2
        falling := s.falling.eraseIdx index }
  | .receive recipientId result call =>
    let got := HybridTransport.receive (observed result) (MeshSender.layer c cfg call) recipientId
      (s.handed, s.sender)
    { s with handed := got.2.1, sender := got.2.2 }
  | .relay store => { s with sender := { s.sender with store := store } }

/-- The primary saw the address next to the id of a recipient. -/
def Exposed (s : Handoff) (address : Address) : Prop :=
  ∃ envelope ∈ s.handed, envelope.recipientId ≠ "" ∧ envelope.deadDropAddress = some address

/-- A bundle's destination is the address. -/
def IsDestination (bytes : Bytes) (address : Address) : Prop :=
  ∃ bundle, bytesAsBundle c bytes = .ok bundle ∧ destinationAddress bundle = .ok address

/-- No address that the primary saw next to the id of a recipient is the destination of a bundle
of this sender. -/
def Unlinked (s : Handoff) : Prop :=
  ∀ address, s.Exposed address → ∀ bytes ∈ s.sender.bundles, ¬IsDestination c bytes address

/-- The mesh transport takes an envelope: it is sealed, it has an address, it can be framed, and
the relay store admits the bundle. -/
def Takes (call : MeshCall) (s : MeshSender) (envelope : MessageEnvelope) : Prop :=
  envelope.sealedSender = true ∧ envelope.senderId = "" ∧ envelope.recipientId = "" ∧
    ∃ bytes ∈ framed c call.wrapMs envelope,
      (s.store.admitBundle c cfg call.admitMs bytes).isOk = true

/-- The mesh refuses whatever the primary failed to send. -/
def NothingFallsBack (s : Handoff) : HandoffLabel → Prop
  | .fallBack index call =>
    ∀ meshEnvelope ∈ s.falling[index]?, ¬Takes c cfg call s.sender meshEnvelope
  | _ => True

variable {c cfg}

/-- The mesh transport accepts an envelope it takes. -/
lemma send_eq_of_takes {call : MeshCall} {s : MeshSender} {envelope : MessageEnvelope}
    (h : Takes c cfg call s envelope) :
    ∃ bytes ∈ framed c call.wrapMs envelope, ∃ store,
      s.transport.send c cfg call.wrapMs call.admitMs s.store envelope =
        .ok ({ s.transport with sendCounter := s.transport.sendCounter + 1 }, store) := by
  obtain ⟨hsealed, hsender, hrecipient, bytes, hbytes, hstored⟩ := h
  refine ⟨bytes, hbytes, ?_⟩
  unfold framed at hbytes
  cases haddr : envelope.deadDropAddress with
  | none =>
    rw [haddr] at hbytes
    cases hbytes
  | some address =>
    rw [haddr] at hbytes
    cases hwrap : wrap c call.wrapMs envelope address with
    | error e =>
      rw [Option.bind_some, hwrap] at hbytes
      cases hbytes
    | ok bytes' =>
      rw [Option.bind_some, hwrap] at hbytes
      obtain rfl : bytes' = bytes := by simpa [Except.toOption] using hbytes
      cases had : s.store.admitBundle c cfg call.admitMs bytes' with
      | error e =>
        rw [had] at hstored
        cases hstored
      | ok store =>
        refine ⟨store, ?_⟩
        unfold MeshTransport.send
        rw [if_neg (by simp [hsealed, hsender, hrecipient])]
        simp only [haddr, hwrap, had]

/-- It accepts no other. -/
lemma takes_of_send_eq {call : MeshCall} {s : MeshSender} {envelope : MessageEnvelope}
    {transport : MeshTransport} {store : RelayStore}
    (hsend : s.transport.send c cfg call.wrapMs call.admitMs s.store envelope =
      .ok (transport, store)) : Takes c cfg call s envelope := by
  have hid : ¬(!envelope.sealedSender || !envelope.senderId.isEmpty ||
      !envelope.recipientId.isEmpty) = true := by
    intro hid
    unfold MeshTransport.send at hsend
    rw [if_pos hid] at hsend
    cases hsend
  simp only [Bool.not_eq_true, Bool.or_eq_false_iff, Bool.not_eq_false',
    String.isEmpty_iff] at hid
  obtain ⟨address, bytes, haddr, hwrap, hstored, -⟩ := MeshTransport.send_cases hsend
  refine ⟨hid.1.1, hid.1.2, hid.2, bytes, ?_, ?_⟩
  · unfold framed
    rw [haddr, Option.bind_some, hwrap]
    rfl
  · change (s.store.admitChecked c cfg call.admitMs bytes none).isOk = true
    rw [hstored]
    rfl

/-- What a send over the mesh does, by whether the envelope is taken. -/
lemma send_of_takes {call : MeshCall} {s : MeshSender} {envelope : MessageEnvelope}
    (h : Takes c cfg call s envelope) :
    ∃ bytes ∈ framed c call.wrapMs envelope, ∃ store,
      (MeshSender.layer c cfg call).send envelope s =
        (.ok (), ⟨{ s.transport with sendCounter := s.transport.sendCounter + 1 }, store,
          bytes :: s.bundles⟩) := by
  obtain ⟨bytes, hbytes, store, hsend⟩ := send_eq_of_takes h
  refine ⟨bytes, hbytes, store, ?_⟩
  unfold MeshSender.layer
  simp only [hsend]
  rw [Option.mem_def.mp hbytes]
  rfl

lemma send_of_not_takes {call : MeshCall} {s : MeshSender} {envelope : MessageEnvelope}
    (h : ¬Takes c cfg call s envelope) :
    ∃ e, (MeshSender.layer c cfg call).send envelope s = (.error e, s) := by
  unfold MeshSender.layer
  dsimp only
  cases hsend : s.transport.send c cfg call.wrapMs call.admitMs s.store envelope with
  | error e => exact ⟨e, rfl⟩
  | ok p => exact absurd (takes_of_send_eq hsend) h

lemma trySend_observed (result : Except PardaError Unit) (envelope : MessageEnvelope)
    (handed : List MessageEnvelope) :
    trySend (observed result) envelope handed =
      (if result.isOk then none else some { envelope with recipientId := "" },
        envelope :: handed) := by
  unfold trySend observed
  cases result with
  | ok _ => rfl
  | error e => rfl

/-- A send that nothing comes between is a call of `HybridTransport::send`. -/
theorem run_send (s : Handoff) (h : s.falling = []) {index : ℕ} {envelope : MessageEnvelope}
    (hcomposed : s.composed[index]? = some envelope) (result : Except PardaError Unit)
    (call : MeshCall) :
    let sent := HybridTransport.send (observed result) (MeshSender.layer c cfg call) envelope
      (s.handed, s.sender)
    Machine.run (step c cfg) s [.send index result, .fallBack 0 call] =
      { s with handed := sent.2.1, sender := sent.2.2 } := by
  simp only [Machine.run_cons, Machine.run_nil, HybridTransport.send, step, hcomposed,
    trySend_observed]
  by_cases hok : result.isOk = true
  · simp only [hok, if_true, h, List.getElem?_nil]
  · simp only [hok, if_false, h, List.nil_append, List.getElem?_cons_zero, List.eraseIdx_cons_zero,
      Bool.false_eq_true]

/-- An address that a bundle of this sender can have was handed to the primary before, since the
primary is always asked first. -/
structure Inv (c : Crates) (s : Handoff) : Prop where
  composed : ∀ envelope ∈ s.composed, envelope.recipientId ≠ "" ∧
    envelope.deadDropAddress.isSome = true
  falling : ∀ meshEnvelope ∈ s.falling, ∃ address,
    meshEnvelope.deadDropAddress = some address ∧ s.Exposed address
  bundles : ∀ bytes ∈ s.sender.bundles, ∃ address, IsDestination c bytes address ∧
    s.Exposed address

/-- What is exposed depends on what the primary was handed, and stays exposed. -/
lemma Exposed.mono {s s' : Handoff} {address : Address} (h : s.Exposed address)
    (hsub : s.handed ⊆ s'.handed) : s'.Exposed address := by
  obtain ⟨envelope, hmem, hrest⟩ := h
  exact ⟨envelope, hsub hmem, hrest⟩

/-- A framed bundle is destined for the envelope's address. -/
lemma isDestination_of_framed (laws : FramingLaws c) {wrapMs : UInt64}
    {envelope : MessageEnvelope} {bytes : Bytes} (h : bytes ∈ framed c wrapMs envelope) :
    ∃ address, envelope.deadDropAddress = some address ∧ IsDestination c bytes address := by
  unfold framed at h
  rw [Option.mem_def, Option.bind_eq_some_iff] at h
  obtain ⟨address, haddr, hbytes⟩ := h
  obtain ⟨bytes', bundle, hwrap, hbundle, hdest, -⟩ := wrap_spec laws wrapMs envelope address
  rw [hwrap] at hbytes
  obtain rfl : bytes' = bytes := by simpa [Except.toOption] using hbytes
  exact ⟨address, haddr, bundle, hbundle, hdest⟩

/-- The bundles after a send over the mesh. -/
lemma bundles_fallBack (s : Handoff) {index : ℕ} {meshEnvelope : MessageEnvelope}
    (h : s.falling[index]? = some meshEnvelope) (call : MeshCall) :
    (s.step c cfg (.fallBack index call)).sender.bundles = s.sender.bundles ∨
      ∃ bytes ∈ framed c call.wrapMs meshEnvelope,
        (s.step c cfg (.fallBack index call)).sender.bundles = bytes :: s.sender.bundles := by
  rw [step, h]
  dsimp only
  by_cases htakes : Takes c cfg call s.sender meshEnvelope
  · obtain ⟨bytes, hbytes, store, hsend⟩ := send_of_takes htakes
    rw [hsend]
    exact Or.inr ⟨bytes, hbytes, rfl⟩
  · obtain ⟨e, hsend⟩ := send_of_not_takes htakes
    rw [hsend]
    exact Or.inl rfl

/-- What fell back stays exposed while the primary is handed more. -/
lemma Inv.falling_mono {s s' : Handoff} (hs : Inv c s) (hsub : s.handed ⊆ s'.handed)
    {m : MessageEnvelope} (hm : m ∈ s.falling) :
    ∃ address, m.deadDropAddress = some address ∧ s'.Exposed address := by
  obtain ⟨address, haddr, hexp⟩ := hs.falling m hm
  exact ⟨address, haddr, hexp.mono hsub⟩

lemma Inv.bundles_mono {s s' : Handoff} (hs : Inv c s) (hsub : s.handed ⊆ s'.handed)
    {bytes : Bytes} (hb : bytes ∈ s.sender.bundles) :
    ∃ address, IsDestination c bytes address ∧ s'.Exposed address := by
  obtain ⟨address, hdest, hexp⟩ := hs.bundles bytes hb
  exact ⟨address, hdest, hexp.mono hsub⟩

lemma inv_compose {s : Handoff} (hs : Inv c s) (draft : Draft) :
    Inv c (s.step c cfg (.compose draft)) := by
  refine ⟨fun envelope he => ?_, hs.falling, hs.bundles⟩
  rcases List.mem_append.mp he with he | he
  · exact hs.composed envelope he
  · rw [List.mem_singleton.mp he]
    exact ⟨draft.recipient_ne, rfl⟩

/-- The primary is handed the envelope whether or not it takes it. -/
lemma inv_send {s : Handoff} (hs : Inv c s) (index : ℕ) (result : Except PardaError Unit) :
    Inv c (s.step c cfg (.send index result)) := by
  cases h : s.composed[index]? with
  | none =>
    rw [step, h]
    exact hs
  | some envelope =>
    obtain ⟨hrecipient, hsome⟩ := hs.composed envelope (List.mem_of_getElem? h)
    obtain ⟨address, haddr⟩ := Option.isSome_iff_exists.mp hsome
    have hsub : s.handed ⊆ envelope :: s.handed := List.subset_cons_self _ _
    rw [step, h]
    dsimp only
    rw [trySend_observed]
    by_cases hok : result.isOk = true
    · rw [if_pos hok]
      exact ⟨hs.composed, fun m hm => hs.falling_mono hsub hm, fun bytes hb => hs.bundles_mono hsub hb⟩
    · rw [if_neg hok]
      refine ⟨hs.composed, fun m hm => ?_, fun bytes hb => hs.bundles_mono hsub hb⟩
      rcases List.mem_append.mp hm with hm | hm
      · exact hs.falling_mono hsub hm
      · rw [List.mem_singleton.mp hm]
        exact ⟨address, haddr, envelope, List.mem_cons_self, hrecipient, haddr⟩

lemma inv_fallBack (laws : FramingLaws c) {s : Handoff} (hs : Inv c s) (index : ℕ)
    (call : MeshCall) : Inv c (s.step c cfg (.fallBack index call)) := by
  cases h : s.falling[index]? with
  | none =>
    rw [step, h]
    exact hs
  | some meshEnvelope =>
    have hsame : (s.step c cfg (.fallBack index call)).handed = s.handed ∧
        (s.step c cfg (.fallBack index call)).composed = s.composed ∧
          (s.step c cfg (.fallBack index call)).falling = s.falling.eraseIdx index := by
      rw [step, h]
      exact ⟨rfl, rfl, rfl⟩
    have hsub : s.handed ⊆ (s.step c cfg (.fallBack index call)).handed := by
      rw [hsame.1]
      exact List.Subset.refl _
    refine ⟨?_, fun m hm => ?_, fun bytes hb => ?_⟩
    · rw [hsame.2.1]
      exact hs.composed
    · rw [hsame.2.2] at hm
      exact hs.falling_mono hsub (List.mem_of_mem_eraseIdx hm)
    · rcases bundles_fallBack s h call with hbundles | ⟨bytes', hbytes', hbundles⟩
      · rw [hbundles] at hb
        exact hs.bundles_mono hsub hb
      · rw [hbundles] at hb
        rcases List.mem_cons.mp hb with rfl | hb
        · obtain ⟨address, haddr, hdest⟩ := isDestination_of_framed laws hbytes'
          obtain ⟨a, ha, hexp⟩ := hs.falling_mono hsub (List.mem_of_getElem? h)
          rw [haddr] at ha
          obtain rfl := Option.some.inj ha
          exact ⟨address, hdest, hexp⟩
        · exact hs.bundles_mono hsub hb

lemma inv_step (laws : FramingLaws c) (s : Handoff) (label : HandoffLabel) (hs : Inv c s) :
    Inv c (s.step c cfg label) := by
  cases label with
  | compose draft => exact inv_compose hs draft
  | send index result => exact inv_send hs index result
  | fallBack index call => exact inv_fallBack laws hs index call
  | receive recipientId result call => exact ⟨hs.composed, hs.falling, hs.bundles⟩
  | relay store => exact ⟨hs.composed, hs.falling, hs.bundles⟩

/-- The mesh never carried anything of this sender. -/
lemma unlinked_iff {s : Handoff} (hs : Inv c s) : Unlinked c s ↔ s.sender.bundles = [] := by
  constructor
  · intro h
    rw [List.eq_nil_iff_forall_not_mem]
    intro bytes hb
    obtain ⟨address, hdest, hexp⟩ := hs.bundles bytes hb
    exact h address hexp bytes hb hdest
  · intro h address _ bytes hb
    rw [h] at hb
    cases hb

lemma unlinked_step (laws : FramingLaws c) (s : Handoff) (label : HandoffLabel) (hs : Inv c s)
    (hgood : Unlinked c s) :
    Unlinked c (s.step c cfg label) ↔ NothingFallsBack c cfg s label := by
  rw [unlinked_iff (inv_step laws s label hs)]
  rw [unlinked_iff hs] at hgood
  cases label with
  | compose draft => exact iff_of_true hgood trivial
  | send index result =>
    refine iff_of_true ?_ trivial
    rw [step]
    split
    · exact hgood
    · split <;> exact hgood
  | fallBack index call =>
    dsimp only [NothingFallsBack]
    cases h : s.falling[index]? with
    | none =>
      rw [step, h]
      exact iff_of_true hgood (fun _ => nofun)
    | some meshEnvelope =>
      rw [step, h]
      simp only [Option.mem_def, Option.some.injEq, forall_eq']
      constructor
      · intro hnil htakes
        obtain ⟨bytes, -, store, hsend⟩ := send_of_takes htakes
        rw [hsend] at hnil
        cases hnil
      · intro htakes
        obtain ⟨e, hsend⟩ := send_of_not_takes htakes
        rw [hsend]
        exact hgood
  | receive recipientId result call => exact iff_of_true hgood trivial
  | relay store => exact iff_of_true hgood trivial

/-- A device that has sent nothing yet. -/
def start (transport : MeshTransport) (store : RelayStore) : Handoff where
  sender := { transport := transport, store := store }

lemma inv_start (transport : MeshTransport) (store : RelayStore) :
    Inv c (start transport store) :=
  ⟨fun _ => nofun, fun _ => nofun, fun _ => nofun⟩

/-- The addresses that the primary saw stay apart from the mesh's in every state of a run exactly
when the mesh refuses all that the primary failed to send. -/
theorem everyState_unlinked_iff (laws : FramingLaws c) (cfg : RelayConfig)
    (transport : MeshTransport) (store : RelayStore) (labels : List HandoffLabel) :
    Machine.EveryState (step c cfg) (Unlinked c) (start transport store) labels ↔
      Machine.EveryStep (step c cfg) (NothingFallsBack c cfg) (start transport store) labels := by
  have hstart : Unlinked c (start transport store) := (unlinked_iff (inv_start _ _)).mpr rfl
  exact Machine.everyState_iff_everyStep (inv_step laws) (unlinked_step laws)
    (inv_start transport store) hstart labels

section Sample

def sampleStart : Handoff := start { tagKey := ⟨List.Vector.replicate 32 7⟩ } {}

def sampleDraft : Draft := ⟨{ sampleEnvelope 1 with recipientId := "bob" }, by decide⟩

/-- The relay is out of reach once; the message goes over the mesh instead. -/
def offlineRun : List HandoffLabel :=
  [.compose sampleDraft, .send 0 (.error (.transport "connection refused")),
    .fallBack 0 ⟨1000, 1001, samplePollRng, .insertion⟩]

/-- Not sealed. -/
def plainDraft : Draft :=
  ⟨{ sampleEnvelope 2 with recipientId := "bob", sealedSender := false }, by decide⟩

/-- The relay is out of reach for a message that the mesh refuses, and then in reach again. -/
def refusedRun : List HandoffLabel :=
  [.compose plainDraft, .send 0 (.error (.transport "connection refused")),
    .fallBack 0 ⟨1000, 1001, samplePollRng, .insertion⟩, .compose sampleDraft, .send 1 (.ok ())]

theorem not_unlinked_offlineRun :
    ¬Unlinked localCrates (Machine.run (step localCrates {}) sampleStart offlineRun) := by
  have hinv : Inv localCrates (Machine.run (step localCrates {}) sampleStart offlineRun) :=
    Machine.run_invariant (inv_step localCrates_framing) (inv_start _ _) offlineRun
  have hbundles : (Machine.run (step localCrates {}) sampleStart offlineRun).sender.bundles ≠ [] := by
    decide +kernel
  exact fun h => hbundles ((unlinked_iff hinv).mp h)

theorem everyState_unlinked_iff_refused :
    Machine.EveryState (step localCrates {}) (Unlinked localCrates) sampleStart refusedRun := by
  have hrefused : NothingFallsBack localCrates {}
      (Machine.run (step localCrates {}) sampleStart (refusedRun.take 2))
      (.fallBack 0 ⟨1000, 1001, samplePollRng, .insertion⟩) := by
    intro meshEnvelope hmem htakes
    obtain rfl := Option.some.inj hmem
    exact absurd htakes.1 (by decide)
  exact (everyState_unlinked_iff localCrates_framing {} _ {} refusedRun).mpr
    ⟨trivial, trivial, hrefused, trivial, trivial, trivial⟩

end Sample

end Handoff

end Parda.Mesh
